import MiniSql.Proofs.QueryRows
import MiniSql.Proofs.SharedColumns
import MiniSql.Proofs.SortedRows

namespace MiniSql

namespace Row
variable {row : Row} {name : String} {v : Value}

/-- The first column of this name is at a place. -/
def FirstNamed (row : Row) (name : String) (n : Nat) : Prop :=
  (∃ own, row.names[n]? = some own ∧ Text.sameName own name = true) ∧
    ∀ m < n, ∀ other, row.names[m]? = some other → Text.sameName other name = false

/-- A name reads the first column of that name. -/
theorem get?_firstNamed (visible : row.Visible) (read : row.get? name = some v) :
    ∃ n, row.values[n]? = some v ∧ row.FirstNamed name n := by
  obtain ⟨c, found, rfl⟩ := Option.map_eq_some_iff.mp read
  obtain ⟨answers, n, inside, there, before⟩ := List.find?_eq_some_iff_getElem.mp found
  subst there
  have own : row.names[n]? = some row.cells[n].name := by
    rw [names, List.getElem?_map, List.getElem?_eq_getElem inside]
    rfl
  refine ⟨n, ?_, ⟨_, own, (Cell.answers_none.mp answers).1⟩, fun m earlier other named => ?_⟩
  · rw [values, List.getElem?_map, List.getElem?_eq_getElem inside]
    rfl
  · have bound := Nat.lt_trans earlier inside
    rw [names, List.getElem?_map, List.getElem?_eq_getElem bound] at named
    cases Option.some.inj named
    have silent : ¬ row.cells[m].answers none name = true := by simpa using before m earlier
    rw [Cell.answers_none, visible _ (List.getElem_mem bound)] at silent
    simpa using silent

end Row

namespace Select
variable {store : Store} {setting : Setting} {env : Env} {q : Select} {outer : Option Row}

/-- The rows of the pipeline have the columns that are announced, in their order. -/
theorem unsorted_names {columns : List String} {outputs : List OutputRow} {o : OutputRow}
    (built : ∀ t ∈ store.tables, t.Built ∧ DistinctNames t.schema.columns)
    (run : q.unsorted store (.ofStore store setting) outer = .ok (columns, outputs)) (member : o ∈ outputs) :
    o.row.names = columns := by
  have tables : ∀ t ∈ store.tables, ∀ r ∈ t.rows, ∃ f, r.2 = .ofColumns none t.schema.columns f :=
    fun t inStore => (built t inStore).1.shaped (built t inStore).2
  obtain ⟨scopes, viewed, s, inScopes, ran, _⟩ := mem_unsorted run member
  obtain ⟨relation, joined, viewed⟩ := Outcome.bind_eq_ok.mp viewed
  obtain ⟨_, named, viewed⟩ := Outcome.bind_eq_ok.mp viewed
  obtain ⟨rows, kept, viewed⟩ := Outcome.bind_eq_ok.mp viewed
  obtain ⟨_, listed, same⟩ := Outcome.bind_eq_ok.mp viewed
  cases Outcome.pure_eq_ok.mp same
  have even := Relation.ofSources_even tables (fun _ _ selected => run_even tables selected) joined
  obtain ⟨row, read, rowEven⟩ := scopes_even even.header
    (fun row inRows => even.rows row (filtered_subset kept inRows)) listed inScopes
  rw [← Row.names_toNulls, outputRow_even read rowEven rfl named ran, Row.names_ofNames]

/-- The key of a position is what the name of the column there reads in the output row. -/
theorem sortKey_position {columns : List String} {out : Row} {s : Scope} {key : OrderKey} {n : Nat} {v : Value}
    (position : ordinal? key.expr = some ((n : Int) + 1)) (inside : n < columns.length)
    (run : sortKey env columns out s key = .ok v) : out.get? columns[n] = some v := by
  have there : atPosition? columns (n + 1) = some columns[n] := by
    unfold atPosition?
    rw [if_pos (by omega), show ((n : Int) + 1 - 1).toNat = n by omega, List.getElem?_eq_getElem inside]
  unfold sortKey at run
  simp only [position, there, Option.bind_some] at run
  cases found : out.get? columns[n] with
  | some w =>
    rw [found] at run
    cases run
    rfl
  | none =>
    rw [found] at run
    cases run

/-- Rows are sorted by the keys that the pipeline gives them. The key of a position in ORDER BY is the
value of the first column that has the name of the column there: of the column at that position, unless
one before it has the same name. -/
theorem position_reads_column {result : ResultSet} (run : q.run store setting outer = .ok result) :
    ∃ outputs, q.unsorted store (.ofStore store setting) outer = .ok (result.columns, outputs) ∧
      result.rows = q.arranged outputs ∧
      ∀ o ∈ outputs, ∀ (i : Nat) (key : OrderKey) (n : Nat), q.orderBy[i]? = some key →
        ordinal? key.expr = some ((n : Int) + 1) → (inside : n < result.columns.length) →
        (∃ m v, o.keys[i]? = some v ∧ o.row.values[m]? = some v ∧ o.row.FirstNamed result.columns[n] m) ∧
        ((∀ t ∈ store.tables, t.Built ∧ DistinctNames t.schema.columns) → o.row.FirstOfName n →
          o.keys[i]? = o.row.values[n]?) := by
  rw [Select.run_eq, runWith_unsorted] at run
  obtain ⟨⟨columns, outputs⟩, unsorted, same⟩ := Outcome.bind_eq_ok.mp run
  cases same
  refine ⟨outputs, unsorted, rfl, fun o member i key n listed position inside => ?_⟩
  obtain ⟨scopes, _, s, _, ran, keyed⟩ := mem_unsorted unsorted member
  have visible : o.row.Visible := outputRow_visible (List.forall_mem_nil _) ran
  obtain ⟨v, there, read⟩ : ∃ v, o.keys[i]? = some v ∧ o.row.get? columns[n] = some v := by
    obtain ⟨bound, rfl⟩ := List.getElem?_eq_some_iff.mp listed
    have each := Outcome.mapM_eq_ok.mp keyed
    have bound' : i < o.keys.length := each.length_eq ▸ bound
    exact ⟨o.keys[i], List.getElem?_eq_getElem bound', sortKey_position position inside (each.get bound bound')⟩
  refine ⟨?_, fun built first => ?_⟩
  · obtain ⟨m, value, named⟩ := Row.get?_firstNamed visible read
    exact ⟨m, v, there, value, named⟩
  · have names := unsorted_names built unsorted member
    have width : o.row.values.length = columns.length := by
      rw [← names, Row.values, Row.names, List.length_map, List.length_map]
    have named : o.row.names[n]? = some columns[n] := by rw [names, List.getElem?_eq_getElem inside]
    have value := List.getElem?_eq_getElem (width ▸ inside)
    rw [there, ← read, Row.get?_of_firstOfName visible named value first, value]

/-- `SELECT * FROM points ORDER BY 2 DESC` -/
def mostFirst : Select :=
  { ofTeams [⟨.star none, none, "*"⟩] with groupBy := [], orderBy := [⟨.literal (.int 2), true⟩] }

theorem mostFirst_reads_second :
    ∃ result outputs, mostFirst.run ⟨[points]⟩ ⟨{}, 0⟩ none = .ok result ∧
      result.rows.map Row.values = [[.int 1, .int 20], [.int 1, .int 10], [.int 2, .int 5]] ∧
      result.rows = mostFirst.arranged outputs ∧ ∀ o ∈ outputs, o.keys[0]? = o.row.values[1]? := by
  have built : ∀ t ∈ Store.tables ⟨[points]⟩, t.Built ∧ DistinctNames t.schema.columns :=
    List.forall_mem_singleton.mpr ⟨.write _ (.create _), by decide⟩
  have run : mostFirst.run ⟨[points]⟩ ⟨{}, 0⟩ none = .ok ⟨["team", "n"], [.ofList [("team", .int 1), ("n", .int 20)],
      .ofList [("team", .int 1), ("n", .int 10)], .ofList [("team", .int 2), ("n", .int 5)]]⟩ := rfl
  obtain ⟨outputs, unsorted, rows, keys⟩ := position_reads_column run
  refine ⟨_, outputs, run, rfl, rows, fun o member => ?_⟩
  have names := unsorted_names built unsorted member
  refine (keys o member 0 _ 1 rfl rfl (by decide)).2 built fun m before a b first second => ?_
  obtain rfl : m = 0 := by omega
  rw [names] at first second
  cases first
  cases second
  rfl

/-- `SELECT * FROM x CROSS JOIN y ORDER BY 2` -/
def crossedBySecond : Select :=
  { Insert.crossed with orderBy := [⟨.literal (.int 2), false⟩] }

/-- Of two columns of one name the first is sorted by, whichever of them is meant: the second runs from
two to one. -/
theorem crossedBySecond_twinColumns :
    let store : Store := ⟨[Relation.idTable "x" [1], Relation.idTable "y" [2, 1]]⟩
    ∃ result outputs, crossedBySecond.run store ⟨{}, 0⟩ none = .ok result ∧ result.columns.length = 2 ∧
      crossedBySecond.unsorted store (.ofStore store ⟨{}, 0⟩) none = .ok (result.columns, outputs) ∧
      crossedBySecond.orderBy.map (fun key => ordinal? key.expr) = [some 2] ∧
      outputs.map OutputRow.keys = [[.int 1], [.int 1]] ∧
      outputs.map (fun o => o.row.values[1]?) = [some (.int 2), some (.int 1)] ∧
      result.rows.map Row.values = [[.int 1, .int 2], [.int 1, .int 1]] :=
  ⟨⟨["id", "id"], [⟨[⟨none, "id", .int 1, false⟩, ⟨none, "id", .int 2, false⟩]⟩,
    ⟨[⟨none, "id", .int 1, false⟩, ⟨none, "id", .int 1, false⟩]⟩]⟩, _, rfl, rfl, rfl, rfl, rfl, rfl, rfl⟩

end Select

end MiniSql
