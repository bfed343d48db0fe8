import MiniSql.Mutation.Insert
import MiniSql.Proofs.RowShape

namespace MiniSql

namespace Row

/-- No column before the one at a place has the name of that. -/
def FirstOfName (row : Row) (n : Nat) : Prop :=
  ∀ m < n, ∀ a b, row.names[m]? = some a → row.names[n]? = some b → Text.sameName a b = false

theorem visible_of_toNulls {row : Row} {names : List String} (even : row.toNulls = ofNames names) :
    ∀ c ∈ row.cells, c.hidden = false := by
  intro c member
  have inNulls : { c with value := .null } ∈ row.toNulls.cells := List.mem_map_of_mem member
  rw [even] at inNulls
  obtain ⟨_, _, same⟩ := List.mem_map.mp inNulls
  exact (congrArg Cell.hidden same).symm

/-- A column is read by its name if none before it has the same. -/
theorem get?_of_firstOfName {row : Row} {n : Nat} {name : String} {v : Value}
    (visible : ∀ c ∈ row.cells, c.hidden = false) (named : row.names[n]? = some name)
    (value : row.values[n]? = some v) (first : row.FirstOfName n) : row.get? name = some v := by
  obtain ⟨c, found, rfl⟩ : ∃ c, row.cells[n]? = some c ∧ c.value = v := by
    rw [values, List.getElem?_map] at value
    exact Option.map_eq_some_iff.mp value
  obtain ⟨inside, there⟩ := List.getElem?_eq_some_iff.mp found
  have own : c.name = name := by
    rw [names, List.getElem?_map, found] at named
    exact Option.some.inj named
  have answers : ∀ d ∈ row.cells, d.answers none name = Text.sameName d.name name := by
    intro d member
    unfold Cell.answers
    rw [visible d member]
    simp
  have read : row.cells.find? (fun d => d.answers none name) = some c := by
    refine List.find?_eq_some_iff_getElem.mpr ⟨?_, n, inside, there, fun m before => ?_⟩
    · rw [answers c (there ▸ List.getElem_mem inside), own]
      exact Text.sameName_refl name
    · have earlier : row.names[m]? = some row.cells[m].name := by
        rw [names, List.getElem?_map, List.getElem?_eq_getElem (Nat.lt_trans before inside)]
        rfl
      rw [answers _ (List.getElem_mem _), first m before _ name earlier named]
      rfl
  unfold get? lookup?
  rw [read]
  rfl

end Row

namespace Insert
variable {i : Insert} {schema : Schema}

/-- An INSERT gives no column two values. -/
theorem targetColumns_distinct {targets : List String} (distinct : DistinctNames schema.columns)
    (run : i.targetColumns schema = .ok targets) : targets.Pairwise fun a b => Text.sameName a b = false := by
  have resolved : ∀ {names done final : List String}, done.Pairwise (fun a b => Text.sameName a b = false) →
      targetColumns.resolve schema done names = .ok final → final.Pairwise fun a b => Text.sameName a b = false := by
    intro names
    induction names with
    | nil =>
      intro done final apart run
      cases run
      exact apart
    | cons name more ih =>
      intro done final apart run
      obtain ⟨column, _, run⟩ := Outcome.bind_eq_ok.mp run
      split at run
      · cases run
      · rename_i new
        refine ih (List.pairwise_append.mpr ⟨apart, List.pairwise_singleton .., fun other before last member => ?_⟩) run
        rw [List.mem_singleton.mp member]
        simpa using fun same => new (List.any_eq_true.mpr ⟨other, before, same⟩)
  unfold targetColumns at run
  split at run
  · cases run
    exact List.pairwise_map.mpr distinct
  · exact resolved .nil run

/-- A proposed row has exactly the target columns, and in each of them the value that stands at its place
in the selected row, if no column before that has the same name. -/
structure AssignsInOrder (targets : List String) (selected proposed : Row) : Prop where
  width : selected.values.length = targets.length
  names : proposed.names = targets
  values : ∀ n name v, targets[n]? = some name → selected.values[n]? = some v → selected.FirstOfName n →
    proposed.get? name = some v

theorem firstOfName_of_distinct {row : Row} (distinct : row.names.Pairwise fun a b => Text.sameName a b = false)
    (n : Nat) : row.FirstOfName n := by
  intro m before a b first second
  obtain ⟨inside, rfl⟩ := List.getElem?_eq_some_iff.mp first
  obtain ⟨inside', rfl⟩ := List.getElem?_eq_some_iff.mp second
  exact List.pairwise_iff_getElem.mp distinct m n inside inside' before

theorem assignsInOrder {targets columns : List String} {selected : Row}
    (distinct : targets.Pairwise fun a b => Text.sameName a b = false) (count : columns.length = targets.length)
    (even : selected.toNulls = .ofNames columns) :
    AssignsInOrder targets selected
      (Row.ofList (targets.zip (columns.map fun name => .ofOption (selected.get? name)))) := by
  let read (name : String) : Value := .ofOption (selected.get? name)
  have selectedNames : selected.names = columns := by rw [← Row.names_toNulls, even, Row.names_ofNames]
  have width : selected.values.length = targets.length := by
    rw [← count, ← selectedNames, Row.values, Row.names, List.length_map, List.length_map]
  have firsts : (targets.zip (columns.map read)).map Prod.fst = targets :=
    List.map_fst_zip (Nat.le_of_eq (by rw [List.length_map, count]))
  have seconds : (targets.zip (columns.map read)).map Prod.snd = columns.map read :=
    List.map_snd_zip (Nat.le_of_eq (by rw [List.length_map, count]))
  have listed := Row.ofList_distinct (firsts.symm ▸ distinct)
  have names : (Row.ofList (targets.zip (columns.map read))).names = targets := by
    rw [listed, Row.names, List.map_map]
    exact firsts
  have values : (Row.ofList (targets.zip (columns.map read))).values = columns.map read := by
    rw [listed, Row.values, List.map_map]
    exact seconds
  refine ⟨width, names, fun n name v target value first => ?_⟩
  refine Row.get?_of_firstOfName (fun c member => ?_) (by rw [names]; exact target) ?_
    (firstOfName_of_distinct (by rw [names]; exact distinct) n)
  · rw [listed] at member
    obtain ⟨_, _, rfl⟩ := List.mem_map.mp member
    rfl
  · obtain ⟨column, named⟩ : ∃ column, columns[n]? = some column := by
      have inside := (List.getElem?_eq_some_iff.mp target).1
      exact ⟨_, List.getElem?_eq_getElem (count ▸ inside)⟩
    have found := Row.get?_of_firstOfName (Row.visible_of_toNulls even) (selectedNames ▸ named) value first
    rw [values, List.getElem?_map, named]
    exact congrArg (fun found => some (Value.ofOption found)) found

/-- An INSERT proposes a row for each one that its SELECT returns, whatever the SELECT reads and however
it joins, and fills the columns from left to right: with the exception of a name that the SELECT gives
to several columns. -/
theorem query_assigns_in_order {store : Store} {setting : Setting} {q : Select} {targets : List String}
    {result : ResultSet} (built : ∀ t ∈ store.tables, t.Built ∧ DistinctNames t.schema.columns)
    (distinct : DistinctNames schema.columns) (source : i.rows = .query q)
    (resolved : i.targetColumns schema = .ok targets) (selected : q.run store setting none = .ok result)
    (count : result.columns.length = targets.length) :
    ∃ proposed, i.proposedRows (.ofStore store setting) schema = .ok proposed ∧
      List.Forall₂ (AssignsInOrder targets) result.rows proposed := by
  have even := Select.run_even (fun t member => (built t member).1.shaped (built t member).2) selected
  refine ⟨_, ?_, List.forall₂_map_right_iff.mpr (List.forall₂_same.mpr fun row member =>
    assignsInOrder (targetColumns_distinct distinct resolved) count (even row member))⟩
  unfold proposedRows
  rw [source]
  refine Outcome.bind_eq_ok.mpr ⟨targets, resolved, Outcome.bind_eq_ok.mpr ⟨result, selected, ?_⟩⟩
  rw [if_neg (by simpa using count)]
  rfl

/-- A table of one integer column with one row. -/
def oneNumber (table column : String) (n : Int64) : Table :=
  Table.changedBy { schema := { name := table, columns := [⟨column, .integer, true, none, false⟩] } }
    { inserts := [.ofList [(column, .int n)]] }

/-- `SELECT * FROM x CROSS JOIN y` -/
def crossed : Select where
  distinct := false
  items := [⟨.star none, none, "*"⟩]
  sources := [⟨.table "x", "x", .cross, .always⟩, ⟨.table "y", "y", .cross, .always⟩]
  filter := none
  groupBy := []
  having := none
  orderBy := []
  limit := none
  sql := ""

def pairs : Schema where
  name := "t"
  columns := [⟨"a", .integer, true, none, false⟩, ⟨"b", .integer, true, none, false⟩]

/-- `INSERT INTO t (b, a) SELECT * FROM x CROSS JOIN y` -/
def insertCrossed : Insert where
  table := "t"
  ignore := false
  columns := ["b", "a"]
  rows := .query crossed
  onDuplicate := []
  sql := ""

theorem insertCrossed_in_order :
    let store : Store := ⟨[oneNumber "x" "id" 1, oneNumber "y" "num" 2]⟩
    ∃ result proposed, crossed.run store ⟨{}, 0⟩ none = .ok result ∧ result.rows.map Row.values = [[.int 1, .int 2]] ∧
      insertCrossed.proposedRows (.ofStore store ⟨{}, 0⟩) pairs = .ok proposed ∧
      List.Forall₂ (AssignsInOrder ["b", "a"]) result.rows proposed := by
  intro store
  have built : ∀ t ∈ store.tables, t.Built ∧ DistinctNames t.schema.columns := by
    refine List.forall_mem_cons.mpr ⟨⟨.write _ (.create _), by decide⟩, List.forall_mem_singleton.mpr ?_⟩
    exact ⟨.write _ (.create _), by decide⟩
  have selected : crossed.run store ⟨{}, 0⟩ none =
      .ok ⟨["id", "num"], [⟨[⟨none, "id", .int 1, false⟩, ⟨none, "num", .int 2, false⟩]⟩]⟩ := rfl
  have source : insertCrossed.rows = .query crossed := rfl
  have resolved : insertCrossed.targetColumns pairs = .ok ["b", "a"] := rfl
  obtain ⟨proposed, run, ordered⟩ := query_assigns_in_order built (by decide) source resolved selected rfl
  exact ⟨_, proposed, selected, rfl, run, ordered⟩

/-- Of two columns of one name the value of the first goes to both targets. -/
theorem insertCrossed_twinColumns :
    let store : Store := ⟨[oneNumber "x" "id" 1, oneNumber "y" "id" 2]⟩
    ∃ selected proposed, crossed.run store ⟨{}, 0⟩ none = .ok ⟨["id", "id"], [selected]⟩ ∧
      insertCrossed.proposedRows (.ofStore store ⟨{}, 0⟩) pairs = .ok [proposed] ∧
      insertCrossed.columns[1]? = some "a" ∧ selected.values[1]? = some (.int 2) ∧
      proposed.get? "a" = some (.int 1) ∧ proposed.get? "a" ≠ selected.values[1]? := by
  refine ⟨⟨[⟨none, "id", .int 1, false⟩, ⟨none, "id", .int 2, false⟩]⟩, _, rfl, rfl, rfl, rfl, rfl, fun same => ?_⟩
  have values : (1 : Int64) = 2 := Value.int.inj (Option.some.inj same)
  cases values

end Insert

end MiniSql
