import MiniSql.Proofs.BuiltTable
import MiniSql.Proofs.InsertKeys
import MiniSql.Engine

namespace MiniSql

namespace Column

/-- A number in an auto-increment column of another type, which the store is to convert. -/
def Converts (c : Column) (v : Value) : Prop :=
  c.autoIncrement = true ∧ c.type ≠ .integer ∧ ∃ i, v = .int i

/-- The column has the numbers that come to stand in it as they are. -/
def CountsExactly (c : Column) : Prop :=
  c.autoIncrement = true → c.type = .integer

/-- A value in the form the column keeps it, or a number in an auto-increment column. -/
def Stages (c : Column) (v : Value) : Prop :=
  c.type.Holds v ∨ c.autoIncrement = true ∧ ∃ i, v = .int i

theorem Stages.cast {c : Column} {v : Value} (staged : c.Stages v) : c.type.cast v = v ∨ c.Converts v := by
  rcases staged with holds | ⟨auto, i, rfl⟩
  · exact .inl (DataType.cast_of_holds holds)
  · by_cases integer : c.type = .integer
    · rw [integer]
      exact .inl rfl
    · exact .inr ⟨auto, integer, i, rfl⟩

end Column

theorem Row.get?_cast {columns : List Column} {f : Column → Value} {name : String} (table : Option String)
    (kept : ∀ c ∈ columns, c.type.cast (f c) = f c ∨ c.Converts (f c))
    (exact : ∀ c ∈ columns, Text.sameName c.name name = true → c.CountsExactly) :
    (ofColumns none columns fun c => c.type.cast (f c)).get? name = (ofColumns table columns f).get? name := by
  rw [get?_ofColumns, get?_ofColumns]
  cases found : columns.find? fun c => Text.sameName c.name name with
  | none => rfl
  | some c =>
    have member := List.mem_of_find?_eq_some found
    rcases kept c member with same | ⟨auto, other, _⟩
    · exact congrArg some same
    · have same : Text.sameName c.name name = true := by simpa using List.find?_some found
      exact absurd (exact c member same auto) other

/-- A row of a plan has the columns of the table, and if it is new, values that may be staged in them. -/
def Row.Proposed (name : String) (columns : List Column) (id : Option Nat) (row : Row) : Prop :=
  row.Over (fun c v => id = none → c.Stages v) (some name) columns

namespace Insert
variable {i : Insert} {s : Store} {env : Env} {c : ChangeSet} {summary : Summary} {t : Table}

/-- The new rows of a plan have a value for each column, which is in the form the column keeps it or a
number in an auto-increment column. -/
theorem plan_stages (run : i.plan s env = .ok (c, summary)) (found : s.table? i.table = some t)
    (built : t.Built) (distinct : DistinctNames t.schema.columns) :
    ∃ final : InsertPlan, c = final.changes ∧ Lines t.schema.name final.staged t.rows ∧
      ∀ s ∈ final.staged, s.row.Proposed t.schema.name t.schema.columns s.id := by
  obtain ⟨t', proposed, final, found', staged, rfl⟩ := plan_eq_ok run
  cases Option.some.inj (found'.symm.trans found)
  have start : ∀ s ∈ (InsertPlan.start t.schema t.named).staged,
      s.row.Proposed t.schema.name t.schema.columns s.id := by
    intro s member
    rw [Table.start_staged] at member
    obtain ⟨r, inRows, rfl⟩ := List.mem_map.mp member
    obtain ⟨f, row⟩ := built.shaped distinct r inRows
    exact ⟨f, nofun, row ▸ Row.qualified_ofColumns ..⟩
  have lines := Outcome.foldlM_keeps (fun plan => Lines t.schema.name plan.staged t.rows) staged
    (Table.start_staged t ▸ Lines.start t.schema.name t.rows) fun _ _ _ _ old ran => by
      obtain ⟨_, _, _, step⟩ := stage_eq_ok.mp ran
      exact step.lines old
  refine ⟨final, rfl, lines, Outcome.foldlM_keeps
    (fun plan => ∀ s ∈ plan.staged, s.row.Proposed t.schema.name t.schema.columns s.id) staged start ?_⟩
  intro proposed _ plan plan' old ran
  obtain ⟨completed, _, complete, step⟩ := stage_eq_ok.mp ran
  have new : completed.Over Column.Stages none t.schema.columns :=
    completeRow_over distinct (fun stored => .inl (Column.stored_holds stored))
      (fun c _ auto i => .inr ⟨auto, i, rfl⟩) complete
  refine step.keepsById _ old ((new.mono fun _ _ stages _ => stages).qualified _) fun id _ _ before assigned => ?_
  exact Row.assign_over distinct (fun stored _ => .inl (Column.stored_holds stored)) before assigned

/-- Whatever INSERT can be planned on a table of the store, the store does it, and each row that the
plan has checked comes to be stored under the next identity with the same values, except that a number in
an auto-increment column of another type is converted. In all other columns the row that was checked
against the keys is the one that is stored. -/
theorem inserts_stored (run : i.plan s env = .ok (c, summary)) (found : s.table? i.table = some t)
    (built : t.Built) (distinct : DistinctNames t.schema.columns) :
    ∃ s' t', s.apply i.table c = .ok s' ∧ s'.table? i.table = some t' ∧ t'.schema = t.schema ∧
      ∀ n row, c.inserts[n]? = some row → ∃ f stored,
        row = .ofColumns t.schema.name t.schema.columns f ∧ t'.row? (t.nextId + n) = some stored ∧
        stored = .ofColumns none t.schema.columns (fun c => c.type.cast (f c)) ∧
        (∀ c ∈ t.schema.columns, c.type.cast (f c) = f c ∨ c.Converts (f c)) ∧
        ∀ key other, (∀ name ∈ key, ∀ c ∈ t.schema.columns, Text.sameName c.name name = true → c.CountsExactly) →
          sameKey stored other key = sameKey row other key := by
  obtain ⟨final, rfl, lines, laid⟩ := plan_stages run found built distinct
  have admitted : t.Admits final.changes := by
    refine lines.admits distinct built.numbered.ids (built.shaped distinct) fun s member => ?_
    obtain ⟨f, _, row⟩ := laid s member
    exact ⟨f, row⟩
  have after : (t.changedBy final.changes).Built := .write final.changes built
  have named : t.schema.name = i.table := Store.table?_name found
  refine ⟨s.put (t.changedBy final.changes), t.changedBy final.changes, ?_, ?_, rfl, fun n row added => ?_⟩
  · unfold Store.apply
    rw [Store.write_admitted found admitted]
  · exact named ▸ Store.table?_put_self s (t.changedBy final.changes)
  · obtain ⟨staged, inFinal, rfl⟩ := List.mem_map.mp (List.mem_of_getElem? added)
    obtain ⟨inPlan, new⟩ := List.mem_filter.mp inFinal
    obtain ⟨f, stages, row⟩ := laid staged inPlan
    have kept : ∀ c ∈ t.schema.columns, c.type.cast (f c) = f c ∨ c.Converts (f c) :=
      fun c member => (stages c member (Option.isNone_iff_eq_none.mp new)).cast
    have inRows : (t.nextId + n, t.stored staged.row) ∈ (t.changedBy final.changes).rows :=
      List.mem_append_right _ (List.mem_map.mpr ⟨(staged.row, n), List.mem_zipIdx_iff_getElem?.mpr added, rfl⟩)
    refine ⟨f, _, row, Table.row?_of_mem after.numbered.ids inRows, ?_, kept, fun key other exact => ?_⟩
    · rw [row, Table.stored_cast _ distinct]
    · rw [row, Table.stored_cast _ distinct]
      exact sameKey_congr fun name inKey => Row.get?_cast _ kept (exact name inKey)

/-- A table whose generated numbers are kept as texts. -/
def tags : Schema where
  name := "tags"
  columns := [⟨"id", .string, false, none, true⟩, ⟨"label", .string, true, some (.int 7), false⟩]
  primaryKey := ["id"]

/-- `INSERT INTO tags (id) VALUES (5)` -/
def insertTag : Insert where
  table := "tags"
  ignore := false
  columns := ["id"]
  rows := .values [[.literal (.int 5)]]
  onDuplicate := []
  sql := ""

theorem insertTag_stored :
    let s : Store := ⟨[{ schema := tags }]⟩
    ∃ c summary f, insertTag.plan s (.ofStore s ⟨{}, 0⟩) = .ok (c, summary) ∧
      c.inserts = [.ofColumns "tags" tags.columns f] ∧
      ∃ s' t', s.apply "tags" c = .ok s' ∧ s'.table? "tags" = some t' ∧
        t'.row? 0 = some (.ofColumns none tags.columns fun c => c.type.cast (f c)) := by
  intro s
  obtain ⟨⟨c, summary⟩, run⟩ : ∃ planned, insertTag.plan s (.ofStore s ⟨{}, 0⟩) = .ok planned := ⟨_, rfl⟩
  obtain ⟨s', t', applied, found, _, rows⟩ := inserts_stored run rfl (.create tags) (by decide)
  obtain ⟨row, only⟩ : ∃ row, c.inserts = [row] := by
    cases run
    exact ⟨_, rfl⟩
  obtain ⟨f, stored, rfl, reached, rfl, _⟩ := rows 0 row (by rw [only]; rfl)
  exact ⟨c, summary, f, run, only, s', t', applied, found, reached⟩

/-- The number is checked against the keys as a number and stored as a text, so that it is no duplicate
of itself. -/
theorem insertTag_twice :
    let s : Store := ⟨[{ schema := tags }]⟩
    ∃ c summary s' row stored, insertTag.plan s (.ofStore s ⟨{}, 0⟩) = .ok (c, summary) ∧ c.inserts = [row] ∧
      s.apply "tags" c = .ok s' ∧ s'.scan "tags" = .ok [(0, stored)] ∧
      row.get? "id" = some (.int 5) ∧ stored.get? "id" = some (.str "5") ∧ sameKey row stored tags.primaryKey = false ∧
      ∃ planned, insertTag.plan s' (.ofStore s' ⟨{}, 0⟩) = .ok planned := by
  refine ⟨_, _, _, _, _, rfl, rfl, rfl, rfl, rfl, rfl, ?_, _, rfl⟩
  decide +kernel

end Insert

end MiniSql
