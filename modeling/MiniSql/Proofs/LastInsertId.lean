import MiniSql.Proofs.AddedRows
import MiniSql.Proofs.IdentityCounter
import MiniSql.Proofs.SharedColumns

namespace MiniSql

/-- A column that is replaced leaves those of other names as they are. -/
theorem Row.get?_replace {row : Row} {name other : String} (v : Value) (apart : Text.sameName name other = false) :
    (row.replace name v).get? other = row.get? other := by
  refine congrArg (Option.map Cell.value) (find?_updateFirst (fun _ => rfl) fun cell same => ?_)
  rw [← Bool.not_eq_true, Cell.answers_none]
  rintro ⟨named, _⟩
  rw [Text.sameName_congr same, apart] at named
  cases named

/-- Assignments to columns of other names leave a column as it is. -/
theorem Row.get?_assign {env : Env} {schema : Schema} {proposed : Option Row} {row final : Row} {name : String}
    {as : List Assignment} (others : ∀ a ∈ as, Text.sameName a.column.name name = false)
    (run : Row.assign env schema proposed row as = .ok final) : final.get? name = row.get? name := by
  induction as generalizing row with
  | nil =>
    cases run
    rfl
  | cons a as ih =>
    obtain ⟨first, rest⟩ := List.forall_mem_cons.mp others
    obtain ⟨c, target, run⟩ := Outcome.bind_eq_ok.mp run
    obtain ⟨_, _, run⟩ := Outcome.bind_eq_ok.mp run
    obtain ⟨stored, _, run⟩ := Outcome.bind_eq_ok.mp run
    have apart : Text.sameName c.name name = false :=
      (Text.sameName_congr (schema.sameName_of_target target) name).trans first
    rw [ih rest run, Row.get?_replace stored apart]

namespace Insert
variable {i : Insert} {env : Env} {schema : Schema} {candidate : Row} {c : Column} {p next final : InsertPlan}
  {turns before after : List Turn} {turn : Turn}

/-- A row of the plan that a candidate hits gets what the assignments make of it, and any other stays. -/
theorem Stages.keepsAt (step : Stages i env schema candidate p next) {place : Nat} {s : StagedRow}
    (found : p.staged[place]? = some s) (P : Row → Prop) (holds : P s.row)
    (kept : (conflict? schema.keys p.staged candidate).map Prod.fst = some place → ∀ row,
      Row.assign env schema (some candidate) s.row i.onDuplicate = .ok row → P row) :
    ∃ s', next.staged[place]? = some s' ∧ s'.id = s.id ∧ P s'.row := by
  cases step with
  | add =>
    have bound : place < p.staged.length := (List.getElem?_eq_some_iff.mp found).1
    exact ⟨s, (List.getElem?_append_left bound).trans found, rfl, holds⟩
  | @change hit _ current row conflict _ there assigned =>
    by_cases same : hit = place
    · subst same
      cases there.symm.trans found
      refine ⟨{ s with row, changed := true }, ?_, rfl, kept (congrArg (Option.map Prod.fst) conflict) row assigned⟩
      rw [List.getElem?_modify_eq, there]
      rfl
    · exact ⟨s, (List.getElem?_modify_ne _ _ same).trans found, rfl, holds⟩
  | same => exact ⟨s, found, rfl, holds⟩
  | ignored => exact ⟨s, found, rfl, holds⟩

namespace Turns

/-- What the assignments of all rows that hit a row of the plan keep holds of it in the end. -/
theorem keepsAt (taken : i.Turns env schema p turns final) {place : Nat} {s : StagedRow}
    (found : p.staged[place]? = some s) (P : Row → Prop) (holds : P s.row)
    (kept : ∀ turn ∈ turns, turn.place? schema = some place → ∀ row row', P row →
      Row.assign env schema (some turn.candidate) row i.onDuplicate = .ok row' → P row') :
    ∃ s', final.staged[place]? = some s' ∧ s'.id = s.id ∧ P s'.row := by
  induction taken generalizing s with
  | done => exact ⟨s, found, rfl, holds⟩
  | next _ step _ ih =>
    obtain ⟨first, rest⟩ := List.forall_mem_cons.mp kept
    obtain ⟨s', found', id, holds'⟩ := step.keepsAt found P holds fun hit row => first hit s.row row holds
    obtain ⟨s'', found'', id', holds''⟩ := ih found' holds' rest
    exact ⟨s'', found'', id'.trans id, holds''⟩

/-- The counter remembers the first identity that is generated. -/
theorem first_eq (only : schema.columns.filter Column.autoIncrement = [c]) (taken : i.Turns env schema p turns final) :
    final.auto.first = p.auto.first.or ((turns.find? (Turn.isGenerated c)).map (Turn.identity c)) := by
  induction taken with
  | done p => exact (Option.or_none).symm
  | @next p _ _ proposed row auto turns completed step _ ih =>
    have counted : auto = (p.auto.identify (c.proposedValue proposed)).2 := (completeRow_identity only completed).1
    rw [ih, step.auto_eq, List.find?_cons]
    show auto.first.or _ = _
    cases generated : Turn.isGenerated c ⟨proposed, row.qualified schema.name, p⟩ with
    | true =>
      rw [counted, AutoIncrement.identify_asked generated, Option.map_some, Turn.identity_generated generated]
      cases p.auto.first <;> rfl
    | false => rw [counted, AutoIncrement.identify_given generated]

/-- Generated identities do not decrease. -/
theorem generated_le (only : schema.columns.filter Column.autoIncrement = [c])
    (taken : i.Turns env schema p (before ++ turn :: after) final) (generated : turn.isGenerated c = true)
    {later : Turn} (member : later ∈ after) (alsoGenerated : later.isGenerated c = true) :
    turn.identity c ≤ later.identity c := by
  obtain ⟨between, rest, rfl⟩ := List.append_of_mem member
  rw [Turn.identity_generated generated, Turn.identity_generated alsoGenerated]
  obtain ⟨_, next, first, rest⟩ := taken.split
  exact Int64.le_trans (first.next_le only) (rest.split.1.next_le only)

end Turns

end Insert

/-- A row beyond those of `t` has a number in a column. -/
def Table.Gains (t t' : Table) (name : String) (n : Int64) : Prop :=
  ∃ r ∈ t'.rows, r.1 ∉ t.rows.map Prod.fst ∧ r.2.get? name = some (.int n)

theorem Table.not_gains {t t' : Table} {name : String} {n : Int64}
    (absent : ∀ r ∈ t'.rows, (r.2.get? name).map Value.toInt = some n → r.1 ∈ t.rows.map Prod.fst) :
    ¬ t.Gains t' name n := by
  rintro ⟨r, member, new, value⟩
  refine new (absent r member ?_)
  rw [value]
  rfl

namespace Insert
variable {i : Insert} {s : Store} {env : Env} {setting : Setting} {t : Table} {c : Column} {summary : Summary}
  {before after : List Turn} {turn : Turn} {final : InsertPlan} {n : Int64}

/-- The row of a turn without a conflict comes to be in the table under its identity, if no later update
of it sets that. -/
theorem Turns.gains (taken : i.Turns env t.schema (.start t.schema t.named) (before ++ turn :: after) final)
    (built : t.Built) (only : t.schema.columns.filter Column.autoIncrement = [c])
    (last : t.schema.lastColumn? c.name = some c) (integer : c.type = .integer) (new : turn.isNew t.schema = true)
    (kept : ∀ later ∈ after, later.place? t.schema = some turn.plan.staged.length →
      ∀ a ∈ i.onDuplicate, Text.sameName a.column.name c.name = false) :
    t.Gains (t.changedBy final.changes) c.name (turn.identity c) := by
  obtain ⟨_, next, first, rest⟩ := taken.split
  have identity : turn.candidate.get? c.name = some (.int (turn.identity c)) :=
    taken.get?_identity only last turn (List.mem_append_right before (List.mem_cons_self ..))
  obtain ⟨staged, there, id, value⟩ := rest.keepsAt (first.added new)
    (fun row => row.get? c.name = some (.int (turn.identity c))) identity
    fun later inAfter hit row row' old assigned => (Row.get?_assign (kept later inAfter hit) assigned).trans old
  have inserted : staged.row ∈ final.changes.inserts := by
    refine List.mem_map_of_mem (List.mem_filter.mpr ⟨List.mem_of_getElem? there, ?_⟩)
    rw [id]
    rfl
  obtain ⟨k, inRows⟩ := t.mem_changedBy_inserts inserted
  refine ⟨_, inRows, fun old => ?_, ?_⟩
  · obtain ⟨r, member, same⟩ := List.mem_map.mp old
    have below : r.1 < t.nextId := built.numbered.below r member
    have same : r.1 = t.nextId + k := same
    omega
  · rw [t.get?_stored, last, Option.map_some, Table.keptValue, value, integer]
    rfl

/-- The identity that an INSERT reports is the first that it has generated, and no other that it has
generated is smaller. The row that it is for may have been left out or have changed another one: if it
has met no conflict, which holds of all rows where conflicts are errors, and no later duplicate-key update
sets the column in it, the table has gained a row with that identity. -/
theorem reports_first (found : s.table? i.table = some t) (built : t.Built)
    (only : t.schema.columns.filter Column.autoIncrement = [c]) (last : t.schema.lastColumn? c.name = some c)
    (integer : c.type = .integer) (run : ((Engine.mk s setting).run (.insert i)).1 = .ok (.summary summary))
    (reported : summary.lastInsertId = some n) : ∃ t' before turn after final,
      ((Engine.mk s setting).run (.insert i)).2.store.table? i.table = some t' ∧
      i.proposedRows (.ofStore s setting) t.schema = .ok ((before ++ turn :: after).map Turn.proposed) ∧
      i.Turns (.ofStore s setting) t.schema (.start t.schema t.named) (before ++ turn :: after) final ∧
      turn.isGenerated c = true ∧ turn.identity c = n ∧ (∀ earlier ∈ before, earlier.isGenerated c = false) ∧
      (∀ later ∈ after, later.isGenerated c = true → n ≤ later.identity c) ∧
      (i.onDuplicate = [] → i.ignore = false → turn.isNew t.schema = true) ∧
      (turn.isNew t.schema = true → (∀ later ∈ after, later.place? t.schema = some turn.plan.staged.length →
        ∀ a ∈ i.onDuplicate, Text.sameName a.column.name c.name = false) → t.Gains t' c.name n) := by
  obtain ⟨turns, final, proposes, taken, rfl, _, left⟩ := run_turns found run
  have none : (InsertPlan.start t.schema t.named).auto.first = none := AutoIncrement.ofRows_first ..
  have first : (turns.find? (Turn.isGenerated c)).map (Turn.identity c) = some n := by
    have remembered := taken.first_eq only
    rw [none, Option.none_or] at remembered
    exact remembered.symm.trans reported
  obtain ⟨turn, firstGenerated, rfl⟩ := Option.map_eq_some_iff.mp first
  obtain ⟨generated, before, after, rfl, others⟩ := List.find?_eq_some_iff_append.mp firstGenerated
  refine ⟨_, before, turn, after, final, left, proposes, taken, generated, rfl, by simpa using others,
    fun later member => taken.generated_le only generated member, fun unwanted strict => ?_,
    taken.gains built only last integer⟩
  exact taken.fresh unwanted strict turn (List.mem_append_right before (List.mem_cons_self ..))

/-- Numbered names, of which the table has one. -/
def nameTable : Table :=
  Table.changedBy { schema := { name := "names", columns := [⟨"id", .integer, false, none, true⟩,
      ⟨"name", .string, true, none, false⟩], primaryKey := ["id"], uniqueKeys := [["name"]] } }
    { inserts := [.ofList [("id", .int 1), ("name", .str "a")]] }

/-- `INSERT INTO names VALUES (5, 'b'), (NULL, 'c'), (NULL, 'd')` -/
def addNames : Insert where
  table := "names"
  ignore := false
  columns := []
  rows := .values [[.literal (.int 5), .literal (.str "b")], [.literal .null, .literal (.str "c")],
    [.literal .null, .literal (.str "d")]]
  onDuplicate := []
  sql := ""

theorem addNames_reports : ∃ t',
    ((Engine.mk ⟨[nameTable]⟩ ⟨{}, 0⟩).run (.insert addNames)).2.store.table? "names" = some t' ∧
    nameTable.Gains t' "id" 6 := by
  have run : ((Engine.mk ⟨[nameTable]⟩ ⟨{}, 0⟩).run (.insert addNames)).1 = .ok (.summary ⟨3, 3, some 6⟩) :=
    Engine.reported_eq_some.mp (by decide +kernel)
  obtain ⟨t', _, turn, _, _, left, _, _, _, _, _, _, new, gains⟩ := reports_first (t := nameTable)
    (c := ⟨"id", .integer, false, none, true⟩) rfl (.write _ (.create _)) rfl rfl rfl run rfl
  exact ⟨t', left, gains (new rfl rfl) fun _ _ _ => nofun⟩

/-- `INSERT IGNORE INTO names (name) VALUES ('a')` -/
def ignoreName : Insert :=
  { addNames with ignore := true, columns := ["name"], rows := .values [[.literal (.str "a")]] }

/-- `INSERT INTO names (name) VALUES ('b'), ('b') ON DUPLICATE KEY UPDATE id = 10` -/
def renumberName : Insert :=
  { addNames with
    columns := ["name"]
    rows := .values [[.literal (.str "b")], [.literal (.str "b")]]
    onDuplicate := [⟨⟨none, "id"⟩, .literal (.int 10)⟩] }

/-- A table whose column of numbers has a namesake. -/
def namesakes : Table where
  schema := { name := "names", columns := [⟨"id", .integer, false, none, true⟩, ⟨"ID", .integer, true, none, false⟩,
    ⟨"name", .string, true, none, false⟩] }

/-- The identity that is reported may be that of a row that is ignored, it may be replaced before the row
is written, and another column of the name may hide it. -/
theorem reports_ungained :
    (∃ t', ((Engine.mk ⟨[nameTable]⟩ ⟨{}, 0⟩).run (.insert ignoreName)).1 = .ok (.summary ⟨0, 1, some 2⟩) ∧
      ((Engine.mk ⟨[nameTable]⟩ ⟨{}, 0⟩).run (.insert ignoreName)).2.store.table? "names" = some t' ∧
      ¬ nameTable.Gains t' "id" 2) ∧
    (∃ t', ((Engine.mk ⟨[nameTable]⟩ ⟨{}, 0⟩).run (.insert renumberName)).1 = .ok (.summary ⟨3, 2, some 2⟩) ∧
      ((Engine.mk ⟨[nameTable]⟩ ⟨{}, 0⟩).run (.insert renumberName)).2.store.table? "names" = some t' ∧
      ¬ nameTable.Gains t' "id" 2) ∧
    ∃ t', ((Engine.mk ⟨[namesakes]⟩ ⟨{}, 0⟩).run (.insert { ignoreName with ignore := false })).1 =
        .ok (.summary ⟨1, 1, some 1⟩) ∧
      ((Engine.mk ⟨[namesakes]⟩ ⟨{}, 0⟩).run (.insert { ignoreName with ignore := false })).2.store.table? "names" =
        some t' ∧
      ¬ namesakes.Gains t' "id" 1 := by
  refine ⟨⟨_, Engine.reported_eq_some.mp (by decide +kernel), rfl, ?_⟩,
    ⟨_, Engine.reported_eq_some.mp (by decide +kernel), rfl, ?_⟩,
    ⟨_, Engine.reported_eq_some.mp (by decide +kernel), rfl, ?_⟩⟩
  · exact Table.not_gains (by decide +kernel)
  · exact Table.not_gains (by decide +kernel)
  · exact Table.not_gains (by decide +kernel)

end Insert

end MiniSql
