import Mathlib.Data.List.Pairwise
import MiniSql.Proofs.SoundTable

namespace MiniSql

theorem Schema.findColumn?_of_target {s : Schema} {ref : ColumnRef} {c : Column} (run : s.target ref = .ok c) :
    s.findColumn? ref.name = some c := by
  unfold target at run
  simp only at run
  split at run
  · cases run
  · split at run
    · cases run
      assumption
    · cases run

theorem Schema.mem_of_target {s : Schema} {ref : ColumnRef} {c : Column} (run : s.target ref = .ok c) :
    c ∈ s.columns :=
  List.mem_of_find?_eq_some (findColumn?_of_target run)

theorem Schema.sameName_of_target {s : Schema} {ref : ColumnRef} {c : Column} (run : s.target ref = .ok c) :
    Text.sameName c.name ref.name = true := by
  simpa using List.find?_some (findColumn?_of_target run)

/-- Assignments leave in each column what the column admits, if it admits all that it comes to keep. -/
theorem Row.assign_among {admits : Column → Value → Prop} {env : Env} {schema : Schema} {proposed : Option Row}
    {table : Option String} {columns : List Column} {row final : Row} {as : List Assignment}
    (distinct : DistinctNames columns) (among : ∀ {ref c}, schema.target ref = .ok c → c ∈ columns)
    (stores : ∀ {c : Column} {config omitted v w}, c.stored config omitted v = .ok w → admits c w)
    (laid : row.Over admits table columns) (run : Row.assign env schema proposed row as = .ok final) :
    final.Over admits table columns := by
  induction as generalizing row with
  | nil =>
    cases run
    exact laid
  | cons a as ih =>
    obtain ⟨c, target, run⟩ := Outcome.bind_eq_ok.mp run
    obtain ⟨v, _, run⟩ := Outcome.bind_eq_ok.mp run
    obtain ⟨stored, store, run⟩ := Outcome.bind_eq_ok.mp run
    refine ih ?_ run
    obtain ⟨f, all, rfl⟩ := laid
    rw [replace_ofColumns table distinct]
    refine ⟨_, withValue_admits all fun d member same => ?_, rfl⟩
    rw [distinct.eq_of_sameName member (among target) same]
    exact stores store

theorem Row.assign_over {admits : Column → Value → Prop} {env : Env} {schema : Schema} {proposed : Option Row}
    {table : Option String} {row final : Row} {as : List Assignment} (distinct : DistinctNames schema.columns)
    (stores : ∀ {c : Column} {config omitted v w}, c.stored config omitted v = .ok w → admits c w)
    (laid : row.Over admits table schema.columns) (run : Row.assign env schema proposed row as = .ok final) :
    final.Over admits table schema.columns :=
  assign_among distinct schema.mem_of_target stores laid run

/-- Assignments leave in each column NULL or a value of its type. -/
theorem Row.assign_fits {env : Env} {schema : Schema} {proposed : Option Row} {table : Option String}
    {row final : Row} {as : List Assignment} (distinct : DistinctNames schema.columns)
    (fits : row.Fits table schema.columns) (run : Row.assign env schema proposed row as = .ok final) :
    final.Fits table schema.columns :=
  assign_over distinct Column.stored_holds fits run

namespace Table
variable {t : Table}

theorem row?_of_mem (ids : (t.rows.map Prod.fst).Nodup) {r : Nat × Row} (member : r ∈ t.rows) :
    t.row? r.1 = some r.2 := by
  unfold row?
  generalize t.rows = rows at ids member
  induction rows with
  | nil => cases member
  | cons first rows ih =>
    obtain ⟨apart, ids⟩ := List.nodup_cons.mp ids
    rcases List.mem_cons.mp member with rfl | inRest
    · exact List.lookup_cons_self
    · have different : (r.1 == first.1) = false :=
        beq_eq_false_iff_ne.mpr fun same => apart (same ▸ List.mem_map_of_mem inRest)
      rw [List.lookup_cons, different]
      exact ih ids inRest

theorem eq_of_id (ids : (t.rows.map Prod.fst).Nodup) {r : Nat × Row} {row : Row} (member : r ∈ t.rows)
    (other : (r.1, row) ∈ t.rows) : row = r.2 :=
  Option.some.inj ((row?_of_mem ids other).symm.trans (row?_of_mem ids member))

theorem Sound.unique_of_mem (sound : t.Sound) {key : List String} (inKeys : key ∈ t.schema.keys)
    {a b : Nat × Row} (first : a ∈ t.rows) (second : b ∈ t.rows) (apart : a.1 ≠ b.1) :
    sameKey a.2 b.2 key = false := by
  have symm : Std.Symm fun a b : Nat × Row => sameKey a.2 b.2 key = false :=
    ⟨fun a b different => (sameKey_comm b.2 a.2 key).trans different⟩
  exact (sound.unique key inKeys).forall first second fun same => apart (congrArg Prod.fst same)

end Table

namespace Update

/-- A row that an UPDATE makes of the row of its identity in a table. -/
def Makes (u : Update) (env : Env) (t : Table) (made : UpdatedRow) : Prop :=
  ∃ old, (made.id, old) ∈ t.rows ∧
    Row.assign env t.schema none (old.qualified t.schema.name) u.assignments = .ok made.row ∧
    made.changes = (old.qualified t.schema.name).changesFrom made.row

/-- An UPDATE is planned when its columns and its targets are found, its assignments succeed on these, and
the keys are kept. -/
theorem plan_iff {u : Update} {store : Store} {env : Env} {c : ChangeSet} {summary : Summary} {t : Table}
    (found : store.table? u.table = some t) : u.plan store env = .ok (c, summary) ↔
      (∀ a ∈ u.assignments, ∃ d, t.schema.target a.column = .ok d) ∧
      store.scanWithin env.setting.config u.table = .ok t.rows ∧ ∃ matched updated,
        targets env u.filter u.orderBy u.limit (t.rows.map fun r => (r.1, r.2.qualified t.schema.name)) = .ok matched ∧
        gather (u.updatedRow env t.schema) matched = .ok updated ∧
        (∀ made ∈ updated, checkKeys t.schema
          (finalRows updated (t.rows.map fun r => (r.1, r.2.qualified t.schema.name))) made = .ok ()) ∧
        c = { updates := updated.map fun made => (made.id, made.changes) } ∧
        summary = ⟨updated.length, matched.length, none⟩ := by
  rw [Store.table?_name found]
  constructor
  · intro run
    obtain ⟨_, same, run⟩ := Outcome.bind_eq_ok.mp run
    obtain ⟨_, known, run⟩ := Outcome.bind_eq_ok.mp run
    obtain ⟨rows, scanned, run⟩ := Outcome.bind_eq_ok.mp run
    obtain ⟨matched, targeted, run⟩ := Outcome.bind_eq_ok.mp run
    obtain ⟨updated, gathered, run⟩ := Outcome.bind_eq_ok.mp run
    obtain ⟨_, checked, run⟩ := Outcome.bind_eq_ok.mp run
    cases Outcome.pure_eq_ok.mp run
    cases (Store.table_eq_ok.mpr found).symm.trans same
    obtain ⟨_, found', rfl⟩ := scanWithin_eq_ok scanned
    cases Option.some.inj (found.symm.trans found')
    refine ⟨Outcome.forIn_eq_ok.mp known, scanned, matched, updated, targeted, gathered, fun made member => ?_, rfl, rfl⟩
    obtain ⟨_, ok⟩ := Outcome.forIn_eq_ok.mp checked made member
    exact ok
  · rintro ⟨known, scanned, matched, updated, targeted, gathered, checked, rfl, rfl⟩
    refine Outcome.bind_eq_ok.mpr ⟨t, Store.table_eq_ok.mpr found, ?_⟩
    refine Outcome.bind_eq_ok.mpr ⟨⟨⟩, Outcome.forIn_eq_ok.mpr known, ?_⟩
    refine Outcome.bind_eq_ok.mpr ⟨t.rows, scanned, Outcome.bind_eq_ok.mpr ⟨matched, targeted, ?_⟩⟩
    refine Outcome.bind_eq_ok.mpr ⟨updated, gathered, Outcome.bind_eq_ok.mpr ⟨⟨⟩, ?_, rfl⟩⟩
    exact Outcome.forIn_eq_ok.mpr fun made member => ⟨(), checked made member⟩

theorem updatedRow_eq_ok {u : Update} {env : Env} {schema : Schema} {target : Nat × Row} {made : List UpdatedRow} :
    u.updatedRow env schema target = .ok made ↔ ∃ row, Row.assign env schema none target.2 u.assignments = .ok row ∧
      made = if row == target.2 then [] else [⟨target.1, row, target.2.changesFrom row⟩] := by
  unfold updatedRow
  rw [Outcome.bind_eq_ok]
  refine exists_congr fun row => and_congr_right fun _ => ?_
  split <;> exact Outcome.pure_eq_ok.trans eq_comm

theorem plan_eq_ok {u : Update} {store : Store} {env : Env} {c : ChangeSet} {summary : Summary}
    (run : u.plan store env = .ok (c, summary)) : ∃ t updated,
      store.table? u.table = some t ∧ (∀ made ∈ updated, u.Makes env t made) ∧
      (∀ made ∈ updated, checkKeys t.schema
        (finalRows updated (t.rows.map fun r => (r.1, r.2.qualified t.schema.name))) made = .ok ()) ∧
      c = { updates := updated.map fun made => (made.id, made.changes) } := by
  obtain ⟨t, found, _⟩ := Outcome.bind_eq_ok.mp run
  rw [Store.table_eq_ok] at found
  obtain ⟨_, _, matched, updated, targeted, gathered, checked, same, _⟩ := (plan_iff found).mp run
  refine ⟨t, updated, found, fun made member => ?_, checked, same⟩
  obtain ⟨target, inMatched, mades, ok, inMades⟩ := mem_gather gathered member
  obtain ⟨⟨id, old⟩, inRows, rfl⟩ := List.mem_map.mp ((targets_subperm targeted).subset inMatched)
  obtain ⟨row, assigned, rfl⟩ := updatedRow_eq_ok.mp ok
  split at inMades
  · cases inMades
  · cases List.mem_singleton.mp inMades
    exact ⟨old, inRows, assigned, rfl⟩

/-- The row that a row of the table comes to be, as the keys are checked on it. -/
def finalRow (updated : List UpdatedRow) (name : String) (r : Nat × Row) : Row :=
  match updated.find? fun made => made.id = r.1 with
  | some made => made.row
  | none => r.2.qualified name

theorem finalRows_qualified (updated : List UpdatedRow) (name : String) (rows : List (Nat × Row)) :
    finalRows updated (rows.map fun r => (r.1, r.2.qualified name)) =
      rows.map fun r => (r.1, finalRow updated name r) := by
  unfold finalRows finalRow
  rw [List.map_map]
  refine List.map_congr_left fun r _ => ?_
  simp only [Function.comp_apply]
  cases updated.find? fun made => made.id = r.1 <;> rfl

/-- What becomes of one row: `f` are its values, `g` those that the assignments give it. The row that
is stored takes over the columns that change. -/
structure Effect (t : Table) (c : ChangeSet) (updated : List UpdatedRow) (r : Nat × Row)
    (f g : Column → Value) : Prop where
  old : ∀ c ∈ t.schema.columns, c.type.Holds (f c)
  new : ∀ c ∈ t.schema.columns, c.type.Holds (g c)
  before : r.2 = .ofColumns none t.schema.columns f
  final : finalRow updated t.schema.name r = .ofColumns t.schema.name t.schema.columns g
  stored : t.updated c r.1 r.2 =
    .ofColumns none t.schema.columns (overlay f g (changedColumns t.schema.columns f g))
  made : ∀ made ∈ updated, made.id = r.1 →
    made.row = .ofColumns t.schema.name t.schema.columns g ∧
    made.changes = .ofColumns none (changedColumns t.schema.columns f g) g
  kept : (∀ made ∈ updated, made.id ≠ r.1) → f = g

theorem overlay_same (f : Column → Value) (columns : List Column) (c : Column) :
    overlay f f columns c = f c := by
  unfold overlay
  split <;> rfl

theorem Makes.effect {u : Update} {env : Env} {t : Table} {updated : List UpdatedRow} (sound : t.Sound)
    (makes : ∀ made ∈ updated, u.Makes env t made) {r : Nat × Row} (member : r ∈ t.rows) :
    ∃ f g, Effect t { updates := updated.map fun made => (made.id, made.changes) } updated r f g := by
  have distinct := sound.distinct
  obtain ⟨f, old, before⟩ := sound.fits r member
  cases found : updated.find? fun made => made.id = r.1 with
  | none =>
    have absent : ∀ made ∈ updated, made.id ≠ r.1 := by simpa using List.find?_eq_none.mp found
    refine ⟨f, f, old, old, before, ?_, ?_, fun made inUpdated same => absurd same (absent made inUpdated),
      fun _ => rfl⟩
    · unfold finalRow
      rw [found, before]
      exact Row.qualified_ofColumns ..
    · rw [Table.updated_of_absent r.2 (by simpa using absent), before]
      exact Row.over_congr fun c _ => (overlay_same f _ c).symm
  | some first =>
    have same : first.id = r.1 := by simpa using List.find?_some found
    have inUpdated := List.mem_of_find?_eq_some found
    have qualified : r.2.qualified t.schema.name = .ofColumns t.schema.name t.schema.columns f :=
      before ▸ Row.qualified_ofColumns ..
    have assigned : ∀ made ∈ updated, made.id = r.1 →
        Row.assign env t.schema none (r.2.qualified t.schema.name) u.assignments = .ok made.row ∧
        made.changes = (r.2.qualified t.schema.name).changesFrom made.row := by
      intro made inUpdated same
      obtain ⟨row, inRows, assigned, changes⟩ := makes made inUpdated
      rw [same] at inRows
      rw [Table.eq_of_id sound.ids member inRows] at assigned changes
      exact ⟨assigned, changes⟩
    obtain ⟨g, new, firstRow⟩ := Row.assign_fits distinct ⟨f, old, qualified⟩ (assigned first inUpdated same).1
    have made : ∀ made ∈ updated, made.id = r.1 →
        made.row = .ofColumns t.schema.name t.schema.columns g ∧
        made.changes = .ofColumns none (changedColumns t.schema.columns f g) g := by
      intro made inMade ofId
      have sameRow : made.row = first.row := Except.ok.inj
        ((assigned made inMade ofId).1.symm.trans (assigned first inUpdated same).1)
      rw [(assigned made inMade ofId).2, sameRow, firstRow, qualified]
      exact ⟨rfl, Row.changesFrom_ofColumns _ distinct f g⟩
    refine ⟨f, g, old, new, before, ?_, ?_, made, fun absent => absurd same (absent first inUpdated)⟩
    · unfold finalRow
      rw [found]
      exact firstRow
    · refine Table.updated_of_all r.2 ⟨_, List.mem_map_of_mem inUpdated, same⟩ fun change inChanges ofId => ?_
      obtain ⟨other, inOther, rfl⟩ := List.mem_map.mp inChanges
      have changes := (made other inOther ofId).2
      simp only at ofId
      unfold Table.overwritten
      simp only [ofId, changes, Table.row?_of_mem sound.ids member, Option.getD_some, before]
      rw [Table.merge_ofColumns none distinct (changedColumns_subset _ f g),
        Table.stored_ofColumns none distinct fun c inColumns => overlay_holds (old c inColumns) (new c inColumns)]

end Update

end MiniSql
