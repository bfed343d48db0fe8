import Mathlib.Data.List.Nodup
import MiniSql.Mutation.Insert
import MiniSql.Proofs.UpdateKeys

namespace MiniSql

/-- The rows of a plan are those of the table, under their identities and as they were unless they
are marked, and then new ones. -/
inductive Lines (name : String) : List StagedRow → List (Nat × Row) → Prop
  | new {staged} (new : ∀ s ∈ staged, s.id = none) : Lines name staged []
  | old {s staged r rows} (id : s.id = some r.1) (kept : s.changed = false → s.row = r.2.qualified name)
      (rest : Lines name staged rows) : Lines name (s :: staged) (r :: rows)

namespace Lines
variable {name : String} {staged : List StagedRow} {rows : List (Nat × Row)}

theorem start (name : String) (rows : List (Nat × Row)) :
    Lines name (rows.map fun r => { id := some r.1, row := r.2.qualified name }) rows := by
  induction rows with
  | nil => exact .new nofun
  | cons r rows ih => exact .old rfl (fun _ => rfl) ih

theorem length_le (lines : Lines name staged rows) : rows.length ≤ staged.length := by
  induction lines with
  | new => exact Nat.zero_le _
  | old _ _ _ ih => exact Nat.succ_le_succ ih

theorem append (lines : Lines name staged rows) {s : StagedRow} (fresh : s.id = none) :
    Lines name (staged ++ [s]) rows := by
  induction lines with
  | new new => exact .new (List.forall_mem_append.mpr ⟨new, List.forall_mem_singleton.mpr fresh⟩)
  | old id kept _ ih => exact .old id kept ih

theorem modify (lines : Lines name staged rows) (place : Nat) (row : Row) :
    Lines name (staged.modify place fun s => { s with row, changed := true }) rows := by
  induction lines generalizing place with
  | @new staged new =>
    refine .new fun s member => ?_
    obtain ⟨n, bound, rfl⟩ := List.mem_iff_getElem.mp member
    rw [List.length_modify] at bound
    have old : (staged.get ⟨n, bound⟩).id = none := new _ (List.get_mem ..)
    rw [List.getElem_modify]
    split <;> exact old
  | old id kept rest ih =>
    cases place with
    | zero => exact .old id nofun rest
    | succ place => exact .old id kept (ih place)

theorem mem_ids (lines : Lines name staged rows) {s : StagedRow} {n : Nat} (member : s ∈ staged)
    (id : s.id = some n) : n ∈ rows.map Prod.fst := by
  induction lines with
  | new new =>
    rw [new s member] at id
    cases id
  | old id' _ _ ih =>
    rcases List.mem_cons.mp member with rfl | inRest
    · cases id'.symm.trans id
      exact List.mem_cons_self ..
    · exact List.mem_cons_of_mem _ (ih inRest)

/-- An identity belongs to one row of the plan. -/
theorem eq_of_id (lines : Lines name staged rows) (ids : (rows.map Prod.fst).Nodup) {a b : StagedRow}
    {n : Nat} (first : a ∈ staged) (second : b ∈ staged) (idA : a.id = some n) (idB : b.id = some n) : a = b := by
  induction lines with
  | new new =>
    rw [new a first] at idA
    cases idA
  | @old s staged r rows id _ rest ih =>
    obtain ⟨apart, ids⟩ := List.nodup_cons.mp ids
    rcases List.mem_cons.mp first with rfl | inRest <;> rcases List.mem_cons.mp second with rfl | alsoInRest
    · rfl
    · cases id.symm.trans idA
      exact absurd (rest.mem_ids alsoInRest idB) apart
    · cases id.symm.trans idB
      exact absurd (rest.mem_ids inRest idA) apart
    · exact ih ids inRest alsoInRest

theorem zip_row (lines : Lines name staged rows) {s : StagedRow} {r : Nat × Row}
    (member : (s, r) ∈ staged.zip rows) :
    s ∈ staged ∧ r ∈ rows ∧ s.id = some r.1 ∧ (s.changed = false → s.row = r.2.qualified name) := by
  induction lines with
  | new =>
    rw [List.zip_nil_right] at member
    cases member
  | old id kept _ ih =>
    rw [List.zip_cons_cons, List.mem_cons] at member
    rcases member with same | inRest
    · cases same
      exact ⟨List.mem_cons_self .., List.mem_cons_self .., id, kept⟩
    · obtain ⟨inStaged, inRows, facts⟩ := ih inRest
      exact ⟨List.mem_cons_of_mem _ inStaged, List.mem_cons_of_mem _ inRows, facts⟩

theorem zipIdx_eq_zip {α β : Type} (f : α → β) (as : List α) (first : Nat) :
    (as.zipIdx.map fun (a, n) => (first + n, f a)) = (List.range' first as.length).zip (as.map f) := by
  induction as generalizing first with
  | nil => rfl
  | cons a as ih =>
    rw [List.zipIdx_cons', List.map_cons, List.map_map, List.length_cons, List.range'_succ, List.map_cons,
      List.zip_cons_cons, ← ih]
    congr 1
    refine List.map_congr_left fun (a, n) _ => ?_
    show (first + (n + 1), f a) = (first + 1 + n, f a)
    rw [Nat.add_right_comm, Nat.add_assoc]

/-- Changed rows in their old places, and then the new rows, are the rows of the plan in order. -/
theorem rows_eq (lines : Lines name staged rows) (changed : Nat × Row → Row) (stored : Row → Row) (next : Nat)
    (same : ∀ p ∈ staged.zip rows, changed p.2 = stored p.1.row) :
    (rows.map fun r => (r.1, changed r)) ++
      (((staged.filter fun s => s.id.isNone).map StagedRow.row).zipIdx.map fun (row, n) => (next + n, stored row)) =
    (rows.map Prod.fst ++ List.range' next (staged.length - rows.length)).zip
      (staged.map fun s => stored s.row) := by
  induction lines with
  | @new staged new =>
    rw [List.filter_eq_self.mpr fun s member => by rw [new s member]; rfl, zipIdx_eq_zip, List.map_map,
      List.length_map]
    rfl
  | @old s staged r rows id _ _ ih =>
    rw [List.filter_cons_of_neg (by rw [id]; simp)]
    have head := same (s, r) (List.mem_cons_self ..)
    have rest := ih fun p member => same p (List.mem_cons_of_mem _ member)
    rw [List.map_cons, List.cons_append, rest, head, List.length_cons, List.length_cons, Nat.succ_sub_succ]
    rfl

end Lines

namespace Table
variable {t : Table}

/-- The table with its rows replaced in order by others, of which those beyond its own are new. -/
def withRows (t : Table) (rows : List Row) : Table :=
  { t with
    rows := (t.rows.map Prod.fst ++ List.range' t.nextId (rows.length - t.rows.length)).zip rows
    nextId := t.nextId + (rows.length - t.rows.length) }

theorem withRows_ids {rows : List Row} (longer : t.rows.length ≤ rows.length) :
    (t.withRows rows).rows.map Prod.fst =
      t.rows.map Prod.fst ++ List.range' t.nextId (rows.length - t.rows.length) := by
  refine List.map_fst_zip ?_
  rw [List.length_append, List.length_map, List.length_range']
  omega

theorem withRows_values {rows : List Row} (longer : t.rows.length ≤ rows.length) :
    (t.withRows rows).rows.map Prod.snd = rows := by
  refine List.map_snd_zip ?_
  rw [List.length_append, List.length_map, List.length_range']
  omega

theorem Fitting.withRows {rows : List Row} (fitting : t.Fitting) (longer : t.rows.length ≤ rows.length)
    (fits : ∀ row ∈ rows, row.Fits none t.schema.columns) : (t.withRows rows).Fitting := by
  have below : ∀ id ∈ (t.withRows rows).rows.map Prod.fst, id < (t.withRows rows).nextId := by
    intro id member
    rw [withRows_ids longer, List.mem_append] at member
    show id < t.nextId + (rows.length - t.rows.length)
    rcases member with old | new
    · obtain ⟨r, inRows, rfl⟩ := List.mem_map.mp old
      have bound := fitting.below r inRows
      omega
    · have bounds := List.mem_range'_1.mp new
      omega
  refine ⟨fitting.distinct, ?_, fun r member => below r.1 (List.mem_map_of_mem member), fun r member => ?_⟩
  · rw [withRows_ids longer, List.nodup_append]
    refine ⟨fitting.ids, List.nodup_range', fun a old b new same => ?_⟩
    obtain ⟨r, inRows, rfl⟩ := List.mem_map.mp old
    have bound := fitting.below r inRows
    have bounds := List.mem_range'_1.mp new
    omega
  · have inValues : r.2 ∈ (t.withRows rows).rows.map Prod.snd := List.mem_map_of_mem member
    rw [withRows_values longer] at inValues
    exact fits r.2 inValues

theorem Sound.withRows {rows : List Row} (sound : t.Sound) (longer : t.rows.length ≤ rows.length)
    (fits : ∀ row ∈ rows, row.Fits none t.schema.columns)
    (unique : ∀ key ∈ t.schema.keys, rows.Pairwise fun a b => sameKey a b key = false) :
    (t.withRows rows).Sound := by
  refine ⟨sound.toFitting.withRows longer fits, sound.keyed, fun key inKeys => ?_⟩
  have values := unique key inKeys
  rw [← withRows_values longer, List.pairwise_map] at values
  exact values

/-- Rows of a plan for the table, all of which fit. -/
structure Staged (t : Table) (staged : List StagedRow) : Prop where
  lines : Lines t.schema.name staged t.rows
  fits : ∀ s ∈ staged, s.row.Fits (some t.schema.name) t.schema.columns

/-- The rows of a plan as the table is to keep them. -/
def storedRows (t : Table) (staged : List StagedRow) : List Row :=
  staged.map fun s => t.stored s.row

theorem Staged.length_le {staged : List StagedRow} (planned : t.Staged staged) :
    t.rows.length ≤ (t.storedRows staged).length := by
  unfold storedRows
  rw [List.length_map]
  exact planned.lines.length_le

end Table

theorem InsertPlan.mem_updates {plan : InsertPlan} {u : Nat × Row} :
    u ∈ plan.changes.updates ↔ ∃ s ∈ plan.staged, s.changed = true ∧ s.id = some u.1 ∧ s.row = u.2 := by
  unfold changes
  rw [List.mem_filterMap]
  refine exists_congr fun s => and_congr_right fun _ => ?_
  obtain ⟨id, row, changed⟩ := s
  obtain ⟨n, new⟩ := u
  cases changed <;> cases id <;> simp

/-- A table admits the changes of a plan with rows of its columns. -/
theorem Lines.admits {t : Table} {plan : InsertPlan} {name : String} (lines : Lines name plan.staged t.rows)
    (distinct : DistinctNames t.schema.columns) (ids : (t.rows.map Prod.fst).Nodup)
    (old : ∀ r ∈ t.rows, ∃ f, r.2 = .ofColumns none t.schema.columns f)
    (new : ∀ s ∈ plan.staged, ∃ f, s.row = .ofColumns (some name) t.schema.columns f) :
    t.Admits plan.changes where
  ids := by
    intro id member
    have none : plan.changes.deletes = [] := rfl
    rw [none, List.append_nil] at member
    obtain ⟨u, inUpdates, rfl⟩ := List.mem_map.mp member
    obtain ⟨s, inPlan, _, sId, _⟩ := InsertPlan.mem_updates.mp inUpdates
    obtain ⟨r, inRows, same⟩ := List.mem_map.mp (lines.mem_ids inPlan sId)
    rw [← same, Table.row?_of_mem ids inRows]
    rfl
  inserts := by
    intro row member
    obtain ⟨s, inFilter, rfl⟩ := List.mem_map.mp member
    obtain ⟨f, row⟩ := new s (List.mem_filter.mp inFilter).1
    rw [row]
    exact Table.knows_ofColumns (List.Subset.refl _)
  updates := by
    intro u member
    obtain ⟨s, inPlan, _, sId, sRow⟩ := InsertPlan.mem_updates.mp member
    obtain ⟨r, inRows, same⟩ := List.mem_map.mp (lines.mem_ids inPlan sId)
    obtain ⟨f, before⟩ := old r inRows
    obtain ⟨g, row⟩ := new s inPlan
    rw [← same, Table.row?_of_mem ids inRows, Option.getD_some, before, ← sRow, row,
      Table.merge_full _ distinct f g]
    exact Table.knows_ofColumns (List.Subset.refl _)

namespace Lines
variable {t : Table} {plan : InsertPlan}

/-- A row of the table that the plan changes is replaced by that of the plan. -/
theorem updated_eq (lines : Lines t.schema.name plan.staged t.rows) (ids : (t.rows.map Prod.fst).Nodup)
    (kept : ∀ r ∈ t.rows, t.stored (r.2.qualified t.schema.name) = r.2)
    (full : ∀ r ∈ t.rows, ∀ s ∈ plan.staged, t.stored (Table.merge r.2 s.row) = t.stored s.row) {s : StagedRow}
    {r : Nat × Row} (member : (s, r) ∈ plan.staged.zip t.rows) :
    t.updated plan.changes r.1 r.2 = t.stored s.row := by
  obtain ⟨inStaged, inRows, id, unchanged⟩ := lines.zip_row member
  have only : ∀ u ∈ plan.changes.updates, u.1 = r.1 → s.changed = true ∧ u.2 = s.row := by
    intro u inUpdates same
    obtain ⟨other, inPlan, changed, otherId, row⟩ := InsertPlan.mem_updates.mp inUpdates
    obtain rfl := lines.eq_of_id ids inStaged inPlan id (same ▸ otherId)
    exact ⟨changed, row.symm⟩
  cases changed : s.changed with
  | false =>
    rw [unchanged changed, kept r inRows]
    refine Table.updated_of_absent r.2 fun u inUpdates same => ?_
    rw [(only u inUpdates same).1] at changed
    cases changed
  | true =>
    refine Table.updated_of_all r.2 ⟨(r.1, s.row), InsertPlan.mem_updates.mpr ⟨s, inStaged, changed, id, rfl⟩, rfl⟩ ?_
    intro u inUpdates same
    unfold Table.overwritten
    rw [same, Table.row?_of_mem ids inRows, Option.getD_some, (only u inUpdates same).2, full r inRows s inStaged]

/-- Writing a plan to its table leaves the rows of the plan there. -/
theorem changedBy_eq (lines : Lines t.schema.name plan.staged t.rows) (ids : (t.rows.map Prod.fst).Nodup)
    (kept : ∀ r ∈ t.rows, t.stored (r.2.qualified t.schema.name) = r.2)
    (full : ∀ r ∈ t.rows, ∀ s ∈ plan.staged, t.stored (Table.merge r.2 s.row) = t.stored s.row) :
    t.changedBy plan.changes = t.withRows (t.storedRows plan.staged) := by
  have same := lines.rows_eq (fun r => t.updated plan.changes r.1 r.2) t.stored t.nextId
    fun (s, r) member => lines.updated_eq ids kept full member
  have added : plan.changes.inserts.length = (t.storedRows plan.staged).length - t.rows.length := by
    have lengths := congrArg List.length same
    have longer := lines.length_le
    simp only [List.length_append, List.length_map, List.length_zipIdx, List.length_zip,
      List.length_range'] at lengths
    unfold InsertPlan.changes Table.storedRows
    rw [List.length_map, List.length_map]
    omega
  unfold Table.changedBy Table.withRows
  rw [added]
  congr 1
  have none : plan.changes.deletes = [] := rfl
  rw [none, List.filter_eq_self.mpr fun r _ => by simp]
  unfold Table.storedRows
  rw [List.length_map]
  exact same

end Lines

namespace Table.Staged
variable {t : Table} {plan : InsertPlan}

theorem changedBy_eq (planned : t.Staged plan.staged) (fitting : t.Fitting) :
    t.changedBy plan.changes = t.withRows (t.storedRows plan.staged) := by
  have distinct := fitting.distinct
  refine planned.lines.changedBy_eq fitting.ids (fun r inRows => ?_) fun r inRows s inStaged => ?_
  · exact Table.stored_qualified distinct (fitting.fits r inRows) t.schema.name
  · obtain ⟨f, _, before⟩ := fitting.fits r inRows
    obtain ⟨g, holds, row⟩ := planned.fits s inStaged
    rw [before, row, Table.merge_full _ distinct f g, Table.stored_ofColumns _ distinct holds,
      Table.stored_ofColumns _ distinct holds]

theorem admits (planned : t.Staged plan.staged) (fitting : t.Fitting) : t.Admits plan.changes := by
  refine planned.lines.admits fitting.distinct fitting.ids (fun r inRows => ?_) fun s inPlan => ?_
  · obtain ⟨f, _, row⟩ := fitting.fits r inRows
    exact ⟨f, row⟩
  · obtain ⟨g, _, row⟩ := planned.fits s inPlan
    exact ⟨g, row⟩

end Table.Staged

end MiniSql
