import MiniSql.Proofs.Outcome

namespace MiniSql

namespace Table

/-- The schema has a column of each name in the row. -/
def Knows (t : Table) (row : Row) : Prop :=
  ∀ name ∈ row.names, (t.schema.findColumn? name).isSome

theorem normalize_eq_ok {t : Table} {row stored : Row} :
    t.normalize row = .ok stored ↔ t.Knows row ∧ t.stored row = stored := by
  unfold normalize Knows
  split
  · rename_i name unknown
    refine iff_of_false Outcome.refuse_ne_ok ?_
    rintro ⟨known, _⟩
    have none := List.find?_some unknown
    have some := known name (List.mem_of_find?_eq_some unknown)
    rw [Option.isNone_iff_eq_none] at none
    rw [none] at some
    cases some
  · rename_i all
    rw [List.find?_eq_none] at all
    refine ⟨fun same => ⟨fun name member => ?_, Except.ok.inj same⟩, fun h => congrArg _ h.2⟩
    simpa [Option.isSome_iff_ne_none] using all name member

theorem normalize_ok {t : Table} {row : Row} (known : t.Knows row) :
    t.normalize row = .ok (t.stored row) :=
  normalize_eq_ok.mpr ⟨known, rfl⟩

/-- The row that an update puts in the place of the one with its identity. -/
def overwritten (t : Table) (u : Nat × Row) : Row :=
  t.stored (merge ((t.row? u.1).getD {}) u.2)

/-- What the table has in the row of an identity after a change. Of several updates the last counts. -/
def updated (t : Table) (c : ChangeSet) (id : Nat) (row : Row) : Row :=
  match (c.updates.filter fun u => u.1 = id).getLast? with
  | some u => t.overwritten u
  | none => row

/-- The table with all of a change: rows that are not deleted, with their updates, and then the new
ones under the identities that come next. -/
def changedBy (t : Table) (c : ChangeSet) : Table where
  schema := t.schema
  rows := (t.rows.filter fun (id, _) => id ∉ c.deletes).map (fun (id, row) => (id, t.updated c id row))
    ++ c.inserts.zipIdx.map fun (row, n) => (t.nextId + n, t.stored row)
  nextId := t.nextId + c.inserts.length

/-- A change names rows of the table only, and columns of its schema only. -/
structure Admits (t : Table) (c : ChangeSet) : Prop where
  ids : ∀ id ∈ c.updates.map Prod.fst ++ c.deletes, (t.row? id).isSome
  inserts : ∀ row ∈ c.inserts, t.Knows row
  updates : ∀ u ∈ c.updates, t.Knows (merge ((t.row? u.1).getD {}) u.2)

theorem update_eq_ok {t : Table} {u u' : Nat × Row} :
    (do return (u.1, ← t.normalize (merge ((t.row? u.1).getD {}) u.2)) : Outcome (Nat × Row)) = .ok u' ↔
      t.Knows (merge ((t.row? u.1).getD {}) u.2) ∧ (u.1, t.overwritten u) = u' := by
  rw [Outcome.bind_eq_ok]
  constructor
  · rintro ⟨row, normalized, same⟩
    obtain ⟨known, rfl⟩ := normalize_eq_ok.mp normalized
    exact ⟨known, Outcome.pure_eq_ok.mp same⟩
  · rintro ⟨known, rfl⟩
    exact ⟨_, normalize_ok known, rfl⟩

theorem check_eq_ok {t : Table} {name : String} {c : ChangeSet} {inserts : List Row}
    {updates : List (Nat × Row)} : t.check name c = .ok (inserts, updates) ↔
      t.Admits c ∧ c.inserts.map t.stored = inserts ∧
        c.updates.map (fun u => (u.1, t.overwritten u)) = updates := by
  unfold check
  split
  · rename_i id missing
    refine iff_of_false nofun ?_
    rintro ⟨admitted, _⟩
    have none := List.find?_some missing
    have some := admitted.ids id (List.mem_of_find?_eq_some missing)
    rw [Option.isNone_iff_eq_none] at none
    rw [none] at some
    cases some
  · rename_i present
    rw [List.find?_eq_none] at present
    constructor
    · intro run
      obtain ⟨added, insertRun, run⟩ := Outcome.bind_eq_ok.mp run
      obtain ⟨changed, updateRun, run⟩ := Outcome.bind_eq_ok.mp run
      cases Outcome.pure_eq_ok.mp run
      have admitted : t.Admits c := by
        refine ⟨fun id member => ?_, fun row member => ?_, fun u member => ?_⟩
        · simpa [Option.isSome_iff_ne_none] using present id member
        · obtain ⟨_, _, ok⟩ := Outcome.ok_of_mapM insertRun member
          exact (normalize_eq_ok.mp ok).1
        · obtain ⟨_, _, ok⟩ := Outcome.ok_of_mapM updateRun member
          exact (update_eq_ok.mp ok).1
      rw [Outcome.mapM_ok fun row member => normalize_ok (admitted.inserts row member)] at insertRun
      rw [Outcome.mapM_ok fun u member => update_eq_ok.mpr ⟨admitted.updates u member, rfl⟩] at updateRun
      exact ⟨admitted, Except.ok.inj insertRun, Except.ok.inj updateRun⟩
    · rintro ⟨admitted, rfl, rfl⟩
      refine Outcome.bind_eq_ok.mpr ⟨_, Outcome.mapM_ok fun row member =>
        normalize_ok (admitted.inserts row member), ?_⟩
      exact Outcome.bind_eq_ok.mpr ⟨_, Outcome.mapM_ok fun u member =>
        update_eq_ok.mpr ⟨admitted.updates u member, rfl⟩, rfl⟩

theorem replaceRows_eq (t : Table) (updates : List (Nat × Row)) :
    updates.foldl (fun t u => t.replaceRow u.1 u.2) t =
      { t with rows := t.rows.map fun (id, row) =>
          (id, (((updates.filter fun u => u.1 = id).getLast?).map Prod.snd).getD row) } := by
  induction updates generalizing t with
  | nil => simp
  | cons u more ih =>
    rw [List.foldl_cons, ih]
    simp only [replaceRow, List.map_map]
    congr 1
    refine List.map_congr_left fun (id, row) _ => ?_
    obtain ⟨changed, new⟩ := u
    simp only [Function.comp_apply, List.filter_cons]
    rcases eq_or_ne id changed with rfl | apart
    · simp only [decide_true, if_true, List.getLast?_cons]
      cases (more.filter fun u => u.1 = id).getLast? <;> rfl
    · simp only [apart, apart.symm, decide_false, if_false, Bool.false_eq_true]

theorem removeRows_eq (t : Table) (ids : List Nat) :
    ids.foldl (fun t id => t.removeRow id) t =
      { t with rows := t.rows.filter fun (id, _) => id ∉ ids } := by
  induction ids generalizing t with
  | nil => simp
  | cons id more ih =>
    rw [List.foldl_cons, ih]
    simp only [removeRow, List.filter_filter, List.mem_cons, not_or]
    congr 1
    refine List.filter_congr fun (other, _) _ => ?_
    simp [Bool.and_comm]

theorem appendRows_eq (t : Table) (rows : List Row) :
    rows.foldl (fun t row => t.append row) t =
      { t with
        rows := t.rows ++ rows.zipIdx.map fun (row, n) => (t.nextId + n, row)
        nextId := t.nextId + rows.length } := by
  induction rows generalizing t with
  | nil => simp
  | cons row more ih =>
    rw [List.foldl_cons, ih]
    simp only [append, List.append_assoc, List.length_cons, List.zipIdx_cons, List.map_cons,
      List.singleton_append, Nat.add_zero, Nat.zero_add, List.zipIdx_succ, List.map_map]
    congr 1
    · congr 2
      refine List.map_congr_left fun (row, n) _ => ?_
      simp [Nat.add_assoc, Nat.add_comm 1]
    · omega

theorem updated_eq (t : Table) (c : ChangeSet) (id : Nat) (row : Row) :
    ((((c.updates.map fun u => (u.1, t.overwritten u)).filter fun u => u.1 = id).getLast?).map
      Prod.snd).getD row = t.updated c id row := by
  unfold updated
  rw [List.filter_map, List.getLast?_map]
  have same : ((fun u : Nat × Row => decide (u.1 = id)) ∘ fun u => (u.1, t.overwritten u)) =
      fun u => decide (u.1 = id) := rfl
  rw [same]
  cases (c.updates.filter fun u => u.1 = id).getLast? <;> rfl

/-- The change of a table is the rows put in the places of old ones, then those taken away, then the new ones. -/
theorem changedBy_eq_foldl (t : Table) (c : ChangeSet) : t.changedBy c =
    (c.inserts.map t.stored).foldl append (c.deletes.foldl removeRow
      ((c.updates.map fun u => (u.1, t.overwritten u)).foldl (fun t u => t.replaceRow u.1 u.2) t)) := by
  rw [replaceRows_eq, removeRows_eq, appendRows_eq]
  simp only [updated_eq]
  simp only [List.filter_map, List.length_map, List.zipIdx_map, List.map_map]
  rfl

/-- A write does all of a change that the table admits. -/
theorem write_admitted {t : Table} {c : ChangeSet} (name : String) (admitted : t.Admits c) :
    write name c t = (.ok (), t.changedBy c) := by
  have checked : t.check name c = .ok (c.inserts.map t.stored, c.updates.map fun u => (u.1, t.overwritten u)) :=
    check_eq_ok.mpr ⟨admitted, rfl, rfl⟩
  unfold write
  rw [InPlace.bind_apply, InPlace.get_apply]
  simp only [InPlace.bind_apply, InPlace.lift_apply, checked, InPlace.forM_modify]
  rw [changedBy_eq_foldl]

/-- A write does nothing of a change that the table does not admit. -/
theorem write_refused {t : Table} {c : ChangeSet} (name : String) (refused : ¬ t.Admits c) :
    ∃ fault, write name c t = (.error fault, t) := by
  unfold write
  rw [InPlace.bind_apply, InPlace.get_apply]
  simp only [InPlace.bind_apply, InPlace.lift_apply]
  cases checked : t.check name c with
  | error fault => exact ⟨fault, rfl⟩
  | ok r => exact absurd (check_eq_ok.mp checked).1 refused

theorem write_schema (name : String) (c : ChangeSet) (t : Table) :
    (write name c t).2.schema = t.schema := by
  by_cases admitted : t.Admits c
  · rw [write_admitted name admitted]
    rfl
  · obtain ⟨_, run⟩ := write_refused name admitted
    rw [run]

theorem write_atomic (name : String) (c : ChangeSet) : (write name c).Atomic := by
  intro t fault failed
  by_cases admitted : t.Admits c
  · rw [write_admitted name admitted] at failed
    cases failed
  · obtain ⟨_, run⟩ := write_refused name admitted
    rw [run]

end Table

end MiniSql
