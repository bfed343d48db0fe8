import MiniSql.Proofs.TableWrite

namespace MiniSql

namespace Store

theorem table?_name {s : Store} {name : String} {t : Table} (found : s.table? name = some t) :
    t.schema.name = name := by
  simpa using List.find?_some found

theorem table_eq_ok {s : Store} {name : String} {t : Table} :
    s.table name = .ok t ↔ s.table? name = some t := by
  unfold table
  split <;> simp_all

theorem putAmong_self {ts : List Table} {name : String} {t : Table}
    (found : ts.find? (fun t => t.schema.name = name) = some t) : putAmong t ts = ts := by
  induction ts with
  | nil => cases found
  | cons other more ih =>
    rw [List.find?_cons] at found
    unfold putAmong
    split at found
    · cases found
      rw [if_pos rfl]
    · rename_i different
      have named : t.schema.name = name := by simpa using List.find?_some found
      have apart : ¬ other.schema.name = t.schema.name := by simpa [named] using different
      rw [if_neg apart, ih found]

/-- A table that is put back as it was found leaves the store as it is. -/
theorem put_self {s : Store} {name : String} {t : Table} (found : s.table? name = some t) :
    s.put t = s :=
  congrArg Store.mk (putAmong_self found)

theorem table?_put_self (s : Store) (t : Table) : (s.put t).table? t.schema.name = some t := by
  unfold put table?
  generalize s.tables = ts
  induction ts with
  | nil => simp [putAmong]
  | cons other more ih =>
    unfold putAmong
    split
    · simp
    · rename_i apart
      simpa [List.find?_cons, apart] using ih

theorem table?_put_of_ne (s : Store) {t : Table} {name : String} (different : t.schema.name ≠ name) :
    (s.put t).table? name = s.table? name := by
  unfold put table?
  generalize s.tables = ts
  induction ts with
  | nil => simp [putAmong, different]
  | cons other more ih =>
    unfold putAmong
    split
    · rename_i same
      simp [same, different]
    · rw [List.find?_cons, List.find?_cons, ih]

theorem mem_put {s : Store} {t u : Table} (member : u ∈ (s.put t).tables) :
    u = t ∨ u ∈ s.tables := by
  unfold put at member
  generalize s.tables = ts at member ⊢
  induction ts with
  | nil => simpa [putAmong] using member
  | cons other more ih =>
    unfold putAmong at member
    split at member
    · rcases List.mem_cons.mp member with same | member
      · exact Or.inl same
      · exact Or.inr (List.mem_cons_of_mem _ member)
    · rcases List.mem_cons.mp member with same | member
      · exact Or.inr (same ▸ List.mem_cons_self ..)
      · exact (ih member).imp_right (List.mem_cons_of_mem _)

end Store

namespace Store

theorem onTable_some {α : Type} {s : Store} {name : String} {t : Table} (steps : InPlace Table α)
    (found : s.table? name = some t) : onTable name steps s = ((steps t).1, s.put (steps t).2) := by
  unfold onTable
  rw [table_eq_ok.mpr found]
  rfl

theorem onTable_none {α : Type} {s : Store} {name : String} (steps : InPlace Table α)
    (missing : s.table? name = none) : onTable name steps s = (.error (.unknownTable name), s) := by
  unfold onTable table
  rw [missing]

theorem onTable_atomic {α : Type} {steps : InPlace Table α} (name : String) (atomic : steps.Atomic) :
    (onTable name steps).Atomic := by
  intro s fault failed
  cases found : s.table? name with
  | none => rw [onTable_none steps found]
  | some t =>
    rw [onTable_some steps found] at failed ⊢
    have same : (steps t).2 = t := atomic t fault failed
    rw [same, put_self found]

theorem write_atomic (name : String) (c : ChangeSet) : (write name c).Atomic :=
  onTable_atomic name (Table.write_atomic name c)

/-- Steps on one table leave the others as they are. -/
theorem onTable_others {α : Type} {name other : String} (steps : InPlace Table α) (s : Store)
    (keeps : ∀ t, (steps t).2.schema = t.schema) (different : other ≠ name) :
    (onTable name steps s).2.table? other = s.table? other := by
  cases found : s.table? name with
  | none => rw [onTable_none steps found]
  | some t =>
    rw [onTable_some steps found]
    refine table?_put_of_ne s ?_
    rw [keeps t, table?_name found]
    exact different.symm

theorem write_others {name other : String} (c : ChangeSet) (s : Store) (different : other ≠ name) :
    (write name c s).2.table? other = s.table? other :=
  onTable_others (Table.write name c) s (Table.write_schema name c) different

theorem write_admitted {s : Store} {name : String} {t : Table} {c : ChangeSet}
    (found : s.table? name = some t) (admitted : t.Admits c) :
    write name c s = (.ok (), s.put (t.changedBy c)) := by
  unfold write
  rw [onTable_some _ found, Table.write_admitted name admitted]

theorem write_refused {s : Store} {name : String} {c : ChangeSet}
    (refused : ∀ t, s.table? name = some t → ¬ t.Admits c) :
    ∃ fault, write name c s = (.error fault, s) := by
  unfold write
  cases found : s.table? name with
  | none => exact ⟨_, onTable_none _ found⟩
  | some t =>
    obtain ⟨fault, run⟩ := Table.write_refused name (refused t found)
    exact ⟨fault, by rw [onTable_some _ found, run, put_self found]⟩

end Store

end MiniSql
