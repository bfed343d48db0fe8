import MiniSql.Proofs.Atomicity

namespace MiniSql

theorem Delete.plan_eq_ok {d : Delete} {store : Store} {env : Env} {c : ChangeSet} {summary : Summary}
    (run : d.plan store env = .ok (c, summary)) : ∃ ids, c = { deletes := ids } := by
  obtain ⟨_, _, run⟩ := Outcome.bind_eq_ok.mp run
  obtain ⟨_, _, run⟩ := Outcome.bind_eq_ok.mp run
  obtain ⟨_, _, run⟩ := Outcome.bind_eq_ok.mp run
  cases Outcome.pure_eq_ok.mp run
  exact ⟨_, rfl⟩

/-- What a statement reports when it has changed a table. -/
def Engine.reported (e : Engine) (statement : Statement) : Option Summary :=
  match (e.run statement).1 with
  | .ok (.summary summary) => some summary
  | _ => none

theorem Engine.reported_eq_some {e : Engine} {statement : Statement} {summary : Summary} :
    e.reported statement = some summary ↔ (e.run statement).1 = .ok (.summary summary) := by
  unfold reported
  split
  · rename_i same
    rw [same]
    simp
  · rename_i other
    exact ⟨nofun, fun same => absurd same (other summary)⟩

/-- A statement that changes a table succeeds only if the table admits the change, which is then written. -/
theorem Engine.run_change_writes {s : Store} {setting : Setting} {statement : Statement} {name : String} {t : Table}
    {planned : Outcome (ChangeSet × Summary)} {summary : Summary}
    (steps : steps setting statement s = change name planned s) (found : s.table? name = some t)
    (run : ((Engine.mk s setting).run statement).1 = .ok (.summary summary)) :
    ∃ c, planned = .ok (c, summary) ∧ t.Admits c ∧
      ((Engine.mk s setting).run statement).2.store.table? name = some (t.changedBy c) := by
  rw [run_fst] at run
  rw [run_snd]
  simp only [steps] at run ⊢
  unfold change at run ⊢
  rw [InPlace.bind_apply, InPlace.lift_apply] at run ⊢
  cases planned with
  | error fault => cases run
  | ok r =>
    simp only [InPlace.bind_apply] at run ⊢
    by_cases admits : t.Admits r.1
    · rw [Store.write_admitted found admits] at run ⊢
      cases run
      exact ⟨r.1, rfl, admits, Store.table?_name found ▸ Store.table?_put_self s (t.changedBy r.1)⟩
    · have refused : ∀ other, s.table? name = some other → ¬ other.Admits r.1 :=
        fun other same => Option.some.inj (found.symm.trans same) ▸ admits
      obtain ⟨fault, written⟩ := Store.write_refused refused
      rw [written] at run
      cases run

/-- A property of tables that is kept by every change that a statement plans. -/
structure Kept (P : Table → Prop) : Prop where
  update : ∀ {u : Update} {s env c summary t}, u.plan s env = .ok (c, summary) →
    s.table? u.table = some t → P t → P (t.changedBy c)
  insert : ∀ {i : Insert} {s env c summary t}, i.plan s env = .ok (c, summary) →
    s.table? i.table = some t → P t → P (t.changedBy c)
  delete : ∀ {t : Table} (ids : List Nat), P t → P (t.changedBy { deletes := ids })

namespace Store
variable {P : Table → Prop} {s : Store}

/-- The tables of the given schemas, all without rows. -/
def created (schemas : List Schema) : Store :=
  schemas.foldl create {}

/-- The store after statements, each carried out under its own setting. -/
def after (s : Store) (statements : List (Setting × String)) : Store :=
  statements.foldl (fun s (setting, sql) => ((Engine.mk s setting).execute sql).2.store) s

theorem all_put {t : Table} (all : ∀ t ∈ s.tables, P t) (new : P t) : ∀ u ∈ (s.put t).tables, P u := by
  intro u member
  rcases mem_put member with rfl | old
  · exact new
  · exact all u old

theorem all_created {schemas : List Schema} (empty : ∀ schema ∈ schemas, P { schema := schema }) :
    ∀ t ∈ (created schemas).tables, P t := by
  suffices all : ∀ s : Store, (∀ t ∈ s.tables, P t) → ∀ t ∈ (schemas.foldl create s).tables, P t from
    all {} nofun
  induction schemas with
  | nil => exact fun s all => all
  | cons schema schemas ih =>
    rw [List.forall_mem_cons] at empty
    exact fun s all => ih empty.2 _ (all_put all empty.1)

theorem all_write {name : String} {c : ChangeSet} (all : ∀ t ∈ s.tables, P t)
    (changed : ∀ t, s.table? name = some t → P (t.changedBy c)) : ∀ t ∈ (write name c s).2.tables, P t := by
  by_cases admitted : ∃ t, s.table? name = some t ∧ t.Admits c
  · obtain ⟨t, found, admits⟩ := admitted
    rw [write_admitted found admits]
    exact all_put all (changed t found)
  · obtain ⟨fault, run⟩ := write_refused (s := s) (c := c)
      fun t found admits => admitted ⟨t, found, admits⟩
    rw [run]
    exact all

end Store

namespace Kept
variable {P : Table → Prop} {s : Store}

theorem change {table : String} {planned : Outcome (ChangeSet × Summary)} (all : ∀ t ∈ s.tables, P t)
    (changed : ∀ c summary, planned = .ok (c, summary) → ∀ t, s.table? table = some t → P (t.changedBy c)) :
    ∀ t ∈ (Engine.change table planned s).2.tables, P t := by
  unfold Engine.change
  rw [InPlace.bind_apply, InPlace.lift_apply]
  cases planned with
  | error fault => exact all
  | ok r =>
    have written := Store.all_write all (changed r.1 r.2 rfl)
    simp only [InPlace.bind_apply]
    split <;> rename_i run <;> rw [run] at written <;> exact written

/-- One statement leaves the property to all tables. -/
theorem steps (kept : Kept P) (setting : Setting) (statement : Statement) (all : ∀ t ∈ s.tables, P t) :
    ∀ t ∈ (Engine.steps setting statement s).2.tables, P t := by
  have table : ∀ {name t}, s.table? name = some t → P t :=
    fun found => all _ (List.mem_of_find?_eq_some found)
  cases statement with
  | select q =>
    rw [Engine.select_readOnly setting q s]
    exact all
  | update u =>
    rw [Engine.steps_update]
    exact change all fun c summary run t found => kept.update run found (table found)
  | insert i =>
    rw [Engine.steps_insert]
    exact change all fun c summary run t found => kept.insert run found (table found)
  | delete d =>
    rw [Engine.steps_delete]
    split
    · refine change all fun c summary run t found => ?_
      obtain ⟨ids, rfl⟩ := Delete.plan_eq_ok run
      exact kept.delete ids (table found)
    · exact all

theorem execute (kept : Kept P) {e : Engine} (sql : String) (all : ∀ t ∈ e.store.tables, P t) :
    ∀ t ∈ (e.execute sql).2.store.tables, P t := by
  cases parsed : Statement.parse sql with
  | error cause =>
    unfold Engine.execute
    rw [parsed]
    exact all
  | ok statement =>
    rw [Engine.execute_parsed e parsed, Engine.run_snd]
    exact kept.steps e.setting statement all

/-- So does any sequence of statements, some of which may fail. -/
theorem after (kept : Kept P) (statements : List (Setting × String)) (all : ∀ t ∈ s.tables, P t) :
    ∀ t ∈ (s.after statements).tables, P t := by
  induction statements generalizing s with
  | nil => exact all
  | cons statement statements ih => exact ih (kept.execute (e := ⟨s, statement.1⟩) statement.2 all)

end Kept

end MiniSql
