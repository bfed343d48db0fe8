import MiniSql.Engine
import MiniSql.Proofs.Store

namespace MiniSql

/-- The table that a statement writes to. -/
def Statement.written? : Statement → Option String
  | .select _ => none
  | .update u => some u.table
  | .delete d => (Except.toOption d.target).map Prod.fst
  | .insert i => some i.table

namespace Engine

theorem change_atomic (table : String) (planned : Outcome (ChangeSet × Summary)) :
    (change table planned).Atomic := by
  refine (InPlace.ReadOnly.lift planned).bind_atomic fun (changes, summary) => ?_
  exact (Store.write_atomic table changes).bind fun _ _ => ⟨.summary summary, rfl⟩

/-- Everything that can fail in a statement comes before the first write. -/
theorem steps_atomic (setting : Setting) (statement : Statement) :
    (steps setting statement).Atomic := by
  refine InPlace.ReadOnly.bind_atomic (fun _ => rfl) fun store => ?_
  cases statement with
  | select q => exact (InPlace.ReadOnly.lift _).bind_atomic fun r => (InPlace.ReadOnly.pure _).atomic
  | update u => exact change_atomic u.table _
  | delete d => exact (InPlace.ReadOnly.lift d.target).bind_atomic fun (table, _) => change_atomic table _
  | insert i => exact change_atomic i.table _

theorem select_readOnly (setting : Setting) (q : Select) :
    (steps setting (.select q)).ReadOnly :=
  InPlace.ReadOnly.bind (fun _ => rfl) fun _ =>
    (InPlace.ReadOnly.lift _).bind fun _ => InPlace.ReadOnly.pure _

theorem change_others {table other : String} (planned : Outcome (ChangeSet × Summary)) (s : Store)
    (different : other ≠ table) : (change table planned s).2.table? other = s.table? other := by
  unfold change
  rw [InPlace.bind_apply, InPlace.lift_apply]
  cases planned with
  | error fault => rfl
  | ok r =>
    have others := Store.write_others r.1 s different
    simp only [InPlace.bind_apply]
    split <;> rename_i run <;> rw [run] at others <;> exact others

theorem steps_update (setting : Setting) (u : Update) (s : Store) :
    steps setting (.update u) s = change u.table (u.plan s (.ofStore s setting)) s := by
  unfold steps
  rw [InPlace.bind_apply, InPlace.get_apply]

theorem steps_insert (setting : Setting) (i : Insert) (s : Store) :
    steps setting (.insert i) s = change i.table (i.plan s (.ofStore s setting)) s := by
  unfold steps
  rw [InPlace.bind_apply, InPlace.get_apply]

theorem steps_delete (setting : Setting) (d : Delete) (s : Store) :
    steps setting (.delete d) s = match d.target with
      | .ok (table, _) => change table (d.plan s (.ofStore s setting)) s
      | .error fault => (.error fault, s) := by
  unfold steps
  rw [InPlace.bind_apply, InPlace.get_apply]
  simp only [InPlace.bind_apply, InPlace.lift_apply]
  cases d.target <;> rfl

theorem steps_others {statement : Statement} {table other : String} (setting : Setting) (s : Store)
    (written : statement.written? = some table) (different : other ≠ table) :
    (steps setting statement s).2.table? other = s.table? other := by
  cases statement with
  | select q => cases written
  | update u =>
    cases written
    rw [steps_update]
    exact change_others _ s different
  | insert i =>
    cases written
    rw [steps_insert]
    exact change_others _ s different
  | delete d =>
    rw [steps_delete]
    cases target : d.target with
    | error fault => rfl
    | ok r =>
      simp only [Statement.written?, target, Except.toOption, Option.map_some, Option.some.injEq] at written
      exact change_others _ s (written ▸ different)

theorem run_fst (e : Engine) (s : Statement) :
    (e.run s).1 = (steps e.setting s e.store).1.mapError fun cause => Failure.inStatement { cause } s.sql :=
  rfl

theorem run_snd (e : Engine) (s : Statement) :
    (e.run s).2 = { e with store := (steps e.setting s e.store).2 } := rfl

theorem execute_parsed {sql : String} {s : Statement} (e : Engine) (parsed : Statement.parse sql = .ok s) :
    e.execute sql = e.run s := by
  unfold execute
  rw [parsed]

/-- A statement that fails, or that only reads, leaves the whole engine as it was, and one that
writes leaves every other table as it was. A change of one table is likewise made in full when the
table has all the rows and columns it names, and otherwise not at all. -/
theorem execute_all_or_nothing (e : Engine) (sql : String) :
    (∀ failure, (e.execute sql).1 = .error failure → (e.execute sql).2 = e) ∧
    (∀ q, Statement.parse sql = .ok (.select q) → (e.execute sql).2 = e) ∧
    (∀ statement table, Statement.parse sql = .ok statement → statement.written? = some table →
      ∀ other ≠ table, (e.execute sql).2.store.table? other = e.store.table? other) ∧
    ∀ (s : Store) (name : String) (c : ChangeSet),
      (∀ t, s.table? name = some t → t.Admits c → Store.write name c s = (.ok (), s.put (t.changedBy c))) ∧
      ((∀ t, s.table? name = some t → ¬ t.Admits c) → ∃ fault, Store.write name c s = (.error fault, s)) ∧
      ∀ other ≠ name, (Store.write name c s).2.table? other = s.table? other := by
  refine ⟨fun failure failed => ?_, fun q parsed => ?_, fun statement table parsed written other different => ?_,
    fun s name c => ⟨fun t found admitted => Store.write_admitted found admitted, Store.write_refused,
      fun other different => Store.write_others c s different⟩⟩
  · cases parsed : Statement.parse sql with
    | error cause =>
      unfold execute
      rw [parsed]
    | ok statement =>
      rw [execute_parsed e parsed] at failed ⊢
      rw [run_fst] at failed
      rw [run_snd]
      cases result : (steps e.setting statement e.store).1 with
      | error cause => rw [steps_atomic e.setting statement e.store cause result]
      | ok r =>
        rw [result] at failed
        cases failed
  · rw [execute_parsed e parsed, run_snd, select_readOnly]
  · rw [execute_parsed e parsed, run_snd]
    exact steps_others e.setting e.store written different

/-- A table with one unique column and one row, under the usual settings. -/
def oneRow : Engine where
  store := ⟨[⟨⟨"t", [⟨"a", .integer, true, none, false⟩], [], [["a"]]⟩, [(0, ⟨[⟨none, "a", .int 1, false⟩]⟩)], 1⟩]⟩
  setting := ⟨{}, 0⟩

theorem oneRow_kept :
    (∃ failure, (oneRow.execute "INSERT INTO t VALUES (2), (3), (1)").1 = .error failure ∧
      (oneRow.execute "INSERT INTO t VALUES (2), (3), (1)").2 = oneRow) ∧
    (oneRow.execute "SELECT a FROM t").2 = oneRow ∧
    (oneRow.execute "DELETE FROM t").2.store.table? "u" = none ∧
    ∃ fault, Store.write "t" { updates := [(0, ⟨[⟨none, "b", .null, false⟩]⟩)] } oneRow.store =
      (.error fault, oneRow.store) := by
  refine ⟨?_, ?_, ?_, ?_⟩
  · have failed : (oneRow.execute "INSERT INTO t VALUES (2), (3), (1)").1.isOk = false := by decide +kernel
    cases run : (oneRow.execute "INSERT INTO t VALUES (2), (3), (1)").1 with
    | error failure => exact ⟨failure, rfl, (execute_all_or_nothing oneRow _).1 failure run⟩
    | ok r =>
      rw [run] at failed
      cases failed
  · have reads : (Except.toOption (Statement.parse "SELECT a FROM t")).map Statement.ctorIdx = some 0 := by
      decide +kernel
    cases parsed : Statement.parse "SELECT a FROM t" with
    | error cause =>
      rw [parsed] at reads
      cases reads
    | ok statement =>
      rw [parsed] at reads
      cases statement with
      | select q => exact (execute_all_or_nothing oneRow _).2.1 q parsed
      | update | delete | insert => cases reads
  · have writes : (Except.toOption (Statement.parse "DELETE FROM t")).bind Statement.written? = some "t" := by
      decide +kernel
    cases parsed : Statement.parse "DELETE FROM t" with
    | error cause =>
      rw [parsed] at writes
      cases writes
    | ok statement =>
      rw [parsed] at writes
      exact (execute_all_or_nothing oneRow _).2.2.1 statement "t" parsed writes "u" (by decide)
  · refine ((execute_all_or_nothing oneRow "").2.2.2 _ _ _).2.1 fun t found admitted => ?_
    cases found
    exact absurd (admitted.updates _ (List.mem_singleton_self _) "b" (by decide)) (by decide)

end Engine

end MiniSql
