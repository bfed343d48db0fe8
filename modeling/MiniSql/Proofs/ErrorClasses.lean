import MiniSql.Proofs.Atomicity
import MiniSql.Proofs.StatementFaults
import MiniSql.Proofs.YieldedStatements

namespace MiniSql

/-- An error is of one of the two classes. -/
theorem Error.isSyntax_eq_not (e : Error) : e.isSyntax = !e.isRuntime := by
  cases e <;> rfl

/-- The statement that is named first stays. -/
theorem Failure.inStatement_named {f : Failure} {sql : String} (named : f.statement = some sql) (other : String) :
    f.inStatement other = f := by
  obtain ⟨cause, statement⟩ := f
  cases named
  rfl

namespace Engine
variable {e : Engine} {sql : String} {failure : Failure}

theorem execute_rejected {cause : Error} (e : Engine) (rejected : Statement.parse sql = .error cause) :
    e.execute sql = (.error ⟨cause, some sql⟩, e) := by
  unfold execute
  rw [rejected]
  rfl

theorem run_failed {s : Statement} (failed : (e.run s).1 = .error failure) :
    ∃ cause, (steps e.setting s e.store).1 = .error cause ∧ failure = ⟨cause, some s.sql⟩ := by
  rw [run_fst] at failed
  cases result : (steps e.setting s e.store).1 with
  | ok r =>
    rw [result] at failed
    cases failed
  | error cause =>
    rw [result] at failed
    cases failed
    exact ⟨cause, rfl, rfl⟩

/-- A text that is no statement fails as malformed, under the text itself. -/
theorem execute_of_rejected {cause : Error} (rejected : Statement.parse sql = .error cause)
    (failed : (e.execute sql).1 = .error failure) :
    failure = ⟨cause, some sql⟩ ∧ failure.cause.isSyntax = true := by
  rw [execute_rejected e rejected] at failed
  cases failed
  exact ⟨rfl, Statement.parse_isSyntax rejected⟩

/-- A statement that is refused fails at run time, under its own text. -/
theorem execute_of_parsed {s : Statement} (parsed : Statement.parse sql = .ok s)
    (failed : (e.execute sql).1 = .error failure) :
    failure.statement = some s.sql ∧ failure.cause.isRuntime = true := by
  rw [execute_parsed e parsed] at failed
  obtain ⟨cause, refused, rfl⟩ := run_failed failed
  exact ⟨rfl, steps_failsAtRun e.setting s e.store cause refused⟩

/-- Every failure names one statement, and naming another changes nothing. It is a syntax error exactly if the text
is no statement, and then names the text; it is a runtime error exactly if the text is one that is refused, and then
names the text of that statement. So exactly one of the two holds. -/
theorem execute_error_classified (failed : (e.execute sql).1 = .error failure) :
    (∃ text, failure.statement = some text) ∧ (∀ other, failure.inStatement other = failure) ∧
    (failure.cause.isSyntax = true ↔ ∃ cause, Statement.parse sql = .error cause) ∧
    (∀ cause, Statement.parse sql = .error cause → failure = ⟨cause, some sql⟩) ∧
    (failure.cause.isRuntime = true ↔ ∃ s, Statement.parse sql = .ok s) ∧
    (∀ s, Statement.parse sql = .ok s → failure.statement = some s.sql) ∧
    (failure.cause.isSyntax = true ↔ failure.cause.isRuntime = false) := by
  have classes := failure.cause.isSyntax_eq_not
  cases parsed : Statement.parse sql with
  | error cause =>
    obtain ⟨rfl, malformed⟩ := execute_of_rejected parsed failed
    rw [malformed] at classes
    have notRuntime : cause.isRuntime = false := by simpa using classes.symm
    refine ⟨⟨sql, rfl⟩, Failure.inStatement_named rfl, iff_of_true malformed ⟨cause, rfl⟩, ?_, ?_, nofun, ?_⟩
    · rintro _ ⟨⟩
      rfl
    · rw [notRuntime]
      exact iff_of_false Bool.false_ne_true nofun
    · exact iff_of_true malformed notRuntime
  | ok s =>
    obtain ⟨named, refused⟩ := execute_of_parsed parsed failed
    rw [refused] at classes
    refine ⟨⟨s.sql, named⟩, Failure.inStatement_named named, ?_, nofun, iff_of_true refused ⟨s, rfl⟩, ?_, ?_⟩
    · rw [classes]
      exact iff_of_false Bool.false_ne_true nofun
    · rintro _ ⟨⟩
      exact named
    · rw [classes, refused]
      simp

/-- A comma before FROM is one thing, an unknown column another. -/
theorem oneRow_classified :
    ∃ malformed refused, (oneRow.execute " SELECT a, FROM t").1 = .error malformed ∧
      malformed.statement = some " SELECT a, FROM t" ∧ malformed.cause.isSyntax = true ∧
      (oneRow.execute " SELECT b FROM t").1 = .error refused ∧
      refused.statement = some "SELECT b FROM t" ∧ refused.cause.isRuntime = true := by
  have rejected : (Statement.parse " SELECT a, FROM t").isOk = false := by decide +kernel
  have parsed : (Except.toOption (Statement.parse " SELECT b FROM t")).map Statement.sql = some "SELECT b FROM t" := by
    decide +kernel
  have failed : (oneRow.execute " SELECT b FROM t").1.isOk = false := by decide +kernel
  cases parse : Statement.parse " SELECT a, FROM t" with
  | ok s =>
    rw [parse] at rejected
    cases rejected
  | error cause =>
    have run : (oneRow.execute " SELECT a, FROM t").1 = .error ⟨cause, some " SELECT a, FROM t"⟩ := by
      rw [execute_rejected oneRow parse]
    cases second : Statement.parse " SELECT b FROM t" with
    | error cause =>
      rw [second] at parsed
      cases parsed
    | ok s =>
      rw [second] at parsed
      cases result : (oneRow.execute " SELECT b FROM t").1 with
      | ok r =>
        rw [result] at failed
        cases failed
      | error refused =>
        obtain ⟨_, _, isSyntax, _⟩ := execute_error_classified run
        obtain ⟨_, _, _, _, isRuntime, named, _⟩ := execute_error_classified result
        refine ⟨_, refused, run, rfl, isSyntax.mpr ⟨cause, parse⟩, rfl, ?_, isRuntime.mpr ⟨s, second⟩⟩
        exact (named s second).trans parsed

end Engine

end MiniSql
