import MiniSql.Proofs.InsertKeys
import MiniSql.Proofs.SelfContained

namespace MiniSql

/-- Two plans with the same rows, however they came by them. -/
def SameRows (p q : InsertPlan) : Prop :=
  p.staged.map StagedRow.row = q.staged.map StagedRow.row

namespace Insert
variable {i : Insert} {env env' : Env} {schema : Schema} {p q p' : InsertPlan} {candidate : Row}

/-- Nothing in the assignments of `ON DUPLICATE KEY UPDATE` depends on tables or on the time. -/
def UpdatesPlainly (i : Insert) : Prop :=
  ∀ a ∈ i.onDuplicate, a.value.isSelfContained = true

theorem assign_congr {proposed : Option Row} {row : Row} {as : List Assignment} (agree : env.Agree env')
    (plain : ∀ a ∈ as, a.value.isSelfContained = true) :
    Row.assign env schema proposed row as = Row.assign env' schema proposed row as := by
  induction as generalizing row with
  | nil => rfl
  | cons a as ih =>
    rw [List.forall_mem_cons] at plain
    have rest : (fun row => Row.assign env schema proposed row as) = fun row => Row.assign env' schema proposed row as :=
      funext fun row => ih plain.2
    have config : env.setting.config = env'.setting.config := agree
    unfold Row.assign
    simp only [Expr.eval_congr agree a.value plain.1, config]
    refine congrArg _ (funext fun c => congrArg _ (funext fun v => congrArg _ (funext fun stored => ?_)))
    exact congrFun rest _

theorem conflict?_congr (keys : List (List String)) (same : SameRows p q) (row : Row) :
    conflict? keys p.staged row = conflict? keys q.staged row := by
  have places : ∀ staged : List StagedRow, conflict? keys staged row = keys.findSome? fun key =>
      ((staged.map StagedRow.row).findIdx? fun other => sameKey other row key).map fun place => (place, key) := by
    intro staged
    unfold conflict?
    simp only [List.findIdx?_map, Function.comp_def]
  rw [places, places, same]

theorem clash?_congr (keys : List (List String)) (same : SameRows p q) (place : Nat) (row : Row) :
    clash? keys p.staged place row = clash? keys q.staged place row := by
  have places : ∀ staged : List StagedRow, clash? keys staged place row = keys.find? fun key =>
      (staged.map StagedRow.row).zipIdx.any fun p => p.2 ≠ place && sameKey row p.1 key := by
    intro staged
    unfold clash?
    simp only [List.zipIdx_map, List.any_map]
    rfl
  rw [places, places, same]

theorem found_congr {place : Nat} {s : StagedRow} (same : SameRows p q) (found : p.staged[place]? = some s) :
    ∃ s', q.staged[place]? = some s' ∧ s'.row = s.row := by
  have rows := congrArg (fun rows => rows[place]?) same
  simp only [List.getElem?_map, found, Option.map_some] at rows
  exact Option.map_eq_some_iff.mp rows.symm

theorem modify_rows (staged : List StagedRow) (place : Nat) (row : Row) :
    (staged.modify place fun old => { old with row, changed := true }).map StagedRow.row =
      (staged.map StagedRow.row).set place row := by
  induction staged generalizing place with
  | nil => cases place <;> rfl
  | cons s staged ih =>
    cases place with
    | zero => rfl
    | succ place => exact congrArg _ (ih place)

/-- What a candidate does to a plan depends on the rows of the plan only. -/
theorem Stages.congr (agree : env.Agree env') (plain : i.UpdatesPlainly) (same : SameRows p q)
    (step : Stages i env schema candidate p p') : ∃ q' added, Stages i env' schema candidate q q' ∧
      SameRows p' q' ∧ p'.affectedRows = p.affectedRows + added ∧ q'.affectedRows = q.affectedRows + added := by
  cases step with
  | add fresh =>
    rw [conflict?_congr _ same] at fresh
    refine ⟨_, 1, .add fresh, ?_, rfl, rfl⟩
    unfold SameRows
    rw [List.map_append, List.map_append, show p.staged.map StagedRow.row = _ from same]
  | @change place key current row conflict wanted found assigned differs clear =>
    obtain ⟨other, found', row'⟩ := found_congr same found
    rw [conflict?_congr _ same] at conflict
    rw [clash?_congr _ same] at clear
    rw [assign_congr agree plain, ← row'] at assigned
    rw [← row'] at differs
    refine ⟨_, 2, .change conflict wanted found' assigned differs clear, ?_, rfl, rfl⟩
    unfold SameRows
    rw [modify_rows, modify_rows, show p.staged.map StagedRow.row = _ from same]
  | same conflict wanted found assigned equal =>
    obtain ⟨other, found', row'⟩ := found_congr same found
    rw [conflict?_congr _ same] at conflict
    rw [assign_congr agree plain, ← row'] at assigned
    rw [← row'] at equal
    exact ⟨_, 0, .same conflict wanted found' assigned equal, same, rfl, rfl⟩
  | ignored conflict unwanted ignore =>
    rw [conflict?_congr _ same] at conflict
    exact ⟨_, 0, .ignored conflict unwanted ignore, same, rfl, rfl⟩

/-- Without generated identities a row is completed whatever identity comes next. -/
theorem completeRow_auto {config : Config} {proposed row final : Row} {columns : List Column}
    {auto auto' : AutoIncrement} (plain : ∀ c ∈ columns, c.autoIncrement = false)
    (run : completeRow config proposed auto row columns = .ok (final, auto')) (other : AutoIncrement) :
    completeRow config proposed other row columns = .ok (final, other) := by
  induction columns generalizing row with
  | nil =>
    cases run
    rfl
  | cons c columns ih =>
    rw [List.forall_mem_cons] at plain
    unfold completeRow at run ⊢
    simp only [plain.1, Bool.false_eq_true, if_false] at run ⊢
    obtain ⟨v, stored, run⟩ := Outcome.bind_eq_ok.mp run
    exact Outcome.bind_eq_ok.mpr ⟨v, stored, ih plain.2 run⟩

end Insert

end MiniSql
