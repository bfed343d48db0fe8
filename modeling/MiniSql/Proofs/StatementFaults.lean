import MiniSql.Engine
import MiniSql.Proofs.QueryFaults

namespace MiniSql

open Outcome Error

variable {env : Env} {store : Store}

theorem passes_failsAtRun (fails : env.FailsAtRun) (condition : Option Expr) (s : Scope) :
    FailsAtRun (passes env condition s) :=
  passes_failsAs isRuntime_coversRun (fails.sound _) (s.admits_isRuntime _)

theorem Store.table_failsAtRun (store : Store) (name : String) : FailsAtRun (store.table name) :=
  store.table_failsAs isRuntime_coversRun name

theorem Store.scanWithin_failsAtRun (store : Store) (config : Config) (name : String) :
    FailsAtRun (store.scanWithin config name) :=
  store.scanWithin_failsAs isRuntime_coversRun config name

theorem Select.run_failsAtRun (store : Store) (setting : Setting) (q : Select) (outer : Option Row) :
    FailsAtRun (q.run store setting outer) :=
  q.run_failsAs isRuntime_coversRun (fun strict => absurd strict not_strict_isRuntime) outer

theorem Env.ofStore_failsAtRun (store : Store) (setting : Setting) : (Env.ofStore store setting).FailsAtRun :=
  Select.run_failsAtRun store setting

theorem Schema.target_failsAtRun (schema : Schema) (c : ColumnRef) : FailsAtRun (schema.target c) := by
  unfold target
  split
  · exact .refuse
  · split
    · exact .ok
    · exact .refuse

theorem Column.stored_failsAtRun (c : Column) (config : Config) (omitted : Bool) (v : Value) :
    FailsAtRun (c.stored config omitted v) := by
  unfold stored
  split
  · exact .ok
  · split
    · exact .ok
    · split
      · exact .ok
      · exact .refuse

theorem Row.assign_failsAtRun (fails : env.FailsAtRun) (schema : Schema) (proposed : Option Row) (row : Row)
    (assignments : List Assignment) : FailsAtRun (Row.assign env schema proposed row assignments) := by
  induction assignments generalizing row with
  | nil => exact .ok
  | cons a more ih =>
    refine (schema.target_failsAtRun a.column).bind fun column => (a.value.eval_failsAtRun fails _).bind fun v => ?_
    exact (column.stored_failsAtRun _ _ v).bind fun stored => ih _

theorem keyedTargets_failsAtRun (fails : env.FailsAtRun) (filter : Option Expr) (orderBy : List OrderKey)
    (target : Nat × Row) : FailsAtRun (keyedTargets env filter orderBy target) := by
  rw [keyedTargets_eq]
  exact keyedIf_failsAs (passes_failsAtRun fails filter _) (.mapM fun key _ => key.expr.eval_failsAtRun fails _)

theorem targets_failsAtRun (fails : env.FailsAtRun) (filter : Option Expr) (orderBy : List OrderKey)
    (limit : Option Limit) (rows : List (Nat × Row)) : FailsAtRun (targets env filter orderBy limit rows) :=
  (FailsAs.gather fun target _ => keyedTargets_failsAtRun fails filter orderBy target).bind fun _ => .ok

theorem duplicateEntry_failsAtRun {α : Type} (schema : Schema) (row : Row) (key : List String) :
    FailsAtRun (duplicateEntry schema row key : Outcome α) :=
  .refuse

theorem Delete.target_failsAtRun (d : Delete) : FailsAtRun d.target := by
  unfold target
  split
  · exact .refuse
  · split
    · exact .refuse
    · exact .ok

theorem Delete.plan_failsAtRun (fails : env.FailsAtRun) (d : Delete) : FailsAtRun (d.plan store env) := by
  refine d.target_failsAtRun.bind fun target => (store.scanWithin_failsAtRun _ _).bind fun rows => ?_
  exact (targets_failsAtRun fails d.filter d.orderBy d.limit _).bind fun matched => .ok

namespace Update

theorem checkKeys_failsAtRun (schema : Schema) (rows : List (Nat × Row)) (u : UpdatedRow) :
    FailsAtRun (checkKeys schema rows u) := by
  unfold checkKeys
  simp only
  split
  · exact duplicateEntry_failsAtRun schema u.row _
  · exact .ok

theorem updatedRow_failsAtRun (fails : env.FailsAtRun) (u : Update) (schema : Schema) (target : Nat × Row) :
    FailsAtRun (u.updatedRow env schema target) := by
  refine (Row.assign_failsAtRun fails schema none target.2 u.assignments).bind fun row => ?_
  split <;> exact .ok

theorem plan_failsAtRun (fails : env.FailsAtRun) (u : Update) : FailsAtRun (u.plan store env) := by
  refine (store.table_failsAtRun u.table).bind fun t => ?_
  refine (FailsAs.forIn fun a : Assignment => t.schema.target_failsAtRun a.column).bind fun _ => ?_
  refine (store.scanWithin_failsAtRun _ _).bind fun rows => ?_
  refine (targets_failsAtRun fails u.filter u.orderBy u.limit _).bind fun matched => ?_
  refine (FailsAs.gather fun target _ => updatedRow_failsAtRun fails u t.schema target).bind fun updated => ?_
  exact (FailsAs.forIn fun row => checkKeys_failsAtRun t.schema _ row).bind fun _ => .ok

end Update

namespace Insert
variable {i : Insert}

theorem targetColumns_failsAtRun (i : Insert) (schema : Schema) : FailsAtRun (i.targetColumns schema) := by
  have resolved : ∀ names done, FailsAtRun (targetColumns.resolve schema done names) := by
    intro names
    induction names with
    | nil => exact fun done => .ok
    | cons name more ih =>
      intro done
      refine (schema.target_failsAtRun ⟨none, name⟩).bind fun column => ?_
      split
      · exact .refuse
      · exact ih _
  unfold targetColumns
  split
  · exact .ok
  · exact resolved i.columns []

theorem assignedRow_failsAtRun (fails : env.FailsAtRun) (schema : Schema) (row : Row) (assignments : List Assignment) :
    FailsAtRun (assignedRow env schema row assignments) := by
  induction assignments generalizing row with
  | nil => exact .ok
  | cons a more ih =>
    refine (schema.target_failsAtRun a.column).bind fun column => ?_
    exact (a.value.eval_failsAtRun fails _).bind fun v => ih _

theorem valueRows_failsAtRun (fails : env.FailsAtRun) (columns : List String) (n : Nat) (rows : List (List Expr)) :
    FailsAtRun (valueRows env columns n rows) := by
  induction rows generalizing n with
  | nil => exact .ok
  | cons exprs more ih =>
    unfold valueRows
    split
    · exact .refuse
    · exact (FailsAs.mapM fun e _ => e.eval_failsAtRun fails _).bind fun values => (ih _).bind fun rest => .ok

theorem proposedRows_failsAtRun (fails : env.FailsAtRun) (i : Insert) (schema : Schema) :
    FailsAtRun (i.proposedRows env schema) := by
  unfold proposedRows
  split
  · exact (assignedRow_failsAtRun fails schema {} _).bind fun row => .ok
  · refine (i.targetColumns_failsAtRun schema).bind fun columns => (fails _ none).bind fun result => ?_
    split
    · exact .refuse
    · exact .ok
  · exact (i.targetColumns_failsAtRun schema).bind fun columns => valueRows_failsAtRun fails columns 1 _

theorem completeRow_failsAtRun (config : Config) (proposed : Row) (auto : AutoIncrement) (row : Row)
    (columns : List Column) : FailsAtRun (completeRow config proposed auto row columns) := by
  induction columns generalizing auto row with
  | nil => exact .ok
  | cons c more ih =>
    unfold completeRow
    simp only
    split
    · exact ih _ _
    · exact (c.stored_failsAtRun config _ _).bind fun stored => ih _ _

theorem updateStaged_failsAtRun (fails : env.FailsAtRun) (i : Insert) (schema : Schema) (candidate : Row) (place : Nat)
    (current : Row) (plan : InsertPlan) : FailsAtRun (i.updateStaged env schema candidate place current plan) := by
  refine (Row.assign_failsAtRun fails schema (some candidate) current i.onDuplicate).bind fun row => ?_
  split
  · exact .ok
  · split
    · exact duplicateEntry_failsAtRun schema row _
    · exact .ok

theorem stage_failsAtRun (fails : env.FailsAtRun) (i : Insert) (schema : Schema) (plan : InsertPlan) (proposed : Row) :
    FailsAtRun (i.stage env schema plan proposed) := by
  refine (completeRow_failsAtRun _ proposed plan.auto {} schema.columns).bind fun completed => ?_
  simp only
  split
  · exact .ok
  · split
    · exact updateStaged_failsAtRun fails i schema _ _ _ _
    · split
      · exact .ok
      · exact duplicateEntry_failsAtRun schema _ _

theorem plan_failsAtRun (fails : env.FailsAtRun) (i : Insert) : FailsAtRun (i.plan store env) := by
  refine (store.table_failsAtRun i.table).bind fun t => ?_
  refine (FailsAs.forIn fun a : Assignment => t.schema.target_failsAtRun a.column).bind fun _ => ?_
  refine (proposedRows_failsAtRun fails i t.schema).bind fun proposed => ?_
  refine (store.scanWithin_failsAtRun _ _).bind fun rows => ?_
  exact (FailsAs.foldlM (fun plan row => stage_failsAtRun fails i t.schema plan row) _).bind fun final => .ok

end Insert

/-- Steps that are refused at run time, if at all, whatever they are carried out on. -/
def InPlace.FailsAtRun {σ α : Type} (x : InPlace σ α) : Prop :=
  ∀ s, Outcome.FailsAtRun (x s).1

namespace InPlace.FailsAtRun
variable {σ α β : Type} {x : InPlace σ α}

theorem pure (a : α) : InPlace.FailsAtRun (Pure.pure a : InPlace σ α) := fun _ => .ok

theorem get : InPlace.FailsAtRun (MonadState.get : InPlace σ σ) := fun _ => .ok

theorem lift {y : Outcome α} (fails : Outcome.FailsAtRun y) : InPlace.FailsAtRun (liftM y : InPlace σ α) := fun _ => fails

theorem bind {f : α → InPlace σ β} (first : x.FailsAtRun) (rest : ∀ a, (f a).FailsAtRun) : (x >>= f).FailsAtRun := by
  intro s
  have failed := first s
  rw [bind_apply]
  split <;> rename_i run <;> rw [run] at failed
  · exact rest _ _
  · rintro _ ⟨⟩
    exact failed _ rfl

theorem forM_modify (f : α → σ → σ) (as : List α) :
    InPlace.FailsAtRun (as.forM fun a => modify (f a) : InPlace σ Unit) := by
  intro s
  rw [InPlace.forM_modify]
  exact .ok

end InPlace.FailsAtRun

theorem Table.normalize_failsAtRun (t : Table) (row : Row) : FailsAtRun (t.normalize row) := by
  unfold normalize
  split
  · exact .refuse
  · exact .ok

theorem Table.check_failsAtRun (t : Table) (name : String) (c : ChangeSet) : FailsAtRun (t.check name c) := by
  unfold check
  split
  · rintro _ ⟨⟩
    rfl
  · refine (FailsAs.mapM fun row _ => t.normalize_failsAtRun row).bind fun inserts => ?_
    exact (FailsAs.mapM fun u _ => (t.normalize_failsAtRun _).bind fun row => .ok).bind fun updates => .ok

theorem Table.write_failsAtRun (name : String) (c : ChangeSet) : (Table.write name c).FailsAtRun := by
  refine InPlace.FailsAtRun.get.bind fun t => (InPlace.FailsAtRun.lift (t.check_failsAtRun name c)).bind fun checked => ?_
  exact (InPlace.FailsAtRun.forM_modify _ _).bind fun _ => (InPlace.FailsAtRun.forM_modify _ _).bind fun _ =>
    InPlace.FailsAtRun.forM_modify _ _

theorem Store.write_failsAtRun (name : String) (c : ChangeSet) : (Store.write name c).FailsAtRun := by
  intro s
  have missing := s.table_failsAtRun name
  unfold write onTable
  split
  · exact Table.write_failsAtRun name c _
  · next fault unknown =>
    rintro _ ⟨⟩
    exact missing fault unknown

namespace Engine

theorem change_failsAtRun {table : String} {planned : Outcome (ChangeSet × Summary)} (fails : Outcome.FailsAtRun planned) :
    (change table planned).FailsAtRun :=
  (InPlace.FailsAtRun.lift fails).bind fun plan => (Store.write_failsAtRun table plan.1).bind fun _ => .pure _

/-- Whatever goes wrong in a statement goes wrong at run time. -/
theorem steps_failsAtRun (setting : Setting) (statement : Statement) : (steps setting statement).FailsAtRun := by
  refine InPlace.FailsAtRun.get.bind fun store => ?_
  have fails := Env.ofStore_failsAtRun store setting
  cases statement with
  | select q => exact (InPlace.FailsAtRun.lift (q.run_failsAtRun store setting none)).bind fun result => .pure _
  | update u => exact change_failsAtRun (u.plan_failsAtRun fails)
  | delete d =>
    exact (InPlace.FailsAtRun.lift d.target_failsAtRun).bind fun target => change_failsAtRun (d.plan_failsAtRun fails)
  | insert i => exact change_failsAtRun (i.plan_failsAtRun fails)

end Engine

end MiniSql
