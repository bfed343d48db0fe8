import MiniSql.Proofs.Nodes
import MiniSql.Proofs.RelatedCalls

namespace MiniSql

/-- Whether a call asks for the time. -/
def readsClock (function : String) (args : List Expr) : Bool :=
  args.isEmpty && (function == "NOW" || function == "UNIX_TIMESTAMP")

/-- Whether a node is a call that asks for the time. -/
def Node.isClock : Node → Bool
  | .expr (.call function args _) => readsClock function args
  | _ => false

theorem Expr.readings_length (env : Env) (es : List Expr) : (Expr.readings env es).length = es.length := by
  induction es with
  | nil => unfold Expr.readings; rfl
  | cons e es ih =>
    unfold Expr.readings
    rw [List.length_cons, List.length_cons, ih]

theorem Expr.mem_readings {env : Env} {es : List Expr} {p : Expr × Reading} (member : p ∈ Expr.readings env es) :
    p.1 ∈ es := by
  induction es with
  | nil =>
    unfold Expr.readings at member
    cases member
  | cons e es ih =>
    unfold Expr.readings at member
    rcases List.mem_cons.mp member with rfl | inRest
    · exact List.mem_cons_self ..
    · exact List.mem_cons_of_mem _ (ih inRest)

theorem Expr.nodes_subset {e : Expr} {es : List Expr} (member : e ∈ es) : e.nodes ⊆ Expr.nodesAll es := by
  induction es with
  | nil => cases member
  | cons d es ih =>
    unfold Expr.nodesAll
    rcases List.mem_cons.mp member with rfl | inRest
    · exact List.subset_append_left ..
    · exact List.subset_append_of_subset_right _ (ih inRest)

/-- The functions of the time are those without arguments of two names. -/
theorem ScalarFunction.apply_of_ne {function : String} {f : ScalarFunction} {values : List Value}
    {setting setting' : Setting} (found : ofName? function = some f) (admitted : f.arity.admits values.length = true)
    (clock : ¬ (values = [] ∧ (function = "NOW" ∨ function = "UNIX_TIMESTAMP"))) :
    f.apply setting values = f.apply setting' values := by
  by_cases isNow : function = "NOW"
  · subst isNow
    cases found
    have empty : values = [] := List.length_eq_zero_iff.mp (of_decide_eq_true admitted)
    exact absurd ⟨empty, Or.inl rfl⟩ clock
  by_cases isUnixTime : function = "UNIX_TIMESTAMP"
  · subst isUnixTime
    cases found
    cases values with
    | nil => exact absurd ⟨rfl, Or.inr rfl⟩ clock
    | cons v vs => cases v <;> rfl
  unfold ofName? at found
  split at found
  all_goals first
    | exact absurd rfl isNow
    | exact absurd rfl isUnixTime
    | cases found <;> rfl

/-- Environments that give the same to everything among the nodes that looks at them: the configuration,
the time if a node asks for it, and the rows of the SELECTs. -/
structure Env.AgreeOn (env env' : Env) (nodes : List Node) : Prop where
  config : env.setting.config = env'.setting.config
  clock : (∀ n ∈ nodes, n.isClock = false) ∨ env.setting = env'.setting
  select : ∀ q, .select q ∈ nodes → env.select q = env'.select q

namespace Env
variable {env env' : Env} {nodes : List Node}

theorem AgreeOn.mono (agree : env.AgreeOn env' nodes) {more : List Node} (sub : more ⊆ nodes) :
    env.AgreeOn env' more where
  config := agree.config
  clock := agree.clock.imp_left fun none n member => none n (sub member)
  select q member := agree.select q (sub member)

theorem AgreeOn.inside (agree : env.AgreeOn env' (.expr e :: nodes)) : env.AgreeOn env' nodes :=
  agree.mono (List.subset_cons_self ..)

theorem AgreeOn.left {more : List Node} (agree : env.AgreeOn env' (nodes ++ more)) : env.AgreeOn env' nodes :=
  agree.mono (List.subset_append_left ..)

theorem AgreeOn.right {more : List Node} (agree : env.AgreeOn env' (nodes ++ more)) : env.AgreeOn env' more :=
  agree.mono (List.subset_append_right ..)

theorem column_agree (config : env.setting.config = env'.setting.config) (c : ColumnRef) (s : Scope) :
    env.column c s = env'.column c s := by
  unfold column checkDependent
  rw [config]

theorem subquery_agree {q : Select} (same : env.select q = env'.select q) (s : Scope) :
    env.subquery q s = env'.subquery q s := by
  unfold subquery
  rw [same]

theorem columnOf_agree {q : Select} (same : env.select q = env'.select q) (s : Scope) :
    env.columnOf q s = env'.columnOf q s := by
  unfold columnOf
  rw [subquery_agree same]

theorem scalarOf_agree {q : Select} (same : env.select q = env'.select q) (s : Scope) :
    env.scalarOf q s = env'.scalarOf q s := by
  unfold scalarOf
  rw [columnOf_agree same]

/-- The functions of the control kind run the same if the subqueries among their arguments do. -/
theorem control?_agree {function : String} {args : List (Expr × Reading)} (s : Scope)
    (select : ∀ p ∈ args, ∀ q, p.1 = .subquery q → env.select q = env'.select q) :
    env.control? function args s = env'.control? function args s := by
  unfold control?
  split
  all_goals try rfl
  refine congrArg some (congrArg _ (funext fun _ => ?_))
  split
  · rw [subquery_agree (select _ (List.mem_singleton_self _) _ rfl)]
  · rfl

theorem call_agree {function : String} {args : List Expr} {readings : List (Expr × Reading)} {distinct : Bool}
    (s : Scope) (length : readings.length = args.length)
    (clock : readsClock function args = false ∨ env.setting = env'.setting)
    (select : ∀ p ∈ readings, ∀ q, p.1 = .subquery q → env.select q = env'.select q) :
    env.call function readings distinct s = env'.call function readings distinct s := by
  unfold call
  split
  · rfl
  · simp only [control?_agree s.throughFirst select]
    split
    · rfl
    · split
      · rfl
      · rename_i f found
        rcases clock with clock | same
        · cases arity : checkArity function f.arity readings.length with
          | error fault => rfl
          | ok u =>
            refine congrArg _ (funext fun _ => ?_)
            cases read : readings.mapM fun p => p.2 s.throughFirst with
            | error fault => rfl
            | ok values =>
              have count : values.length = readings.length := (Outcome.mapM_eq_ok.mp read).length_eq.symm
              refine ScalarFunction.apply_of_ne found (count ▸ checkArity_eq_ok arity) ?_
              rintro ⟨rfl, named⟩
              have none : args = [] := List.length_eq_zero_iff.mp (length ▸ count.symm)
              rw [none] at clock
              rcases named with rfl | rfl <;> cases clock
        · rw [same]

end Env

mutual

/-- An expression has the same value in environments that agree on its nodes. -/
theorem Expr.eval_agree {env env' : Env} :
    (e : Expr) → env.AgreeOn env' e.nodes → e.eval env = e.eval env'
  | .column c, agree => by
    funext s
    unfold Expr.eval
    exact Env.column_agree agree.config c s
  | .literal _, _ => by
    funext s
    unfold Expr.eval
    rfl
  | .star _, _ => by
    funext s
    unfold Expr.eval
    rfl
  | .call function args distinct, agree => by
    unfold Expr.nodes at agree
    funext s
    unfold Expr.eval
    rw [Expr.readings_agree args agree.inside]
    refine Env.call_agree s (Expr.readings_length env' args) ?_ fun p member q same => ?_
    · exact agree.clock.imp_left fun none => none _ (List.mem_cons_self ..)
    · have inArgs := Expr.nodes_subset (Expr.mem_readings member)
      rw [same] at inArgs
      exact agree.inside.select q (inArgs (by cases q; simp [Expr.nodes, Select.nodes]))
  | .binary op l r, agree => by
    unfold Expr.nodes at agree
    funext s
    unfold Expr.eval
    rw [Expr.eval_agree l agree.inside.left, Expr.eval_agree r agree.inside.right]
  | .unary .not e, agree => by
    unfold Expr.nodes at agree
    funext s
    unfold Expr.eval
    rw [Expr.eval_agree e agree.inside]
  | .unary .negate e, agree => by
    unfold Expr.nodes at agree
    funext s
    unfold Expr.eval
    rw [Expr.eval_agree e agree.inside]
  | .isNull e _, agree => by
    unfold Expr.nodes at agree
    funext s
    unfold Expr.eval
    rw [Expr.eval_agree e agree.inside]
  | .inList e items _, agree => by
    unfold Expr.nodes at agree
    funext s
    unfold Expr.eval
    rw [Expr.eval_agree e agree.inside.left, Expr.readings_agree items agree.inside.right]
  | .inQuery e q _, agree => by
    unfold Expr.nodes at agree
    funext s
    unfold Expr.eval
    rw [Expr.eval_agree e agree.inside.left,
      Env.columnOf_agree (agree.inside.right.select q (by cases q; simp [Select.nodes]))]
  | .between e low high _, agree => by
    unfold Expr.nodes at agree
    funext s
    unfold Expr.eval
    rw [Expr.eval_agree e agree.inside.left, Expr.eval_agree low agree.inside.right.left,
      Expr.eval_agree high agree.inside.right.right]
  | .subquery q, agree => by
    unfold Expr.nodes at agree
    funext s
    unfold Expr.eval
    exact Env.scalarOf_agree (agree.inside.select q (by cases q; simp [Select.nodes])) s

theorem Expr.readings_agree {env env' : Env} :
    (es : List Expr) → env.AgreeOn env' (Expr.nodesAll es) → Expr.readings env es = Expr.readings env' es
  | [], _ => by
    unfold Expr.readings
    rfl
  | e :: es, agree => by
    unfold Expr.nodesAll at agree
    unfold Expr.readings
    rw [Expr.eval_agree e agree.left, Expr.readings_agree es agree.right]

end

end MiniSql
