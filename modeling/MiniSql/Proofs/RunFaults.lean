import MiniSql.Eval
import MiniSql.Proofs.Agreement
import MiniSql.Proofs.Outcome
import MiniSql.Proofs.Transfer
import MiniSql.Query.Relation

namespace MiniSql

/-- A kind of errors that has all of those at run time, except perhaps that of an aggregate that is called where no
rows are grouped. -/
structure Error.CoversRun (kind : Error → Bool) : Prop where
  failed : ∀ fault, fault ≠ .misplacedAggregate → kind (.failed fault) = true
  unknownTable : ∀ name, kind (.unknownTable name) = true

/-- The kind leaves out the error of an aggregate that is called where no rows are grouped. -/
def Error.Strict (kind : Error → Bool) : Prop :=
  kind (.failed .misplacedAggregate) = false

theorem Error.isRuntime_coversRun : Error.CoversRun isRuntime :=
  ⟨fun _ _ => rfl, fun _ => rfl⟩

theorem Error.not_strict_isRuntime : ¬ Error.Strict isRuntime :=
  nofun

/-- All errors that the outcome can be are of this kind. -/
def Outcome.FailsAs {α : Type} (kind : Error → Bool) (x : Outcome α) : Prop :=
  ∀ fault, x = .error fault → kind fault = true

/-- A step that is refused at run time, if at all. -/
abbrev Outcome.FailsAtRun {α : Type} (x : Outcome α) : Prop :=
  x.FailsAs Error.isRuntime

namespace Outcome.FailsAs
variable {α β : Type} {kind : Error → Bool} {x : Outcome α} {as : List α}

theorem ok {a : α} : FailsAs kind (.ok a : Outcome α) :=
  nofun

theorem refuse {fault : RuntimeFault} : FailsAtRun (MiniSql.refuse fault : Outcome α) := by
  rintro _ ⟨⟩
  rfl

theorem refused {fault : RuntimeFault} (covers : Error.CoversRun kind) (other : fault ≠ .misplacedAggregate) :
    FailsAs kind (MiniSql.refuse fault : Outcome α) := by
  rintro _ ⟨⟩
  exact covers.failed fault other

/-- What follows a step is judged by its result. -/
theorem bind_ok {f : α → Outcome β} (first : x.FailsAs kind) (rest : ∀ a, x = .ok a → (f a).FailsAs kind) :
    (x >>= f).FailsAs kind := by
  cases x with
  | error fault =>
    rintro _ ⟨⟩
    exact first fault rfl
  | ok a => exact rest a rfl

theorem bind {f : α → Outcome β} (first : x.FailsAs kind) (rest : ∀ a, (f a).FailsAs kind) : (x >>= f).FailsAs kind :=
  first.bind_ok fun a _ => rest a

theorem map (f : α → β) (fails : x.FailsAs kind) : FailsAs kind (x.map f) := by
  cases x with
  | error fault =>
    rintro _ ⟨⟩
    exact fails fault rfl
  | ok a => exact ok

theorem mapM {f : α → Outcome β} (each : ∀ a ∈ as, (f a).FailsAs kind) : FailsAs kind (as.mapM f) := by
  induction as with
  | nil => exact ok
  | cons a as ih =>
    rw [List.forall_mem_cons] at each
    rw [List.mapM_cons]
    exact each.1.bind fun b => (ih each.2).bind fun bs => ok

theorem foldlM {f : β → α → Outcome β} (each : ∀ b a, (f b a).FailsAs kind) (b : β) : FailsAs kind (as.foldlM f b) := by
  induction as generalizing b with
  | nil => exact ok
  | cons a as ih =>
    rw [List.foldlM_cons]
    exact (each b a).bind ih

theorem forIn {f : α → Outcome β} (each : ∀ a, (f a).FailsAs kind) :
    FailsAs kind (forIn as PUnit.unit fun a _ => f a >>= fun _ => pure (ForInStep.yield PUnit.unit)) := by
  induction as with
  | nil => exact ok
  | cons a as ih =>
    rw [List.forIn_cons]
    exact ((each a).bind fun _ => ok).bind fun step => by cases step <;> first | exact ok | exact ih

theorem gather {f : α → Outcome (List β)} (each : ∀ a ∈ as, (f a).FailsAs kind) : FailsAs kind (gather f as) := by
  induction as with
  | nil => exact ok
  | cons a as ih =>
    rw [List.forall_mem_cons] at each
    exact each.1.bind fun bs => (ih each.2).bind fun more => ok

theorem keepIf {p : α → Outcome Bool} (each : ∀ a ∈ as, (p a).FailsAs kind) : FailsAs kind (keepIf p as) := by
  induction as with
  | nil => exact ok
  | cons a as ih =>
    rw [List.forall_mem_cons] at each
    exact each.1.bind fun keep => (ih each.2).bind fun rest => ok

end Outcome.FailsAs

open Outcome

/-- Whether a node is an aggregate with another one in its arguments. -/
def Node.isNestedAggregate : Node → Bool
  | .expr (.call function args _) => isAggregate function && Expr.anyAggregate args
  | _ => false

/-- What the evaluation of expressions relies on: the SELECTs among the nodes fail as the kind says, and no aggregate is
called inside another one, if that is an error that the kind leaves out. -/
structure Env.Sound (kind : Error → Bool) (env : Env) (nodes : List Node) : Prop where
  select : ∀ q, .select q ∈ nodes → ∀ outer, FailsAs kind (env.select q outer)
  arguments : Error.Strict kind → ∀ n ∈ nodes, n.isNestedAggregate = false

/-- A scope in which aggregates may be called, unless there are none or the kind has their error. -/
def Scope.Admits (kind : Error → Bool) (s : Scope) (aggregates : Bool) : Prop :=
  Error.Strict kind → s.group? = none → aggregates = false

section
variable {kind : Error → Bool} {env : Env} {nodes more : List Node} {s : Scope} {a b : Bool}

namespace Env

theorem Sound.mono (sound : env.Sound kind nodes) (sub : more ⊆ nodes) : env.Sound kind more where
  select q member := sound.select q (sub member)
  arguments strict n member := sound.arguments strict n (sub member)

theorem Sound.inside {e : Expr} (sound : env.Sound kind (.expr e :: nodes)) : env.Sound kind nodes :=
  sound.mono (List.subset_cons_self ..)

theorem Sound.left (sound : env.Sound kind (nodes ++ more)) : env.Sound kind nodes :=
  sound.mono (List.subset_append_left ..)

theorem Sound.right (sound : env.Sound kind (nodes ++ more)) : env.Sound kind more :=
  sound.mono (List.subset_append_right ..)

end Env

namespace Scope

theorem Admits.left (admits : s.Admits kind (a || b)) : s.Admits kind a :=
  fun strict alone => (Bool.or_eq_false_iff.mp (admits strict alone)).1

theorem Admits.right (admits : s.Admits kind (a || b)) : s.Admits kind b :=
  fun strict alone => (Bool.or_eq_false_iff.mp (admits strict alone)).2

theorem Admits.throughFirst (admits : s.Admits kind a) : s.throughFirst.Admits kind a := by
  unfold Admits
  rw [group?_throughFirst]
  exact admits

end Scope

namespace Env

/-- Readings that fail as the kind says in the scope. -/
def ReadingsFailAs (kind : Error → Bool) (args : List (Expr × Reading)) (s : Scope) : Prop :=
  ∀ p ∈ args, Outcome.FailsAs kind (p.2 s)

theorem memberValues_failsAs {reading : Reading} (fails : ∀ row, Outcome.FailsAs kind (reading (s.member row)))
    (rows : List Row) : Outcome.FailsAs kind (memberValues reading s rows) := by
  induction rows with
  | nil => exact .ok
  | cons row rows ih => exact (fails row).bind fun v => ih.bind fun more => .ok

theorem coalesce_failsAs {readings : List Reading} (fails : ∀ r ∈ readings, Outcome.FailsAs kind (r s)) :
    Outcome.FailsAs kind (coalesce s readings) := by
  induction readings with
  | nil => exact .ok
  | cons reading more ih =>
    rw [List.forall_mem_cons] at fails
    refine fails.1.bind fun v => ?_
    split
    · exact ih fails.2
    · exact .ok

end Env

end

namespace ScalarFunction
variable {kind : Error → Bool} {setting : Setting} {args : List Value}

theorem strict_failsAs {arity : Arity} {f : List Value → Outcome Value} (fails : ∀ args, FailsAs kind (f args)) :
    FailsAs kind ((strict arity f).apply setting args) := by
  show FailsAs kind (if _ then _ else _)
  split
  · exact .ok
  · exact fails args

theorem ofText_failsAs (f : List Char → Value) : FailsAs kind ((ofText f).apply setting args) :=
  strict_failsAs fun args => by split <;> exact .ok

theorem ofNumber_failsAs {f : Numeric → Outcome Value} (fails : ∀ n, FailsAs kind (f n)) :
    FailsAs kind ((ofNumber f).apply setting args) := by
  refine strict_failsAs fun args => ?_
  split
  · exact fails _
  · exact .ok

theorem position_failsAs : FailsAs kind (position.apply setting args) := by
  unfold position
  simp only
  split
  · exact .ok
  · split <;> exact .ok

theorem round_failsAs : FailsAs kind (round.apply setting args) := by
  refine strict_failsAs fun args => ?_
  split
  · simp only
    split <;> exact .ok
  · exact .ok

theorem remainder_failsAs : FailsAs kind (remainder.apply setting args) := by
  unfold remainder
  simp only
  split <;> exact .ok

end ScalarFunction

section
variable {kind : Error → Bool} (covers : Error.CoversRun kind)
include covers

namespace Operator

theorem exact_failsAs (i : Int) (operation : String) : FailsAs kind (exact i operation) := by
  unfold exact
  split
  · exact .ok
  · exact .refused covers (by simp)

theorem negate_failsAs (v : Value) : FailsAs kind (negate v) := by
  unfold negate
  split
  · exact .ok
  · exact exact_failsAs covers _ _
  · exact .ok

theorem arithmetic_failsAs (symbol : String) (onInts : Int → Int → Int) (onDoubles : Float → Float → Float)
    (v w : Value) : FailsAs kind (arithmetic symbol onInts onDoubles v w) := by
  unfold arithmetic
  split
  · exact exact_failsAs covers _ _
  · exact .ok
  · exact .ok

theorem intDivide_failsAs (v w : Value) : FailsAs kind (intDivide v w) := by
  unfold intDivide
  split
  · split
    · exact .ok
    · split
      · exact exact_failsAs covers _ _
      · exact .ok
  · exact .ok

theorem like_failsAs (v w : Value) : FailsAs kind (like v w) := by
  unfold like
  split
  · exact .ok
  · simp only
    split
    · exact .refused covers (by simp)
    · exact .ok

theorem binary_failsAs (op : BinaryOp) (v w : Value) : FailsAs kind (binary op v w) := by
  unfold binary
  split
  case h_5 => exact (like_failsAs covers v w).bind fun _ => .ok
  case h_6 => exact (like_failsAs covers v w).bind fun _ => .ok
  case h_7 => exact arithmetic_failsAs covers _ _ _ v w
  case h_8 => exact arithmetic_failsAs covers _ _ _ v w
  case h_9 => exact arithmetic_failsAs covers _ _ _ v w
  case h_11 => exact intDivide_failsAs covers v w
  case h_13 => split <;> exact .ok
  all_goals exact .ok

end Operator

namespace ScalarFunction
variable {setting : Setting} {args : List Value}

theorem ofPresent_failsAs (f : String → Value) : FailsAs kind (ofPresent setting f) := by
  unfold ofPresent
  split
  · exact .ok
  · exact .refused covers (by simp)

theorem concatWithSeparator_failsAs : FailsAs kind (concatWithSeparator.apply setting args) := by
  unfold concatWithSeparator
  simp only
  split
  · exact .refused covers (by simp)
  · exact .refused covers (by simp)
  · exact .ok

theorem unixTime_failsAs : FailsAs kind (unixTime.apply setting args) := by
  unfold unixTime
  simp only
  split
  · exact ofPresent_failsAs covers _
  all_goals exact .ok

theorem absolute_failsAs : FailsAs kind (absolute.apply setting args) := by
  refine ofNumber_failsAs fun n => ?_
  split
  · exact Operator.exact_failsAs covers _ _
  · exact .ok

/-- The functions of a table, each of which fails at run time if at all. -/
theorem apply_failsAs {name : String} {f : ScalarFunction} (found : ofName? name = some f) :
    FailsAs kind (f.apply setting args) := by
  unfold ofName? at found
  split at found <;> cases found
  all_goals first
    | exact ofText_failsAs _
    | exact concatWithSeparator_failsAs covers
    | exact position_failsAs
    | exact remainder_failsAs
    | exact absolute_failsAs covers
    | exact round_failsAs
    | exact ofPresent_failsAs covers _
    | exact unixTime_failsAs covers
    | exact ofNumber_failsAs fun n => by split <;> exact .ok
    | exact strict_failsAs fun args => .ok
    | exact strict_failsAs fun args => by split <;> exact .ok
    | exact .ok

end ScalarFunction

namespace Env
variable {env : Env} {s : Scope}

theorem checkDependent_failsAs (c : ColumnRef) (v : Value) (group : List Row) :
    Outcome.FailsAs kind (env.checkDependent c v group) := by
  unfold checkDependent
  simp only
  split
  · exact .refused covers (by simp)
  · exact .ok

theorem column_failsAs (c : ColumnRef) : Outcome.FailsAs kind (env.column c s) := by
  unfold column
  simp only
  split
  · exact .ok
  · exact .ok
  · split
    · exact .refused covers (by simp)
    · split
      · split
        · exact (checkDependent_failsAs covers _ _ _).bind fun _ => .ok
        · exact .ok
      · split
        · exact .ok
        · exact .refused covers (by simp)

theorem columnOf_failsAs {q : Select} (fails : ∀ outer, Outcome.FailsAs kind (env.select q outer)) :
    Outcome.FailsAs kind (env.columnOf q s) := by
  refine FailsAs.bind (fails _) fun result => ?_
  split
  · exact .refused covers (by simp)
  · exact .ok

theorem scalarOf_failsAs {q : Select} (fails : ∀ outer, Outcome.FailsAs kind (env.select q outer)) :
    Outcome.FailsAs kind (env.scalarOf q s) := by
  refine (columnOf_failsAs covers fails).bind fun values => ?_
  split
  · exact .ok
  · exact .ok
  · exact .refused covers (by simp)

theorem checkArity_failsAs (function : String) (arity : Arity) (count : Nat) :
    Outcome.FailsAs kind (checkArity function arity count) := by
  unfold checkArity
  split
  · exact .ok
  · exact .refused covers (by simp)

/-- An aggregate needs a group, and the values of its argument in the rows of that. -/
theorem aggregate_failsAs {args : List (Expr × Reading)}
    (grouped : s.group? = none → kind (.failed .misplacedAggregate) = true)
    (members : ∀ row, ReadingsFailAs kind args (s.member row)) (f : Aggregate) (distinct : Bool) :
    Outcome.FailsAs kind (aggregate f args distinct s) := by
  unfold aggregate
  split
  · next alone =>
    rintro _ ⟨⟩
    exact grouped alone
  · refine (checkArity_failsAs covers _ _ _).bind fun _ => ?_
    split
    · split
      · exact .ok
      · exact .refused covers (by simp)
    · exact (memberValues_failsAs (fun row => members row _ (List.mem_singleton_self _)) _).bind fun _ => .ok
    · exact .ok

theorem control?_failsAs {args : List (Expr × Reading)} {v : Outcome Value} {function : String}
    (selects : ∀ p ∈ args, ∀ q, p.1 = .subquery q → ∀ outer, Outcome.FailsAs kind (env.select q outer))
    (readings : ReadingsFailAs kind args s) (found : env.control? function args s = some v) :
    Outcome.FailsAs kind v := by
  have coalesced : Outcome.FailsAs kind (coalesce s (args.map Prod.snd)) :=
    coalesce_failsAs (List.forall_mem_map.mpr readings)
  unfold control? at found
  split at found <;> cases found <;> refine (checkArity_failsAs covers _ _ _).bind fun _ => ?_
  · split
    · simp only [ReadingsFailAs, List.forall_mem_cons] at readings
      refine readings.1.bind fun v => ?_
      split
      · exact readings.2.1
      · exact readings.2.2.1
    · exact .ok
  · exact coalesced
  · exact coalesced
  · split
    · simp only [ReadingsFailAs, List.forall_mem_cons] at readings
      exact readings.1.bind fun v => readings.2.1.bind fun w => .ok
    · exact .ok
  · split
    · exact FailsAs.bind (selects _ (List.mem_singleton_self _) _ rfl _) fun _ => .ok
    · exact .refused covers (by simp)
  · split
    · exact .ok
    · exact .refused covers (by simp)

theorem call_failsAs {args : List (Expr × Reading)} {function : String}
    (selects : ∀ p ∈ args, ∀ q, p.1 = .subquery q → ∀ outer, Outcome.FailsAs kind (env.select q outer))
    (readings : ReadingsFailAs kind args s.throughFirst)
    (grouped : isAggregate function = true → s.group? = none → kind (.failed .misplacedAggregate) = true)
    (members : isAggregate function = true → ∀ row, ReadingsFailAs kind args (s.member row)) (distinct : Bool) :
    Outcome.FailsAs kind (env.call function args distinct s) := by
  unfold call
  split
  · next found =>
    have called : isAggregate function = true := Option.isSome_of_eq_some found
    exact aggregate_failsAs covers (grouped called) (members called) _ distinct
  · simp only
    split
    · next found => exact control?_failsAs covers selects readings found
    · split
      · exact .refused covers (by simp)
      · next found =>
        exact (checkArity_failsAs covers _ _ _).bind fun _ => .bind (.mapM readings) fun _ =>
          ScalarFunction.apply_failsAs covers found

end Env

end

mutual

/-- An expression fails as its kind says, if the SELECTs inside do, and if its aggregates are called where rows are
grouped or the kind has their error. -/
theorem Expr.eval_failsAs {kind : Error → Bool} (covers : Error.CoversRun kind) {env : Env} :
    (e : Expr) → env.Sound kind e.nodes → (s : Scope) → s.Admits kind e.hasAggregate → FailsAs kind (e.eval env s)
  | .column c, _, s, _ => by
    unfold Expr.eval
    exact Env.column_failsAs covers c
  | .literal _, _, _, _ => by
    unfold Expr.eval
    exact .ok
  | .star _, _, _, _ => by
    unfold Expr.eval
    exact .refused covers (by simp)
  | .call function args distinct, sound, s, admits => by
    unfold Expr.nodes at sound
    unfold Expr.hasAggregate at admits
    unfold Expr.eval
    have readings := Expr.readings_failAs covers args sound.inside
    have members : isAggregate function = true → ∀ row, (s.member row).Admits kind (Expr.anyAggregate args) := by
      intro called row strict _
      have nested := sound.arguments strict _ (List.mem_cons_self ..)
      exact (Bool.and_eq_false_iff.mp nested).resolve_left (ne_false_of_eq_true called)
    -- The arguments are read in the scope itself, or one by one in the rows of its group, where no aggregate may be.
    refine Env.call_failsAs covers (fun p member q same => ?_) (readings _ admits.right.throughFirst)
      (fun called alone => ?_) (fun called row => readings _ (members called row)) distinct
    · have inArgs := Expr.nodes_subset (Expr.mem_readings member)
      rw [same] at inArgs
      exact sound.inside.select q (inArgs (by cases q; simp [Expr.nodes, Select.nodes]))
    · by_contra strict
      have none := admits.left (Bool.eq_false_iff.mpr strict) alone
      rw [called] at none
      cases none
  | .binary op l r, sound, s, admits => by
    unfold Expr.nodes at sound
    unfold Expr.hasAggregate at admits
    unfold Expr.eval
    refine (l.eval_failsAs covers sound.inside.left s admits.left).bind fun v => ?_
    split
    · exact .ok
    · exact (r.eval_failsAs covers sound.inside.right s admits.right).bind fun w => Operator.binary_failsAs covers op v w
  | .unary .not e, sound, s, admits => by
    unfold Expr.nodes at sound
    unfold Expr.hasAggregate at admits
    unfold Expr.eval
    exact (e.eval_failsAs covers sound.inside s admits).bind fun _ => .ok
  | .unary .negate e, sound, s, admits => by
    unfold Expr.nodes at sound
    unfold Expr.hasAggregate at admits
    unfold Expr.eval
    exact (e.eval_failsAs covers sound.inside s admits).bind (Operator.negate_failsAs covers)
  | .isNull e _, sound, s, admits => by
    unfold Expr.nodes at sound
    unfold Expr.hasAggregate at admits
    unfold Expr.eval
    exact (e.eval_failsAs covers sound.inside s admits).bind fun _ => .ok
  | .inList e items _, sound, s, admits => by
    unfold Expr.nodes at sound
    unfold Expr.hasAggregate at admits
    unfold Expr.eval
    exact (e.eval_failsAs covers sound.inside.left s admits.left).bind fun _ =>
      .bind (.mapM (Expr.readings_failAs covers items sound.inside.right s admits.right)) fun _ => .ok
  | .inQuery e q _, sound, s, admits => by
    unfold Expr.nodes at sound
    unfold Expr.hasAggregate at admits
    unfold Expr.eval
    exact (e.eval_failsAs covers sound.inside.left s admits).bind fun _ =>
      (Env.columnOf_failsAs covers (sound.inside.right.select q (by cases q; simp [Select.nodes]))).bind fun _ => .ok
  | .between e low high _, sound, s, admits => by
    unfold Expr.nodes at sound
    unfold Expr.hasAggregate at admits
    unfold Expr.eval
    exact (e.eval_failsAs covers sound.inside.left s admits.left.left).bind fun _ =>
      (low.eval_failsAs covers sound.inside.right.left s admits.left.right).bind fun _ =>
        (high.eval_failsAs covers sound.inside.right.right s admits.right).bind fun _ => .ok
  | .subquery q, sound, s, _ => by
    unfold Expr.nodes at sound
    unfold Expr.eval
    exact Env.scalarOf_failsAs covers (sound.inside.select q (by cases q; simp [Select.nodes]))

theorem Expr.readings_failAs {kind : Error → Bool} (covers : Error.CoversRun kind) {env : Env} :
    (es : List Expr) → env.Sound kind (Expr.nodesAll es) → (s : Scope) → s.Admits kind (Expr.anyAggregate es) →
      Env.ReadingsFailAs kind (Expr.readings env es) s
  | [], _, _, _ => by
    unfold Expr.readings
    exact nofun
  | e :: es, sound, s, admits => by
    unfold Expr.nodesAll at sound
    unfold Expr.anyAggregate at admits
    unfold Expr.readings
    exact List.forall_mem_cons.mpr
      ⟨e.eval_failsAs covers sound.left s admits.left, Expr.readings_failAs covers es sound.right s admits.right⟩

end

namespace Env

/-- The SELECTs inside fail at run time, if at all. -/
def FailsAtRun (env : Env) : Prop :=
  ∀ q outer, Outcome.FailsAtRun (env.select q outer)

theorem FailsAtRun.sound {env : Env} (fails : env.FailsAtRun) (nodes : List Node) : env.Sound Error.isRuntime nodes where
  select q _ := fails q
  arguments strict := absurd strict Error.not_strict_isRuntime

end Env

theorem Scope.admits_isRuntime (s : Scope) (aggregates : Bool) : s.Admits Error.isRuntime aggregates :=
  fun strict => absurd strict Error.not_strict_isRuntime

/-- Whatever goes wrong in an expression goes wrong at run time. -/
theorem Expr.eval_failsAtRun {env : Env} (fails : env.FailsAtRun) (e : Expr) (s : Scope) : FailsAtRun (e.eval env s) :=
  e.eval_failsAs Error.isRuntime_coversRun (fails.sound _) s (s.admits_isRuntime _)

end MiniSql
