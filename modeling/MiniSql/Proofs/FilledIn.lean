import MiniSql.Proofs.Agreement
import MiniSql.Proofs.Transfer
import MiniSql.Query.Projection

namespace MiniSql

mutual

/-- The parts of an expression that are read from its scope: its columns, its subqueries and the calls of
aggregates that are in no other such call. -/
def Expr.reads : Expr → List Expr
  | .column c => [.column c]
  | .literal _ | .star _ => []
  | .call function args distinct =>
    if isAggregate function then [.call function args distinct] else Expr.readsAll args
  | .binary _ l r => l.reads ++ r.reads
  | .unary _ e | .isNull e _ => e.reads
  | .inList e items _ => e.reads ++ Expr.readsAll items
  | .inQuery e q _ => e.reads ++ [.subquery q]
  | .between e low high _ => e.reads ++ (low.reads ++ high.reads)
  | .subquery q => [.subquery q]

def Expr.readsAll : List Expr → List Expr
  | [] => []
  | e :: es => e.reads ++ Expr.readsAll es

end

def Expr.isAggregateCall : Expr → Bool
  | .call function _ _ => isAggregate function
  | _ => false

/-- The calls of aggregates in an expression, those in another such call left out. -/
def Expr.aggregates (e : Expr) : List Expr :=
  e.reads.filter Expr.isAggregateCall

mutual

/-- The expression with a literal in the place of every call of an aggregate that is in no other such call. -/
def Expr.filled (value : Expr → Value) : Expr → Expr
  | .column c => .column c
  | .literal v => .literal v
  | .call function args distinct =>
    if isAggregate function then .literal (value (.call function args distinct))
    else .call function (Expr.allFilled value args) distinct
  | .binary op l r => .binary op (l.filled value) (r.filled value)
  | .unary op e => .unary op (e.filled value)
  | .isNull e negated => .isNull (e.filled value) negated
  | .inList e items negated => .inList (e.filled value) (Expr.allFilled value items) negated
  | .inQuery e q negated => .inQuery (e.filled value) q negated
  | .between e low high negated => .between (e.filled value) (low.filled value) (high.filled value) negated
  | .subquery q => .subquery q
  | .star table => .star table

def Expr.allFilled (value : Expr → Value) : List Expr → List Expr
  | [] => []
  | e :: es => e.filled value :: Expr.allFilled value es

end

/-- Columns and subqueries give in the scope `t` what they give in `s`, and a call of an aggregate has the
value in `s` that stands for it in `t`. -/
def Scope.Gives (env : Env) (value : Expr → Value) (s t : Scope) : Expr → Prop
  | .column c => env.column c s = env.column c t
  | .subquery q => env.subquery q s = env.subquery q t
  | e => e.isAggregateCall = true → e.eval env s = .ok (value e)

/-- What parts of an expression read in `s` is read in `t` by what is filled in for them. -/
structure Scope.Mirrors (env : Env) (value : Expr → Value) (parts : List Expr) (s t : Scope) : Prop where
  gives : ∀ e ∈ parts, s.Gives env value t e
  proposed : s.proposed = t.proposed

theorem Expr.eval_aggregate {function : String} {f : Aggregate} (found : Aggregate.ofName? function = some f)
    (env : Env) (args : List Expr) (distinct : Bool) (s : Scope) :
    (Expr.call function args distinct).eval env s = Env.aggregate f (Expr.readings env args) distinct s := by
  unfold Expr.eval Env.call
  rw [found]

namespace Scope
variable {env : Env} {value : Expr → Value} {parts more : List Expr} {s t : Scope}

theorem throughFirst_carries (env : Env) (queries : List Select) (s : Scope) :
    s.throughFirst.Carries env queries s where
  column c := .of_eq (column_throughFirst env c s)
  query q _ := .of_eq (subquery_throughFirst env q s)
  group := group?_throughFirst s
  outer := outer_throughFirst s
  proposed := proposed_throughFirst s

/-- An aggregate sees all of a group also when the group is seen through its first row. -/
theorem Gives.throughFirst {e : Expr} (gives : s.Gives env value t e) :
    s.throughFirst.Gives env value t.throughFirst e := by
  cases e with
  | column c =>
    have same : env.column c s = env.column c t := gives
    show env.column c s.throughFirst = env.column c t.throughFirst
    rw [column_throughFirst, column_throughFirst, same]
  | subquery q =>
    have same : env.subquery q s = env.subquery q t := gives
    show env.subquery q s.throughFirst = env.subquery q t.throughFirst
    rw [subquery_throughFirst, subquery_throughFirst, same]
  | call function args distinct =>
    intro aggregate
    have run := gives aggregate
    obtain ⟨f, found⟩ := Option.isSome_iff_exists.mp aggregate
    rw [Expr.eval_aggregate found] at run ⊢
    rw [Env.aggregate_same f _ distinct (s.throughFirst_carries env [])]
    exact run
  | _ => exact fun aggregate => nomatch aggregate

namespace Mirrors

theorem left (mirrors : s.Mirrors env value (parts ++ more) t) : s.Mirrors env value parts t where
  gives e member := mirrors.gives e (List.mem_append_left more member)
  proposed := mirrors.proposed

theorem right (mirrors : s.Mirrors env value (parts ++ more) t) : s.Mirrors env value more t where
  gives e member := mirrors.gives e (List.mem_append_right parts member)
  proposed := mirrors.proposed

theorem throughFirst (mirrors : s.Mirrors env value parts t) :
    s.throughFirst.Mirrors env value parts t.throughFirst where
  gives e member := (mirrors.gives e member).throughFirst
  proposed := by rw [proposed_throughFirst, proposed_throughFirst, mirrors.proposed]

theorem query {q : Select} (mirrors : s.Mirrors env value [.subquery q] t) :
    env.subquery q s = env.subquery q t :=
  mirrors.gives (.subquery q) (List.mem_singleton_self _)

end Mirrors

end Scope

namespace Expr
variable {value : Expr → Value} {e : Expr}

/-- Nothing becomes a column by filling in, and no column is filled in. -/
theorem filled_eq_column {c : ColumnRef} : e.filled value = .column c ↔ e = .column c := by
  cases e with
  | call function args distinct =>
    unfold filled
    cases isAggregate function <;> simp
  | _ => simp [filled]

theorem filled_eq_subquery {q : Select} : e.filled value = .subquery q ↔ e = .subquery q := by
  cases e with
  | call function args distinct =>
    unfold filled
    cases isAggregate function <;> simp
  | _ => simp [filled]

end Expr

namespace Env
variable {env : Env} {value : Expr → Value} {s t : Scope} {args args' : List (Expr × Reading)}

theorem columnOf_same {q : Select} (same : env.subquery q s = env.subquery q t) :
    env.columnOf q s = env.columnOf q t := by
  unfold columnOf
  rw [same]

theorem scalarOf_same {q : Select} (same : env.subquery q s = env.subquery q t) :
    env.scalarOf q s = env.scalarOf q t := by
  unfold scalarOf
  rw [columnOf_same same]

/-- An argument of a call in `s`, and the same with values filled in in `t`. -/
structure Filled (env : Env) (value : Expr → Value) (s t : Scope) (p p' : Expr × Reading) : Prop where
  expr : p'.1 = p.1.filled value
  reading : p.2 s = p'.2 t
  query : ∀ q, p.1 = .subquery q → env.subquery q s = env.subquery q t

theorem Filled.alike {p p' : Expr × Reading} (filled : env.Filled value s t p p') :
    Alike (fun x y => x = y) env env s t p p' where
  value := filled.reading
  column c := by rw [filled.expr, Expr.filled_eq_column]
  subquery q := by rw [filled.expr, Expr.filled_eq_subquery]
  rows := filled.query

theorem call_filled {function : String} (scalar : isAggregate function = false) (distinct : Bool)
    (each : List.Forall₂ (env.Filled value s.throughFirst t.throughFirst) args args')
    (proposed : s.throughFirst.proposed = t.throughFirst.proposed) :
    env.call function args distinct s = env.call function args' distinct t := by
  have none : Aggregate.ofName? function = none :=
    Option.not_isSome_iff_eq_none.mp (Bool.eq_false_iff.mp scalar)
  refine call_related Outcome.sequential_eq rfl distinct (fun f found => ?_)
    (fun _ => each.imp fun _ _ filled => filled.alike) proposed
  cases none.symm.trans found

end Env

mutual

/-- An expression has in one scope the value that it has in the other, where the values of aggregates are
filled in. -/
theorem Expr.eval_filled {env : Env} {value : Expr → Value} : (e : Expr) → {s t : Scope} →
    s.Mirrors env value e.reads t → e.eval env s = (e.filled value).eval env t
  | .column c, s, t, mirrors => by
    unfold Expr.reads at mirrors
    unfold Expr.filled Expr.eval
    exact mirrors.gives (.column c) (List.mem_singleton_self _)
  | .literal _, s, t, _ => by
    unfold Expr.filled Expr.eval
    rfl
  | .star _, s, t, _ => by
    unfold Expr.filled Expr.eval
    rfl
  | .call function args distinct, s, t, mirrors => by
    unfold Expr.reads at mirrors
    unfold Expr.filled
    cases kind : isAggregate function with
    | true =>
      rw [if_pos kind] at mirrors
      rw [if_pos rfl]
      have run := mirrors.gives (.call function args distinct) (List.mem_singleton_self _) kind
      rw [run]
      unfold Expr.eval
      rfl
    | false =>
      rw [kind] at mirrors
      unfold Expr.eval
      exact Env.call_filled kind distinct (Expr.readings_filled args mirrors.throughFirst) mirrors.throughFirst.proposed
  | .binary op l r, s, t, mirrors => by
    unfold Expr.reads at mirrors
    unfold Expr.filled Expr.eval
    rw [l.eval_filled mirrors.left, r.eval_filled mirrors.right]
  | .unary .not e, s, t, mirrors => by
    unfold Expr.reads at mirrors
    unfold Expr.filled Expr.eval
    rw [e.eval_filled mirrors]
  | .unary .negate e, s, t, mirrors => by
    unfold Expr.reads at mirrors
    unfold Expr.filled Expr.eval
    rw [e.eval_filled mirrors]
  | .isNull e _, s, t, mirrors => by
    unfold Expr.reads at mirrors
    unfold Expr.filled Expr.eval
    rw [e.eval_filled mirrors]
  | .inList e items _, s, t, mirrors => by
    unfold Expr.reads at mirrors
    unfold Expr.filled Expr.eval
    have items := Expr.readings_filled items mirrors.right
    have values := Outcome.sequential_eq.mapM (items.imp fun _ _ item => item.reading)
    rw [e.eval_filled mirrors.left, values]
  | .inQuery e q _, s, t, mirrors => by
    unfold Expr.reads at mirrors
    unfold Expr.filled Expr.eval
    rw [e.eval_filled mirrors.left, Env.columnOf_same mirrors.right.query]
  | .between e low high _, s, t, mirrors => by
    unfold Expr.reads at mirrors
    unfold Expr.filled Expr.eval
    rw [e.eval_filled mirrors.left, low.eval_filled mirrors.right.left, high.eval_filled mirrors.right.right]
  | .subquery q, s, t, mirrors => by
    unfold Expr.reads at mirrors
    unfold Expr.filled Expr.eval
    exact Env.scalarOf_same mirrors.query

theorem Expr.readings_filled {env : Env} {value : Expr → Value} : (es : List Expr) → {s t : Scope} →
    s.Mirrors env value (Expr.readsAll es) t →
    List.Forall₂ (env.Filled value s t) (Expr.readings env es) (Expr.readings env (Expr.allFilled value es))
  | [], s, t, _ => by
    unfold Expr.allFilled Expr.readings
    exact .nil
  | e :: es, s, t, mirrors => by
    unfold Expr.readsAll at mirrors
    unfold Expr.allFilled Expr.readings
    refine .cons ⟨rfl, e.eval_filled mirrors.left, fun q same => ?_⟩ (Expr.readings_filled es mirrors.right)
    cases same
    have own := mirrors.left
    unfold Expr.reads at own
    exact own.query

end

namespace Scope

/-- The scope of a group, in which columns are read from its first row, or from `padding` if it is empty. -/
def ofGroup (padding : Row) (group : List Row) : Scope :=
  if group.isEmpty then emptyGroup padding else .group group

theorem row?_ofGroup (padding : Row) (group : List Row) :
    (ofGroup padding group).row? = some (group.headD padding) := by
  cases group <;> rfl

theorem group?_ofGroup (padding : Row) (group : List Row) : (ofGroup padding group).group? = some group := by
  cases group <;> rfl

end Scope

theorem Env.checkDependent_lenient {env : Env} (lenient : env.setting.config.onlyFullGroupBy = false) (c : ColumnRef)
    (v : Value) (group : List Row) : env.checkDependent c v group = .ok () := by
  unfold checkDependent
  simp only [lenient, Bool.and_false]
  rfl

/-- Where the configuration does not ask for more, a column of a group is that of the row it is seen through. -/
theorem Env.column_lenient {env : Env} (lenient : env.setting.config.onlyFullGroupBy = false) {s : Scope} {row : Row}
    (read : s.row? = some row) (c : ColumnRef) :
    env.column c s = env.column c { s with rows := .single row } := by
  unfold column
  simp only [read, checkDependent_lenient lenient]
  cases s.group? <;> rfl

/-- An expression has on a group the value, or the error, that it has on the first row of the group, or on the
row of NULLs that stands for an empty one, when the values of its aggregates are written into it. -/
theorem Expr.eval_group {env : Env} (lenient : env.setting.config.onlyFullGroupBy = false) (padding : Row)
    (group : List Row) (aliases outer proposed : Option Row) (value : Expr → Value) (e : Expr)
    (aggregates : ∀ call ∈ e.aggregates,
      call.eval env { Scope.ofGroup padding group with aliases, outer, proposed } = .ok (value call)) :
    e.eval env { Scope.ofGroup padding group with aliases, outer, proposed } =
      (e.filled value).eval env { Scope.single (group.headD padding) with aliases, outer, proposed } := by
  let s : Scope := { Scope.ofGroup padding group with aliases, outer, proposed }
  have read : s.row? = some (group.headD padding) := Scope.row?_ofGroup padding group
  refine e.eval_filled (s := s) ⟨fun part member => ?_, rfl⟩
  cases part with
  | column c => exact Env.column_lenient lenient read c
  | subquery q =>
    show env.select q _ = env.select q _
    rw [read]
    rfl
  | call function args distinct =>
    intro aggregate
    exact aggregates _ (List.mem_filter.mpr ⟨member, aggregate⟩)
  | _ => exact fun aggregate => nomatch aggregate

/-- `IF(SUM(n) > 20, COUNT(*) + team + o.base, label)` -/
def bonus : Expr :=
  .call "IF" [.binary .greater (.call "SUM" [.column ⟨none, "n"⟩] false) (.literal (.int 20)),
    .binary .add (.binary .add (.call "COUNT" [.star none] false) (.column ⟨none, "team"⟩)) (.column ⟨some "o", "base"⟩),
    .column ⟨none, "label"⟩] false

/-- `IF(30 > 20, 2 + team + o.base, label)` -/
def filledBonus : Expr :=
  .call "IF" [.binary .greater (.literal (.int 30)) (.literal (.int 20)),
    .binary .add (.binary .add (.literal (.int 2)) (.column ⟨none, "team"⟩)) (.column ⟨some "o", "base"⟩),
    .column ⟨none, "label"⟩] false

def scoreRow (n : Int64) : Row :=
  (Row.ofList [("team", .int 1), ("n", .int n)]).qualified "points"

/-- What the aggregates of `bonus` give on two scores. -/
def bonusSums : Expr → Value
  | .call "SUM" _ _ => .int 30
  | _ => .int 2

/-- A scope in which a select list gives `label` and the query around it `o.base`. -/
def bonusScope (rows : Scope) : Scope :=
  { rows with
    aliases := some (.ofList [("label", .str "few")])
    outer := some ((Row.ofList [("base", .int 100)]).qualified "o")
    proposed := none }

theorem bonus_eval_group :
    let env := Env.ofStore {} ⟨{}, 0⟩
    let group := bonusScope (.ofGroup {} [scoreRow 10, scoreRow 20])
    bonus.filled bonusSums = filledBonus ∧ bonus.eval env group = .ok (.int 103) ∧
      bonus.eval env group = filledBonus.eval env (bonusScope (.single (scoreRow 10))) := by
  intro env group
  have aggregates : ∀ call ∈ bonus.aggregates, call.eval env group = .ok (bonusSums call) :=
    List.forall_mem_cons.mpr ⟨rfl, List.forall_mem_singleton.mpr rfl⟩
  have run : bonus.eval env group = .ok (.int 103) := rfl
  exact ⟨rfl, run, Expr.eval_group rfl {} [scoreRow 10, scoreRow 20] _ _ none bonusSums bonus aggregates⟩

end MiniSql
