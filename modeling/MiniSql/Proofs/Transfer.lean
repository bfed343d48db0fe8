import MiniSql.Proofs.RelatedCalls

namespace MiniSql

namespace Outcome
variable {α β : Type}

/-- What the first yields, the second yields too. -/
def Carries (x y : Outcome α) : Prop :=
  ∀ a, x = .ok a → y = .ok a

theorem Carries.refl (x : Outcome α) : Carries x x :=
  fun _ run => run

theorem Carries.of_eq {x y : Outcome α} (same : x = y) : Carries x y :=
  same ▸ .refl x

theorem Carries.bind {x y : Outcome α} {f g : α → Outcome β} (first : Carries x y)
    (rest : ∀ a, Carries (f a) (g a)) : Carries (x >>= f) (y >>= g) := by
  intro b run
  obtain ⟨a, ok, run⟩ := bind_eq_ok.mp run
  exact bind_eq_ok.mpr ⟨a, first a ok, rest a b run⟩

theorem sequential_carries : Sequential Carries where
  refl := .refl
  bind := .bind

theorem Carries.mapM {f g : α → Outcome β} {as : List α} (each : ∀ a ∈ as, Carries (f a) (g a)) :
    Carries (as.mapM f) (as.mapM g) :=
  sequential_carries.mapM (List.forall₂_same.mpr each)

end Outcome

mutual

/-- The SELECTs that run on the row an expression is evaluated on. Those in the argument of an
aggregate run on the members of a group instead. -/
def Expr.ownQueries : Expr → List Select
  | .column _ | .literal _ | .star _ => []
  | .call function args _ =>
    if (Aggregate.ofName? function).isSome then [] else Expr.ownQueriesAll args
  | .binary _ l r => l.ownQueries ++ r.ownQueries
  | .unary _ e | .isNull e _ => e.ownQueries
  | .inList e items _ => e.ownQueries ++ Expr.ownQueriesAll items
  | .inQuery e q _ => e.ownQueries ++ [q]
  | .between e low high _ => e.ownQueries ++ (low.ownQueries ++ high.ownQueries)
  | .subquery q => [q]

def Expr.ownQueriesAll : List Expr → List Select
  | [] => []
  | e :: es => e.ownQueries ++ Expr.ownQueriesAll es

end

/-- What an expression with these SELECTs inside can read in the scope `s`, it reads in `t` too. -/
structure Scope.Carries (env : Env) (queries : List Select) (s t : Scope) : Prop where
  column : ∀ c, Outcome.Carries (env.column c s) (env.column c t)
  query : ∀ q ∈ queries, Outcome.Carries (env.subquery q s) (env.subquery q t)
  group : s.group? = t.group?
  outer : s.outer = t.outer
  proposed : s.proposed = t.proposed

namespace Scope
variable {env : Env} {queries more : List Select} {s t : Scope}

theorem row?_throughFirst (s : Scope) : s.throughFirst.row? = s.row? := by
  unfold throughFirst
  split
  · rename_i same
    unfold row?
    rw [same]
    rfl
  · rfl

theorem group?_throughFirst (s : Scope) : s.throughFirst.group? = s.group? := by
  unfold throughFirst
  split
  · rename_i same
    unfold group?
    rw [same]
  · rfl

theorem aliases_throughFirst (s : Scope) : s.throughFirst.aliases = s.aliases := by
  unfold throughFirst
  split <;> rfl

theorem outer_throughFirst (s : Scope) : s.throughFirst.outer = s.outer := by
  unfold throughFirst
  split <;> rfl

theorem proposed_throughFirst (s : Scope) : s.throughFirst.proposed = s.proposed := by
  unfold throughFirst
  split <;> rfl

theorem column_throughFirst (env : Env) (c : ColumnRef) (s : Scope) :
    env.column c s.throughFirst = env.column c s := by
  unfold Env.column
  rw [aliases_throughFirst, outer_throughFirst, row?_throughFirst, group?_throughFirst]

theorem subquery_throughFirst (env : Env) (q : Select) (s : Scope) :
    env.subquery q s.throughFirst = env.subquery q s := by
  unfold Env.subquery
  rw [row?_throughFirst, outer_throughFirst]

namespace Carries

theorem mono (carries : s.Carries env queries t) (sub : more ⊆ queries) : s.Carries env more t :=
  { carries with query := fun q member => carries.query q (sub member) }

theorem left (carries : s.Carries env (queries ++ more) t) : s.Carries env queries t :=
  carries.mono (List.subset_append_left ..)

theorem right (carries : s.Carries env (queries ++ more) t) : s.Carries env more t :=
  carries.mono (List.subset_append_right ..)

theorem throughFirst (carries : s.Carries env queries t) : s.throughFirst.Carries env queries t.throughFirst where
  column c := by
    rw [column_throughFirst, column_throughFirst]
    exact carries.column c
  query q member := by
    rw [subquery_throughFirst, subquery_throughFirst]
    exact carries.query q member
  group := by rw [group?_throughFirst, group?_throughFirst, carries.group]
  outer := by rw [outer_throughFirst, outer_throughFirst, carries.outer]
  proposed := by rw [proposed_throughFirst, proposed_throughFirst, carries.proposed]

/-- The members of a group look the same from both scopes. -/
theorem member (carries : s.Carries env queries t) (row : Row) : s.member row = t.member row := by
  unfold Scope.member
  rw [carries.outer, carries.proposed]

end Carries

end Scope

namespace Env
variable {env : Env} {queries : List Select} {s t : Scope}

theorem memberValues_same (reading : Reading) (carries : s.Carries env queries t) (rows : List Row) :
    memberValues reading s rows = memberValues reading t rows := by
  induction rows with
  | nil => rfl
  | cons row rows ih =>
    unfold memberValues
    rw [ih, carries.member]

/-- An aggregate sees the group and nothing else. -/
theorem aggregate_same (f : Aggregate) (args : List (Expr × Reading)) (distinct : Bool)
    (carries : s.Carries env queries t) : aggregate f args distinct s = aggregate f args distinct t := by
  unfold aggregate
  simp only [carries.group, fun reading => memberValues_same reading carries]

theorem columnOf_carries {q : Select} (rows : Outcome.Carries (env.subquery q s) (env.subquery q t)) :
    Outcome.Carries (env.columnOf q s) (env.columnOf q t) :=
  rows.bind fun _ => .refl _

theorem scalarOf_carries {q : Select} (rows : Outcome.Carries (env.subquery q s) (env.subquery q t)) :
    Outcome.Carries (env.scalarOf q s) (env.scalarOf q t) :=
  (columnOf_carries rows).bind fun _ => .refl _

/-- What the arguments of a call give in one scope, they give in the other. -/
def ArgumentsCarry (env : Env) (args : List (Expr × Reading)) (s t : Scope) : Prop :=
  ∀ p ∈ args, Outcome.Carries (p.2 s) (p.2 t) ∧
    ∀ q, p.1 = .subquery q → Outcome.Carries (env.subquery q s) (env.subquery q t)

theorem ArgumentsCarry.alike {args : List (Expr × Reading)} (each : env.ArgumentsCarry args s t) :
    List.Forall₂ (Alike Outcome.Carries env env s t) args args :=
  List.forall₂_same.mpr fun p member => ⟨(each p member).1, fun _ => .rfl, fun _ => .rfl, (each p member).2⟩

theorem call_carries {function : String} {args : List (Expr × Reading)} (distinct : Bool)
    (carries : s.Carries env queries t)
    (each : Aggregate.ofName? function = none → env.ArgumentsCarry args s.throughFirst t.throughFirst) :
    Outcome.Carries (env.call function args distinct s) (env.call function args distinct t) :=
  call_related Outcome.sequential_carries rfl distinct (fun _ _ => .of_eq (aggregate_same _ _ _ carries))
    (fun scalar => (each scalar).alike) carries.throughFirst.proposed

end Env

mutual

/-- An expression that has a value in one scope has it wherever what it reads is carried. -/
theorem Expr.eval_carries {env : Env} : (e : Expr) → {s t : Scope} → s.Carries env e.ownQueries t →
    Outcome.Carries (e.eval env s) (e.eval env t)
  | .column c, s, t, carries => by
    unfold Expr.eval
    exact carries.column c
  | .literal _, s, t, _ => by
    unfold Expr.eval
    exact .refl _
  | .star _, s, t, _ => by
    unfold Expr.eval
    exact .refl _
  | .call function args distinct, s, t, carries => by
    unfold Expr.ownQueries at carries
    unfold Expr.eval
    refine Env.call_carries distinct carries fun scalar => ?_
    rw [scalar] at carries
    exact Expr.readings_carry args carries.throughFirst
  | .binary op l r, s, t, carries => by
    unfold Expr.ownQueries at carries
    unfold Expr.eval
    refine (l.eval_carries carries.left).bind fun v => ?_
    split
    · exact .refl _
    · exact (r.eval_carries carries.right).bind fun _ => .refl _
  | .unary .not e, s, t, carries => by
    unfold Expr.ownQueries at carries
    unfold Expr.eval
    exact (e.eval_carries carries).bind fun _ => .refl _
  | .unary .negate e, s, t, carries => by
    unfold Expr.ownQueries at carries
    unfold Expr.eval
    exact (e.eval_carries carries).bind fun _ => .refl _
  | .isNull e _, s, t, carries => by
    unfold Expr.ownQueries at carries
    unfold Expr.eval
    exact (e.eval_carries carries).bind fun _ => .refl _
  | .inList e items _, s, t, carries => by
    unfold Expr.ownQueries at carries
    unfold Expr.eval
    refine (e.eval_carries carries.left).bind fun _ => ?_
    refine (Outcome.Carries.mapM fun p member => ?_).bind fun _ => .refl _
    exact (Expr.readings_carry items carries.right p member).1
  | .inQuery e q _, s, t, carries => by
    unfold Expr.ownQueries at carries
    unfold Expr.eval
    refine (e.eval_carries carries.left).bind fun _ => ?_
    exact (Env.columnOf_carries (carries.right.query q (List.mem_singleton_self q))).bind fun _ => .refl _
  | .between e low high _, s, t, carries => by
    unfold Expr.ownQueries at carries
    unfold Expr.eval
    exact (e.eval_carries carries.left).bind fun _ => (low.eval_carries carries.right.left).bind fun _ =>
      (high.eval_carries carries.right.right).bind fun _ => .refl _
  | .subquery q, s, t, carries => by
    unfold Expr.ownQueries at carries
    unfold Expr.eval
    exact Env.scalarOf_carries (carries.query q (List.mem_singleton_self q))

theorem Expr.readings_carry {env : Env} : (es : List Expr) → {s t : Scope} →
    s.Carries env (Expr.ownQueriesAll es) t → env.ArgumentsCarry (Expr.readings env es) s t
  | [], s, t, _ => by
    unfold Expr.readings
    exact nofun
  | e :: es, s, t, carries => by
    unfold Expr.ownQueriesAll at carries
    unfold Expr.readings
    refine List.forall_mem_cons.mpr ⟨⟨e.eval_carries carries.left, fun q same => ?_⟩,
      Expr.readings_carry es carries.right⟩
    refine carries.left.query q ?_
    cases same
    simp [Expr.ownQueries]

end

end MiniSql
