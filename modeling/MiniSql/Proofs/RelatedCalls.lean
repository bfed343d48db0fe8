import Mathlib.Data.List.Forall2
import Mathlib.Data.Option.Defs
import MiniSql.Eval
import MiniSql.Proofs.Outcome

namespace MiniSql

/-- A relation that every outcome has to itself, and that two computations keep as long as they go on from
the same values to related outcomes. -/
structure Outcome.Sequential (R : {α : Type} → Outcome α → Outcome α → Prop) : Prop where
  refl : ∀ {α : Type} (x : Outcome α), R x x
  bind : ∀ {α β : Type} {x y : Outcome α} {f g : α → Outcome β}, R x y → (∀ a, R (f a) (g a)) → R (x >>= f) (y >>= g)

namespace Outcome

theorem sequential_eq : Sequential fun x y => x = y where
  refl _ := rfl
  bind first rest := by rw [first, funext rest]

namespace Sequential
variable {α β γ : Type} {R : {α : Type} → Outcome α → Outcome α → Prop}

theorem mapM (sequential : Sequential R) {f : α → Outcome γ} {g : β → Outcome γ} {as : List α} {bs : List β}
    (each : List.Forall₂ (fun a b => R (f a) (g b)) as bs) : R (as.mapM f) (bs.mapM g) := by
  induction each with
  | nil => exact sequential.refl _
  | cons first _ ih =>
    rw [List.mapM_cons, List.mapM_cons]
    exact sequential.bind first fun _ => sequential.bind ih fun _ => sequential.refl _

theorem coalesce (sequential : Sequential R) {s t : Scope} {readings readings' : List Reading}
    (each : List.Forall₂ (fun r r' => R (r s) (r' t)) readings readings') :
    R (Env.coalesce s readings) (Env.coalesce t readings') := by
  induction each with
  | nil => exact sequential.refl _
  | cons first _ ih =>
    unfold Env.coalesce
    refine sequential.bind first fun v => ?_
    split
    · exact ih
    · exact sequential.refl _

end Sequential

end Outcome

namespace Env
variable {R : {α : Type} → Outcome α → Outcome α → Prop} {env env' : Env} {s t : Scope}
  {args args' : List (Expr × Reading)} {function : String}

/-- An argument of a call, and one in another environment and scope that a call cannot tell from it: their
values are related, and if one is a column or a subquery, the other is the same. -/
structure Alike (R : {α : Type} → Outcome α → Outcome α → Prop) (env env' : Env) (s t : Scope)
    (p p' : Expr × Reading) : Prop where
  value : R (p.2 s) (p'.2 t)
  column : ∀ c, p.1 = .column c ↔ p'.1 = .column c
  subquery : ∀ q, p.1 = .subquery q ↔ p'.1 = .subquery q
  rows : ∀ q, p.1 = .subquery q → R (env.subquery q s) (env'.subquery q t)

theorem checkArity_eq_ok {function : String} {arity : Arity} {count : Nat} {u : Unit}
    (run : checkArity function arity count = .ok u) : arity.admits count = true := by
  unfold checkArity at run
  split at run
  · assumption
  · cases run

/-- A function of one argument has one on both sides. -/
theorem single_of_admitted {P : Expr × Reading → Expr × Reading → Prop} {u : Unit} (each : List.Forall₂ P args args')
    (admitted : checkArity function (.exactly 1) args'.length = .ok u) :
    ∃ p p', args = [p] ∧ args' = [p'] ∧ P p p' := by
  have one : args'.length = 1 := of_decide_eq_true (checkArity_eq_ok admitted)
  obtain ⟨p', rfl⟩ := List.length_eq_one_iff.mp one
  obtain ⟨p, rfl⟩ := List.length_eq_one_iff.mp (each.length_eq.trans one)
  exact ⟨p, p', rfl, rfl, (List.forall₂_cons.mp each).1⟩

theorem exists_related (sequential : Outcome.Sequential R) (each : List.Forall₂ (Alike R env env' s t) args args') :
    Option.Rel R (env.control? "EXISTS" args s) (env'.control? "EXISTS" args' t) := by
  unfold control?
  refine .some ?_
  rw [each.length_eq]
  cases admitted : checkArity "EXISTS" (.exactly 1) args'.length with
  | error fault => exact sequential.refl _
  | ok u =>
    obtain ⟨⟨e, reading⟩, ⟨e', reading'⟩, rfl, rfl, alike⟩ := single_of_admitted each admitted
    cases e with
    | subquery q =>
      obtain rfl : e' = .subquery q := (alike.subquery q).mp rfl
      refine sequential.bind (sequential.refl _) fun _ => ?_
      exact sequential.bind (alike.rows q rfl) fun _ => sequential.refl _
    | _ =>
      cases e' with
      | subquery q => cases (alike.subquery q).mpr rfl
      | _ => exact sequential.refl _

theorem values_related (sequential : Outcome.Sequential R) (each : List.Forall₂ (Alike R env env' s t) args args')
    (proposed : s.proposed = t.proposed) :
    Option.Rel R (env.control? "VALUES" args s) (env'.control? "VALUES" args' t) := by
  unfold control?
  refine .some ?_
  rw [each.length_eq, proposed]
  cases admitted : checkArity "VALUES" (.exactly 1) args'.length with
  | error fault => exact sequential.refl _
  | ok u =>
    obtain ⟨⟨e, reading⟩, ⟨e', reading'⟩, rfl, rfl, alike⟩ := single_of_admitted each admitted
    cases e with
    | column c =>
      obtain rfl : e' = .column c := (alike.column c).mp rfl
      exact sequential.refl _
    | _ =>
      cases e' with
      | column c => cases (alike.column c).mpr rfl
      | _ => exact sequential.refl _

theorem control?_related (sequential : Outcome.Sequential R) (function : String)
    (each : List.Forall₂ (Alike R env env' s t) args args') (proposed : s.proposed = t.proposed) :
    Option.Rel R (env.control? function args s) (env'.control? function args' t) := by
  have coalesced : R (coalesce s (args.map Prod.snd)) (coalesce t (args'.map Prod.snd)) := by
    refine sequential.coalesce (List.forall₂_map_left_iff.mpr (List.forall₂_map_right_iff.mpr ?_))
    exact each.imp fun _ _ alike => alike.value
  have checked {arity : Arity} {x y : Outcome Value} (related : R x y) :
      R (checkArity function arity args.length >>= fun _ => x) (checkArity function arity args'.length >>= fun _ => y) :=
    each.length_eq ▸ sequential.bind (sequential.refl _) fun _ => related
  unfold control?
  split
  · refine .some (checked ?_)
    rcases each with _ | ⟨condition, _ | ⟨whenTrue, _ | ⟨otherwise, _ | _⟩⟩⟩
    case cons.cons.cons.nil =>
      refine sequential.bind condition.value fun v => ?_
      split
      · exact whenTrue.value
      · exact otherwise.value
    all_goals exact sequential.refl _
  · exact .some (checked coalesced)
  · exact .some (checked coalesced)
  · refine .some (checked ?_)
    rcases each with _ | ⟨first, _ | ⟨second, _ | _⟩⟩
    case cons.cons.nil =>
      exact sequential.bind first.value fun v => sequential.bind second.value fun w => sequential.refl _
    all_goals exact sequential.refl _
  · exact exists_related sequential each
  · exact values_related sequential each proposed
  · exact .none

/-- Calls are related if their arguments are: those of an aggregate by what it makes of them, all others in
the row that the call sees. -/
theorem call_related (sequential : Outcome.Sequential R) (setting : env.setting = env'.setting) (distinct : Bool)
    (aggregates : ∀ f, Aggregate.ofName? function = some f → R (aggregate f args distinct s) (aggregate f args' distinct t))
    (each : Aggregate.ofName? function = none →
      List.Forall₂ (Alike R env env' s.throughFirst t.throughFirst) args args')
    (proposed : s.throughFirst.proposed = t.throughFirst.proposed) :
    R (env.call function args distinct s) (env'.call function args' distinct t) := by
  unfold call
  cases kind : Aggregate.ofName? function with
  | some f => exact aggregates f kind
  | none =>
    have each := each kind
    have control := control?_related sequential function each proposed
    simp only
    cases inFirst : env.control? function args s.throughFirst <;>
      cases inSecond : env'.control? function args' t.throughFirst <;>
      rw [inFirst, inSecond] at control
    · cases ScalarFunction.ofName? function with
      | none => exact sequential.refl _
      | some scalar =>
        rw [each.length_eq, setting]
        refine sequential.bind (sequential.refl _) fun _ => sequential.bind ?_ fun _ => sequential.refl _
        exact sequential.mapM (each.imp fun _ _ alike => alike.value)
    · cases control
    · cases control
    · cases control
      assumption

end Env

end MiniSql
