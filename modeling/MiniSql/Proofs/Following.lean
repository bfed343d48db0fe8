import MiniSql.Proofs.Pipeline
import MiniSql.Proofs.Transfer

namespace MiniSql

namespace Outcome
variable {α β : Type} {strict : Bool}

/-- The two are the same, or else, where names are taken strictly, the first refuses one as ambiguous. -/
def Follows (strict : Bool) (x y : Outcome α) : Prop :=
  x = y ∨ strict = true ∧ ∃ name, x = refuse (.ambiguousColumn name)

theorem Follows.refl (x : Outcome α) : Follows strict x x :=
  .inl rfl

theorem Follows.bind {x y : Outcome α} {f g : α → Outcome β} (first : Follows strict x y)
    (rest : ∀ a, y = .ok a → Follows strict (f a) (g a)) : Follows strict (x >>= f) (y >>= g) := by
  rcases first with rfl | ⟨asked, name, rfl⟩
  · cases x with
    | error fault => exact .refl _
    | ok a => exact rest a rfl
  · exact .inr ⟨asked, name, rfl⟩

theorem sequential_follows (strict : Bool) : Sequential (Follows strict) where
  refl := .refl
  bind first rest := first.bind fun a _ => rest a

theorem Follows.mapM {f g : α → Outcome β} {as : List α} (each : ∀ a ∈ as, Follows strict (f a) (g a)) :
    Follows strict (as.mapM f) (as.mapM g) :=
  (sequential_follows strict).mapM (List.forall₂_same.mpr each)

theorem Follows.gather {f g : α → Outcome (List β)} {as : List α} (each : ∀ a ∈ as, Follows strict (f a) (g a)) :
    Follows strict (gather f as) (gather g as) := by
  induction as with
  | nil => exact .refl _
  | cons a as ih =>
    rw [List.forall_mem_cons] at each
    unfold MiniSql.gather
    exact each.1.bind fun bs _ => (ih each.2).bind fun more _ => .refl _

theorem Follows.keepIf {p q : α → Outcome Bool} {as : List α} (each : ∀ a ∈ as, Follows strict (p a) (q a)) :
    Follows strict (keepIf p as) (keepIf q as) := by
  induction as with
  | nil => exact .refl _
  | cons a as ih =>
    rw [List.forall_mem_cons] at each
    unfold MiniSql.keepIf
    exact each.1.bind fun keep _ => (ih each.2).bind fun rest _ => .refl _

end Outcome

/-- A scope with a row to read, and none around it. -/
structure Scope.Inner (s : Scope) : Prop where
  read : ∃ row, s.row? = some row
  alone : s.outer = none

namespace Scope.Inner
variable {s : Scope}

theorem single (row : Row) : (Scope.single row).Inner := ⟨⟨row, rfl⟩, rfl⟩

theorem withAliases (inner : s.Inner) (out : Row) : { s with aliases := some out }.Inner :=
  ⟨inner.read, inner.alone⟩

theorem member (inner : s.Inner) (row : Row) : (s.member row).Inner := ⟨⟨row, rfl⟩, inner.alone⟩

theorem throughFirst (inner : s.Inner) : s.throughFirst.Inner := by
  refine ⟨?_, (outer_throughFirst s).trans inner.alone⟩
  rw [row?_throughFirst]
  exact inner.read

end Scope.Inner

/-- Two ways to evaluate expressions, the first of which follows the second in all scopes with a row. -/
def EvalFollows (strict : Bool) (eval eval' : Expr → Reading) : Prop :=
  ∀ e s, s.Inner → Outcome.Follows strict (eval e s) (eval' e s)

section
variable {strict : Bool} {eval eval' : Expr → Reading} {load load' : Source → Outcome Relation}

theorem passesBy_follows (follows : EvalFollows strict eval eval') (condition : Option Expr) {s : Scope}
    (inner : s.Inner) : Outcome.Follows strict (passesBy eval condition s) (passesBy eval' condition s) := by
  cases condition with
  | none => exact .refl _
  | some e => exact (follows e s inner).bind fun _ _ => .refl _

namespace Relation

theorem joinRows_follows {p q : Row → Outcome Bool} (each : ∀ row, Outcome.Follows strict (p row) (q row))
    (kind : JoinKind) (left right : Relation) :
    Outcome.Follows strict (joinRows p kind left right) (joinRows q kind left right) := by
  cases kind with
  | inner => exact .gather fun l _ => .keepIf fun row _ => each row
  | cross => exact .gather fun l _ => .keepIf fun row _ => each row
  | left => exact .gather fun l _ => .bind (.keepIf fun row _ => each row) fun _ _ => .refl _
  | right => exact .gather fun r _ => .bind (.keepIf fun row _ => each row) fun _ _ => .refl _

theorem joinAllBy_follows (follows : EvalFollows strict eval eval')
    (loads : ∀ s, Outcome.Follows strict (load s) (load' s)) (left : Relation) (ss : List Source) :
    Outcome.Follows strict (joinAllBy load eval left ss) (joinAllBy load' eval' left ss) := by
  induction ss generalizing left with
  | nil => exact .refl _
  | cons s ss ih =>
    refine (loads s).bind fun right _ => .bind ?_ fun joined _ => ih joined
    refine .bind (joinRows_follows (fun row => ?_) s.kind left right) fun _ _ => .refl _
    exact passesBy_follows follows s.predicate? (.single row)

theorem ofSourcesBy_follows (follows : EvalFollows strict eval eval')
    (loads : ∀ s, Outcome.Follows strict (load s) (load' s)) (ss : List Source) :
    Outcome.Follows strict (ofSourcesBy load eval ss) (ofSourcesBy load' eval' ss) := by
  cases ss with
  | nil => exact .refl _
  | cons s ss => exact (loads s).bind fun left _ => joinAllBy_follows follows loads left ss

end Relation

namespace Select
variable {q : Select}

theorem scopesBy_follows (follows : EvalFollows strict eval eval') (header : Row) (rows : List Row) :
    Outcome.Follows strict (q.scopesBy eval header rows) (q.scopesBy eval' header rows) := by
  have key : ∀ exprs row, Outcome.Follows strict (keyBy eval exprs row) (keyBy eval' exprs row) := fun exprs row =>
    .bind (.mapM fun e _ => follows e _ (.single row)) fun _ _ => .refl _
  have groups : Outcome.Follows strict (q.groupsBy eval header rows) (q.groupsBy eval' header rows) := by
    unfold groupsBy
    split
    · exact .refl _
    · refine .bind (.refl _) fun exprs _ => .bind (.mapM fun row _ => ?_) fun _ _ => .refl _
      exact (key exprs row).bind fun _ _ => .refl _
  unfold scopesBy
  split
  · exact groups.bind fun _ _ => .refl _
  · exact .refl _

/-- Every scope of a SELECT has a row: an empty group has one of NULLs. -/
theorem scopesBy_inner {header : Row} {rows : List Row} {scopes : List Scope}
    (run : q.scopesBy eval header rows = .ok scopes) : ∀ s ∈ scopes, s.Inner := by
  intro s member
  unfold scopesBy at run
  split at run
  · obtain ⟨groups, _, same⟩ := Outcome.bind_eq_ok.mp run
    cases Outcome.pure_eq_ok.mp same
    obtain ⟨group, _, rfl⟩ := List.mem_map.mp member
    cases group with
    | nil => exact ⟨⟨header, rfl⟩, rfl⟩
    | cons row group => exact ⟨⟨row, rfl⟩, rfl⟩
  · cases Outcome.pure_eq_ok.mp run
    obtain ⟨row, _, rfl⟩ := List.mem_map.mp member
    exact .single row

theorem outputRowBy_follows (follows : EvalFollows strict eval eval') {s : Scope} (inner : s.Inner) (out : Row)
    (items : List Item) : Outcome.Follows strict (outputRowBy eval s out items) (outputRowBy eval' s out items) := by
  induction items generalizing out with
  | nil => exact .refl _
  | cons item more ih =>
    unfold outputRowBy
    cases item.expr with
    | star table => exact ih _
    | _ => exact (follows _ s inner).bind fun v _ => ih _

theorem projectBy_follows (follows : EvalFollows strict eval eval') (columns : List String) {s : Scope}
    (inner : s.Inner) : Outcome.Follows strict (q.projectBy eval columns s) (q.projectBy eval' columns s) := by
  refine (outputRowBy_follows follows inner {} q.items).bind fun out _ => ?_
  have visible := inner.withAliases out
  have key : ∀ k, Outcome.Follows strict (sortKeyBy eval columns out { s with aliases := some out } k)
      (sortKeyBy eval' columns out { s with aliases := some out } k) := by
    intro k
    unfold sortKeyBy
    split
    · exact .refl _
    · exact follows k.expr _ visible
  refine (passesBy_follows follows q.having visible).bind fun keep _ => ?_
  split
  · exact .bind (.mapM fun k _ => key k) fun _ _ => .refl _
  · exact .refl _

/-- A SELECT follows another one if the values of its expressions and the rows of its sources do. -/
theorem runBy_follows (follows : EvalFollows strict eval eval')
    (loads : ∀ s, Outcome.Follows strict (load s) (load' s)) (q : Select) :
    Outcome.Follows strict (q.runBy load eval) (q.runBy load' eval') := by
  refine (Relation.ofSourcesBy_follows follows loads q.sources).bind fun relation _ => ?_
  refine .bind (.refl _) fun columns _ => ?_
  refine .bind (.keepIf fun row _ => passesBy_follows follows q.filter (.single row)) fun rows _ => ?_
  refine (scopesBy_follows follows relation.header rows).bind fun scopes listed => ?_
  refine .bind (.gather fun s member => ?_) fun _ _ => .refl _
  exact projectBy_follows follows columns (scopesBy_inner listed s member)

end Select

end

end MiniSql
