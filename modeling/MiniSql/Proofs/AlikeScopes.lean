import MiniSql.Proofs.Matching
import MiniSql.Proofs.SelfContained
import MiniSql.Proofs.Transfer

namespace MiniSql

/-- Nothing that is read without a subquery tells the scopes of this relation apart: they give the columns the same
values, and groups of as many members, of which the same can be said one by one. -/
structure Env.BlindTo (env : Env) (T : Scope → Scope → Prop) : Prop where
  column : ∀ {s t}, T s t → ∀ c, env.column c s = env.column c t
  members : ∀ {s t}, T s t →
    Option.Rel (List.Forall₂ fun row row' => T (s.member row) (t.member row')) s.group? t.group?
  proposed : ∀ {s t}, T s t → s.proposed = t.proposed
  throughFirst : ∀ {s t}, T s t → T s.throughFirst t.throughFirst
  withOutput : ∀ {s t}, T s t → ∀ out, T { s with aliases := some out } { t with aliases := some out }

/-- A reading that gives the same in all scopes of the relation. -/
def Reading.Respects (T : Scope → Scope → Prop) (reading : Reading) : Prop :=
  ∀ s t, T s t → reading s = reading t

namespace Env.BlindTo
variable {env : Env} {T : Scope → Scope → Prop} {s t : Scope}

theorem memberValues {reading : Reading} (same : Reading.Respects T reading) {rows rows' : List Row}
    (each : List.Forall₂ (fun row row' => T (s.member row) (t.member row')) rows rows') :
    Env.memberValues reading s rows = Env.memberValues reading t rows' := by
  induction each with
  | nil => rfl
  | cons first _ ih =>
    unfold Env.memberValues
    rw [same _ _ first, ih]

theorem aggregate (blind : env.BlindTo T) (f : Aggregate) {args : List (Expr × Reading)} (distinct : Bool)
    (same : ∀ p ∈ args, Reading.Respects T p.2) (related : T s t) :
    Env.aggregate f args distinct s = Env.aggregate f args distinct t := by
  have members := blind.members related
  unfold Env.aggregate
  generalize s.group? = group at members ⊢
  generalize t.group? = group' at members ⊢
  cases members with
  | none => rfl
  | some each =>
    refine Outcome.bind_congr fun _ _ => ?_
    split
    · rw [each.length_eq]
    · have steady := same _ (List.mem_singleton_self _)
      rw [Env.BlindTo.memberValues steady each]
    · rfl

theorem call (blind : env.BlindTo T) (function : String) {args : List (Expr × Reading)} (distinct : Bool)
    (same : ∀ p ∈ args, Reading.Respects T p.2 ∧ ∀ q, p.1 ≠ .subquery q) (related : T s t) :
    env.call function args distinct s = env.call function args distinct t := by
  refine call_related Outcome.sequential_eq rfl distinct
    (fun f _ => blind.aggregate f distinct (fun p member => (same p member).1) related)
    (fun _ => List.forall₂_same.mpr fun p member => ?_) (blind.proposed (blind.throughFirst related))
  exact ⟨(same p member).1 _ _ (blind.throughFirst related), fun _ => .rfl, fun _ => .rfl,
    fun q isQuery => absurd isQuery ((same p member).2 q)⟩

end Env.BlindTo

mutual

/-- An expression without subqueries has the same value, or the same error, in scopes that reading does not tell
apart. -/
theorem Expr.eval_blind {env : Env} {T : Scope → Scope → Prop} (blind : env.BlindTo T) :
    (e : Expr) → e.isSelfContained = true → Reading.Respects T (e.eval env)
  | .column c, _, s, t, related => by
    unfold Expr.eval
    exact blind.column related c
  | .literal _, _, s, t, _ => by
    unfold Expr.eval
    rfl
  | .star _, _, s, t, _ => by
    unfold Expr.eval
    rfl
  | .call function args distinct, plain, s, t, related => by
    unfold Expr.isSelfContained at plain
    rw [Bool.and_eq_true] at plain
    unfold Expr.eval
    exact blind.call function distinct (Expr.readings_blind blind args plain.2) related
  | .binary op l r, plain, s, t, related => by
    unfold Expr.isSelfContained at plain
    rw [Bool.and_eq_true] at plain
    unfold Expr.eval
    rw [l.eval_blind blind plain.1 _ _ related, r.eval_blind blind plain.2 _ _ related]
  | .unary .not e, plain, s, t, related => by
    unfold Expr.isSelfContained at plain
    unfold Expr.eval
    rw [e.eval_blind blind plain _ _ related]
  | .unary .negate e, plain, s, t, related => by
    unfold Expr.isSelfContained at plain
    unfold Expr.eval
    rw [e.eval_blind blind plain _ _ related]
  | .isNull e _, plain, s, t, related => by
    unfold Expr.isSelfContained at plain
    unfold Expr.eval
    rw [e.eval_blind blind plain _ _ related]
  | .inList e items _, plain, s, t, related => by
    unfold Expr.isSelfContained at plain
    rw [Bool.and_eq_true] at plain
    unfold Expr.eval
    have each := Expr.readings_blind blind items plain.2
    have candidates := Outcome.mapM_congr fun p member => (each p member).1 _ _ related
    rw [e.eval_blind blind plain.1 _ _ related, candidates]
  | .inQuery _ _ _, plain, _, _, _ => by cases plain
  | .between e low high _, plain, s, t, related => by
    unfold Expr.isSelfContained at plain
    rw [Bool.and_eq_true, Bool.and_eq_true] at plain
    unfold Expr.eval
    rw [e.eval_blind blind plain.1.1 _ _ related, low.eval_blind blind plain.1.2 _ _ related,
      high.eval_blind blind plain.2 _ _ related]
  | .subquery _, plain, _, _, _ => by cases plain

theorem Expr.readings_blind {env : Env} {T : Scope → Scope → Prop} (blind : env.BlindTo T) :
    (es : List Expr) → Expr.areSelfContained es = true →
    ∀ p ∈ Expr.readings env es, Reading.Respects T p.2 ∧ ∀ q, p.1 ≠ .subquery q
  | [], _ => by
    unfold Expr.readings
    exact nofun
  | e :: es, plain => by
    unfold Expr.areSelfContained at plain
    rw [Bool.and_eq_true] at plain
    unfold Expr.readings
    refine List.forall_mem_cons.mpr ⟨⟨e.eval_blind blind plain.1, ?_⟩,
      Expr.readings_blind blind es plain.2⟩
    rintro q rfl
    cases plain.1

end

namespace Select

/-- A SELECT whose own expressions have no subqueries and do not read the clock, and whose list has no star. -/
structure SelfContained (q : Select) : Prop where
  noStar : ∀ item ∈ q.items, ∀ table, item.expr ≠ .star table
  items : ∀ item ∈ q.items, item.expr.isSelfContained = true
  filter : ∀ e ∈ q.filter, e.isSelfContained = true
  groupBy : ∀ e ∈ q.groupBy, e.isSelfContained = true
  having : ∀ e ∈ q.having, e.isSelfContained = true
  orderBy : ∀ key ∈ q.orderBy, key.expr.isSelfContained = true

variable {env : Env} {T : Scope → Scope → Prop} {s t : Scope}

theorem passes_blind (blind : env.BlindTo T) {condition : Option Expr}
    (plain : ∀ e ∈ condition, e.isSelfContained = true) (related : T s t) :
    passes env condition s = passes env condition t := by
  cases condition with
  | none => rfl
  | some e => rw [passes_some, passes_some, e.eval_blind blind (plain e rfl) _ _ related]

theorem outputRow_blind (blind : env.BlindTo T) {items : List Item}
    (noStar : ∀ item ∈ items, ∀ table, item.expr ≠ .star table)
    (plain : ∀ item ∈ items, item.expr.isSelfContained = true) (related : T s t) (out : Row) :
    outputRow env s out items = outputRow env t out items := by
  induction items generalizing out with
  | nil => rfl
  | cons item more ih =>
    rw [List.forall_mem_cons] at noStar plain
    unfold outputRow
    split
    · exact absurd ‹_› (noStar.1 _)
    · rw [item.expr.eval_blind blind plain.1 _ _ related]
      exact Outcome.bind_congr fun v _ => ih noStar.2 plain.2 _

theorem sortKey_blind (blind : env.BlindTo T) {key : OrderKey} (plain : key.expr.isSelfContained = true)
    (related : T s t) (columns : List String) (out : Row) :
    sortKey env columns out s key = sortKey env columns out t key := by
  unfold sortKey
  rw [key.expr.eval_blind blind plain _ _ related]

theorem project_blind (blind : env.BlindTo T) {q : Select} (plain : q.SelfContained) (related : T s t)
    (columns : List String) : q.project env columns s = q.project env columns t := by
  rw [project_eq, project_eq, outputRow_blind blind plain.noStar plain.items related]
  refine Outcome.bind_congr fun out _ => ?_
  have shown := blind.withOutput related out
  have keys := Outcome.mapM_congr fun key member => sortKey_blind blind (plain.orderBy key member) shown columns out
  rw [passes_blind blind plain.having shown, keys]

end Select

end MiniSql
