import MiniSql.Proofs.FilledIn
import MiniSql.Proofs.SelfContained

namespace MiniSql

mutual

/-- Where no aggregate is called, nothing is filled in. -/
theorem Expr.filled_plain (value : Expr → Value) : (e : Expr) → e.hasAggregate = false → e.filled value = e
  | .column _, _ | .literal _, _ | .subquery _, _ | .star _, _ => by
    unfold Expr.filled
    rfl
  | .call function args _, plain => by
    unfold Expr.hasAggregate at plain
    rw [Bool.or_eq_false_iff] at plain
    unfold Expr.filled
    rw [plain.1, Expr.allFilled_plain value args plain.2]
    rfl
  | .binary _ l r, plain => by
    unfold Expr.hasAggregate at plain
    rw [Bool.or_eq_false_iff] at plain
    unfold Expr.filled
    rw [l.filled_plain value plain.1, r.filled_plain value plain.2]
  | .unary _ e, plain | .isNull e _, plain | .inQuery e _ _, plain => by
    unfold Expr.hasAggregate at plain
    unfold Expr.filled
    rw [e.filled_plain value plain]
  | .inList e items _, plain => by
    unfold Expr.hasAggregate at plain
    rw [Bool.or_eq_false_iff] at plain
    unfold Expr.filled
    rw [e.filled_plain value plain.1, Expr.allFilled_plain value items plain.2]
  | .between e low high _, plain => by
    unfold Expr.hasAggregate at plain
    rw [Bool.or_eq_false_iff, Bool.or_eq_false_iff] at plain
    unfold Expr.filled
    rw [e.filled_plain value plain.1.1, low.filled_plain value plain.1.2, high.filled_plain value plain.2]

theorem Expr.allFilled_plain (value : Expr → Value) : (es : List Expr) → Expr.anyAggregate es = false →
    Expr.allFilled value es = es
  | [], _ => by
    unfold Expr.allFilled
    rfl
  | e :: es, plain => by
    unfold Expr.anyAggregate at plain
    rw [Bool.or_eq_false_iff] at plain
    unfold Expr.allFilled
    rw [e.filled_plain value plain.1, Expr.allFilled_plain value es plain.2]

end

/-- Among these nodes there are only columns to be read. -/
def Expr.ReadsColumns (nodes : List Node) (parts : List Expr) : Prop :=
  ∀ part ∈ parts, ∃ c, part = .column c ∧ .expr part ∈ nodes

namespace Expr.ReadsColumns
variable {nodes more : List Node} {parts others : List Expr}

theorem inside (e : Expr) (reads : ReadsColumns nodes parts) : ReadsColumns (.expr e :: nodes) parts := by
  intro part member
  obtain ⟨c, same, node⟩ := reads part member
  exact ⟨c, same, List.mem_cons_of_mem _ node⟩

theorem append (first : ReadsColumns nodes parts) (second : ReadsColumns more others) :
    ReadsColumns (nodes ++ more) (parts ++ others) := by
  intro part member
  rcases List.mem_append.mp member with inFirst | inSecond
  · obtain ⟨c, same, node⟩ := first part inFirst
    exact ⟨c, same, List.mem_append_left more node⟩
  · obtain ⟨c, same, node⟩ := second part inSecond
    exact ⟨c, same, List.mem_append_right nodes node⟩

end Expr.ReadsColumns

mutual

/-- Without subqueries and aggregates an expression reads nothing but its columns. -/
theorem Expr.reads_plain : (e : Expr) → e.isSelfContained = true → e.hasAggregate = false →
    Expr.ReadsColumns e.nodes e.reads
  | .column c, _, _ => by
    unfold Expr.reads Expr.nodes
    intro part member
    obtain rfl := List.mem_singleton.mp member
    exact ⟨c, rfl, List.mem_singleton_self _⟩
  | .literal _, _, _ | .star _, _, _ => by
    unfold Expr.reads
    exact nofun
  | .call function args _, alone, plain => by
    unfold Expr.isSelfContained at alone
    unfold Expr.hasAggregate at plain
    rw [Bool.and_eq_true] at alone
    rw [Bool.or_eq_false_iff] at plain
    unfold Expr.reads Expr.nodes
    rw [plain.1]
    exact (Expr.readsAll_plain args alone.2 plain.2).inside _
  | .binary _ l r, alone, plain => by
    unfold Expr.isSelfContained at alone
    unfold Expr.hasAggregate at plain
    rw [Bool.and_eq_true] at alone
    rw [Bool.or_eq_false_iff] at plain
    unfold Expr.reads Expr.nodes
    exact ((l.reads_plain alone.1 plain.1).append (r.reads_plain alone.2 plain.2)).inside _
  | .unary _ e, alone, plain | .isNull e _, alone, plain => by
    unfold Expr.isSelfContained at alone
    unfold Expr.hasAggregate at plain
    unfold Expr.reads Expr.nodes
    exact (e.reads_plain alone plain).inside _
  | .inList e items _, alone, plain => by
    unfold Expr.isSelfContained at alone
    unfold Expr.hasAggregate at plain
    rw [Bool.and_eq_true] at alone
    rw [Bool.or_eq_false_iff] at plain
    unfold Expr.reads Expr.nodes
    exact ((e.reads_plain alone.1 plain.1).append (Expr.readsAll_plain items alone.2 plain.2)).inside _
  | .between e low high _, alone, plain => by
    unfold Expr.isSelfContained at alone
    unfold Expr.hasAggregate at plain
    rw [Bool.and_eq_true, Bool.and_eq_true] at alone
    rw [Bool.or_eq_false_iff, Bool.or_eq_false_iff] at plain
    unfold Expr.reads Expr.nodes
    exact ((e.reads_plain alone.1.1 plain.1.1).append
      ((low.reads_plain alone.1.2 plain.1.2).append (high.reads_plain alone.2 plain.2))).inside _
  | .inQuery _ _ _, alone, _ => by cases alone
  | .subquery _, alone, _ => by cases alone

theorem Expr.readsAll_plain : (es : List Expr) → Expr.areSelfContained es = true → Expr.anyAggregate es = false →
    Expr.ReadsColumns (Expr.nodesAll es) (Expr.readsAll es)
  | [], _, _ => by
    unfold Expr.readsAll
    exact nofun
  | e :: es, alone, plain => by
    unfold Expr.areSelfContained at alone
    unfold Expr.anyAggregate at plain
    rw [Bool.and_eq_true] at alone
    rw [Bool.or_eq_false_iff] at plain
    unfold Expr.readsAll Expr.nodesAll
    exact (e.reads_plain alone.1 plain.1).append (Expr.readsAll_plain es alone.2 plain.2)

end

/-- An expression without subqueries and aggregates has the same value in all scopes that give its columns
the same. -/
theorem Expr.eval_same_columns {env : Env} {s t : Scope} (e : Expr) (alone : e.isSelfContained = true)
    (plain : e.hasAggregate = false) (columns : ∀ c, .expr (.column c) ∈ e.nodes → env.column c s = env.column c t)
    (proposed : s.proposed = t.proposed) : e.eval env s = e.eval env t := by
  have mirrors : s.Mirrors env (fun _ => .null) e.reads t := by
    refine ⟨fun part member => ?_, proposed⟩
    obtain ⟨c, rfl, node⟩ := e.reads_plain alone plain part member
    exact columns c node
  rw [e.eval_filled mirrors, e.filled_plain _ plain]

end MiniSql
