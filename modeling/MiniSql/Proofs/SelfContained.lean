import MiniSql.Proofs.Agreement

namespace MiniSql

mutual

/-- Whether an expression has no subquery in it and does not read the clock. -/
def Expr.isSelfContained : Expr → Bool
  | .column _ | .literal _ | .star _ => true
  | .call function args _ => !readsClock function args && Expr.areSelfContained args
  | .binary _ l r => l.isSelfContained && r.isSelfContained
  | .unary _ e => e.isSelfContained
  | .isNull e _ => e.isSelfContained
  | .inList e items _ => e.isSelfContained && Expr.areSelfContained items
  | .between e low high _ => e.isSelfContained && low.isSelfContained && high.isSelfContained
  | .inQuery _ _ _ | .subquery _ => false

def Expr.areSelfContained : List Expr → Bool
  | [] => true
  | e :: es => e.isSelfContained && Expr.areSelfContained es

end

mutual

theorem Expr.nodes_of_isSelfContained : (e : Expr) → e.isSelfContained = true →
    ∀ n ∈ e.nodes, n.isClock = false ∧ ∀ q, n ≠ .select q
  | .column _, _ | .literal _, _ | .star _, _ => by simp [Expr.nodes, Node.isClock]
  | .call function args distinct, plain => by
    unfold Expr.isSelfContained at plain
    rw [Bool.and_eq_true, Bool.not_eq_true'] at plain
    unfold Expr.nodes
    exact List.forall_mem_cons.mpr ⟨⟨plain.1, nofun⟩, Expr.nodes_of_areSelfContained args plain.2⟩
  | .binary op l r, plain => by
    unfold Expr.isSelfContained at plain
    rw [Bool.and_eq_true] at plain
    unfold Expr.nodes
    exact List.forall_mem_cons.mpr ⟨⟨rfl, nofun⟩, List.forall_mem_append.mpr
      ⟨Expr.nodes_of_isSelfContained l plain.1, Expr.nodes_of_isSelfContained r plain.2⟩⟩
  | .unary _ e, plain | .isNull e _, plain => by
    unfold Expr.isSelfContained at plain
    unfold Expr.nodes
    exact List.forall_mem_cons.mpr ⟨⟨rfl, nofun⟩, Expr.nodes_of_isSelfContained e plain⟩
  | .inList e items _, plain => by
    unfold Expr.isSelfContained at plain
    rw [Bool.and_eq_true] at plain
    unfold Expr.nodes
    exact List.forall_mem_cons.mpr ⟨⟨rfl, nofun⟩, List.forall_mem_append.mpr
      ⟨Expr.nodes_of_isSelfContained e plain.1, Expr.nodes_of_areSelfContained items plain.2⟩⟩
  | .between e low high _, plain => by
    unfold Expr.isSelfContained at plain
    rw [Bool.and_eq_true, Bool.and_eq_true] at plain
    unfold Expr.nodes
    exact List.forall_mem_cons.mpr ⟨⟨rfl, nofun⟩, List.forall_mem_append.mpr
      ⟨Expr.nodes_of_isSelfContained e plain.1.1, List.forall_mem_append.mpr
        ⟨Expr.nodes_of_isSelfContained low plain.1.2, Expr.nodes_of_isSelfContained high plain.2⟩⟩⟩
  | .inQuery _ _ _, plain => by cases plain
  | .subquery _, plain => by cases plain

theorem Expr.nodes_of_areSelfContained : (es : List Expr) → Expr.areSelfContained es = true →
    ∀ n ∈ Expr.nodesAll es, n.isClock = false ∧ ∀ q, n ≠ .select q
  | [], _ => nofun
  | e :: es, plain => by
    unfold Expr.areSelfContained at plain
    rw [Bool.and_eq_true] at plain
    unfold Expr.nodesAll
    exact List.forall_mem_append.mpr
      ⟨Expr.nodes_of_isSelfContained e plain.1, Expr.nodes_of_areSelfContained es plain.2⟩

end

/-- Environments in which expressions without subqueries have the same values, the clock apart. -/
def Env.Agree (env env' : Env) : Prop :=
  env.setting.config = env'.setting.config

/-- An expression that is self-contained has the same value whatever the tables hold and whatever the
time is. -/
theorem Expr.eval_congr {env env' : Env} (agree : env.Agree env') (e : Expr) (plain : e.isSelfContained = true) :
    e.eval env = e.eval env' := by
  have nodes := Expr.nodes_of_isSelfContained e plain
  exact Expr.eval_agree e
    ⟨agree, .inl fun n member => (nodes n member).1, fun q member => absurd rfl ((nodes _ member).2 q)⟩

end MiniSql
