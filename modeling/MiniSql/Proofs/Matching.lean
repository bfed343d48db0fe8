import MiniSql.Mutation.Target
import MiniSql.Proofs.Arrange

namespace MiniSql

/-- Whether a condition, if there is one, is true in a scope. -/
def passes (env : Env) (condition : Option Expr) (s : Scope) : Outcome Bool :=
  match condition with
  | some e => do return (← e.eval env s).isTrue
  | none => .ok true

theorem passes_some (env : Env) (e : Expr) (s : Scope) :
    passes env (some e) s = e.eval env s >>= fun v => pure v.isTrue := rfl

/-- What is made of the keys, if the test before them is passed. -/
def keyedIf {α : Type} (make : List Value → α) (test : Outcome Bool) (keys : Outcome (List Value)) :
    Outcome (List α) := do
  if ← test then return [make (← keys)] else return []

theorem keyedIf_eq_ok {α : Type} {make : List Value → α} {test : Outcome Bool} {keys : Outcome (List Value)}
    {as : List α} : keyedIf make test keys = .ok as ↔
      (test = .ok true ∧ ∃ ks, keys = .ok ks ∧ as = [make ks]) ∨ (test = .ok false ∧ as = []) := by
  constructor
  · intro run
    obtain ⟨keep, asked, run⟩ := Outcome.bind_eq_ok.mp run
    cases keep with
    | true =>
      obtain ⟨ks, ok, same⟩ := Outcome.bind_eq_ok.mp run
      exact .inl ⟨asked, ks, ok, (Outcome.pure_eq_ok.mp same).symm⟩
    | false => exact .inr ⟨asked, (Outcome.pure_eq_ok.mp run).symm⟩
  · rintro (⟨asked, ks, ok, rfl⟩ | ⟨asked, rfl⟩)
    · exact Outcome.bind_eq_ok.mpr ⟨true, asked, Outcome.bind_eq_ok.mpr ⟨ks, ok, rfl⟩⟩
    · exact Outcome.bind_eq_ok.mpr ⟨false, asked, rfl⟩

theorem Select.filtered_eq (env : Env) (condition : Option Expr) (outer : Option Row) (rows : List Row) :
    filtered env condition outer rows =
      keepIf (fun row => passes env condition { Scope.single row with outer }) rows := by
  cases condition with
  | none => exact (keepIf_true rows).symm
  | some e => rfl

theorem Select.project_eq (env : Env) (q : Select) (columns : List String) (s : Scope) :
    q.project env columns s = outputRow env s {} q.items >>= fun out =>
      keyedIf (OutputRow.mk · out) (passes env q.having { s with aliases := some out })
        (q.orderBy.mapM (sortKey env columns out { s with aliases := some out })) := by
  unfold project
  refine Outcome.bind_congr fun out _ => ?_
  unfold passes
  cases q.having with
  | none => rfl
  | some e => cases run : e.eval env { s with aliases := some out } <;> simp only [run] <;> rfl

theorem keyedTargets_eq (env : Env) (filter : Option Expr) (orderBy : List OrderKey) (target : Nat × Row) :
    keyedTargets env filter orderBy target =
      keyedIf (·, target) (passes env filter (Scope.single target.2))
        (orderBy.mapM fun key => key.expr.eval env (Scope.single target.2)) := by
  unfold keyedTargets passes
  cases filter with
  | none => rfl
  | some e => cases run : e.eval env (Scope.single target.2) <;> simp only [run] <;> rfl

variable {env : Env} {filter : Option Expr} {orderBy : List OrderKey}

theorem keyedTargets_sublist {rows : List (Nat × Row)} {keyed : List (List Value × (Nat × Row))}
    (run : gather (keyedTargets env filter orderBy) rows = .ok keyed) : (keyed.map Prod.snd).Sublist rows := by
  induction rows generalizing keyed with
  | nil =>
    cases run
    exact .slnil
  | cons r rows ih =>
    obtain ⟨first, rest, ok, more, rfl⟩ := gather_cons_eq_ok.mp run
    rw [keyedTargets_eq] at ok
    rw [List.map_append]
    rcases keyedIf_eq_ok.mp ok with ⟨_, _, _, rfl⟩ | ⟨_, rfl⟩
    · exact (ih more).cons_cons r
    · exact (ih more).cons r

/-- A statement applies to a row once at most. -/
theorem targets_subperm {limit : Option Limit} {rows matched : List (Nat × Row)}
    (run : targets env filter orderBy limit rows = .ok matched) : matched.Subperm rows := by
  obtain ⟨keyed, gathered, same⟩ := Outcome.bind_eq_ok.mp run
  cases Outcome.pure_eq_ok.mp same
  exact (arrange_subperm ..).trans (keyedTargets_sublist gathered).subperm

end MiniSql
