import MiniSql.Proofs.HitRows
import MiniSql.Proofs.RewrittenRows

namespace MiniSql

theorem Outcome.mapM_succeeds {α β : Type} {f : α → Outcome β} {as : List α} (all : ∀ a ∈ as, ∃ b, f a = .ok b) :
    ∃ bs, as.mapM f = .ok bs := by
  induction as with
  | nil => exact ⟨[], rfl⟩
  | cons a as ih =>
    rw [List.forall_mem_cons] at all
    obtain ⟨b, first⟩ := all.1
    obtain ⟨bs, rest⟩ := ih all.2
    exact ⟨b :: bs, mapM_eq_ok.mpr (.cons first (mapM_eq_ok.mp rest))⟩

section
variable {env : Env} {filter : Option Expr} {order : List OrderKey} {rows : List (Nat × Row)}

/-- The keys to sort by have values in every row that satisfies the condition. -/
def KeysEvaluate (env : Env) (filter : Option Expr) (order : List OrderKey) (rows : List (Nat × Row)) : Prop :=
  ∀ r ∈ rows, passes env filter (.single r.2) = .ok true → ∀ key ∈ order, ∃ v, key.expr.eval env (.single r.2) = .ok v

theorem KeysEvaluate.nil (env : Env) (filter : Option Expr) (rows : List (Nat × Row)) :
    KeysEvaluate env filter [] rows :=
  fun _ _ _ => nofun

/-- Which rows a statement applies to is a matter of its condition only. -/
theorem gather_keyedTargets (evaluate : KeysEvaluate env filter order rows) {matched : List (Nat × Row)} :
    keepIf (fun r => passes env filter (.single r.2)) rows = .ok matched ↔
      ∃ keyed, gather (keyedTargets env filter order) rows = .ok keyed ∧ matched = keyed.map Prod.snd := by
  have kept := gather_kept (fun r : Nat × Row => passes env filter (.single r.2)) id rows
  simp only [List.map_id, bind_pure] at kept
  rw [← kept]
  refine gather_iff fun r member cs => ?_
  rw [keyedTargets_eq]
  constructor
  · intro run
    obtain ⟨keep, asked, made⟩ := Outcome.bind_eq_ok.mp run
    cases Outcome.pure_eq_ok.mp made
    cases keep with
    | true =>
      obtain ⟨ks, values⟩ := Outcome.mapM_succeeds (evaluate r member asked)
      exact ⟨_, keyedIf_eq_ok.mpr (.inl ⟨asked, ks, values, rfl⟩), rfl⟩
    | false => exact ⟨_, keyedIf_eq_ok.mpr (.inr ⟨asked, rfl⟩), rfl⟩
  · rintro ⟨keyed, run, rfl⟩
    rcases keyedIf_eq_ok.mp run with ⟨asked, _, _, rfl⟩ | ⟨asked, rfl⟩ <;>
      exact Outcome.bind_eq_ok.mpr ⟨_, asked, rfl⟩

end

namespace Update
variable {updated updated' : List UpdatedRow}

end Update

namespace Table

theorem Admits.perm {t : Table} {updates updates' : List (Nat × Row)} (admits : t.Admits { updates := updates })
    (perm : updates.Perm updates') : t.Admits { updates := updates' } where
  ids := by
    intro id listed
    rw [List.append_nil] at listed
    exact admits.ids id (List.mem_append_left _ ((perm.map Prod.fst).mem_iff.mpr listed))
  inserts := nofun
  updates := fun u listed => admits.updates u (perm.mem_iff.mpr listed)

end Table

namespace Update
variable {u : Update} {order : List OrderKey} {s : Store} {setting : Setting} {t : Table}

end Update

end MiniSql
