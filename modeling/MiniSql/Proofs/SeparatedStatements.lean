import MiniSql.Proofs.SeparatedPhrases
import MiniSql.Proofs.YieldedStatements

namespace MiniSql

open MiniSql.Parser MiniSql.Grammar

theorem Headed.ne_nil {c : Clause} {order : ClauseOrder} {tokens : List Token} (headed : Headed c order tokens) :
    tokens ≠ [] := by
  cases headed
  exact List.cons_ne_nil _ _

namespace Grammar

variable {α β : Type} {inner : Nested} {order : ClauseOrder} {sql : String} {t : Token} {tokens left : List Token}

/-- What a clause takes: its keyword with unbroken tokens, or a whole SELECT. -/
def Segmented (body : Clause → α → Parser α) : Prop :=
  ∀ c a sql t tokens b left, t.clause? = some c → body c a sql (t :: tokens) = .ok (b, left) →
    (∃ front, tokens = front ++ left ∧ Unbroken front) ∨
      c = .select ∧ ∃ query, t :: tokens = query ++ left ∧ Headed .select selectOrder query

/-- What one step of the clauses does: it reads a clause of higher rank, or a semicolon. -/
theorem clauseStep_cases {body : Clause → α → Parser α} {reached : Nat} {a : α} {r : Option (Nat × α)}
    (step : clauseStep order body (reached, a) sql (t :: tokens) = .ok (r, left)) :
    (∃ c next b, t.clause? = some c ∧ order.lookup c = some next ∧ reached < next ∧
        body c a sql (t :: tokens) = .ok (b, left) ∧ r = some (next, b)) ∨
      t.isSemicolon = true ∧ left = tokens ∧ r = some (reached, a) := by
  obtain ⟨_, _, look, step⟩ := bind_eq_ok.mp step
  cases look
  dsimp only [List.head?_cons] at step
  cases opens : t.clause? with
  | some c =>
    rw [opens] at step
    dsimp only at step
    cases place : order.lookup c with
    | none =>
      rw [place] at step
      cases step
    | some next =>
      rw [place] at step
      dsimp only at step
      split at step
      · next later =>
        obtain ⟨b, _, read, step⟩ := bind_eq_ok.mp step
        cases step
        exact .inl ⟨c, next, b, rfl, place, later, read, rfl⟩
      · cases step
  | none =>
    rw [opens] at step
    dsimp only at step
    split at step
    · next separates =>
      cases step
      exact .inr ⟨separates, rfl, rfl⟩
    · cases step

/-- By the clauses and semicolons that are left. Every step takes a token, so that they all are read. -/
theorem growWithin_separated {body : Clause → α → Parser α} (segmented : Segmented body) {most : Nat}
    {s : Nat × α} : ∀ {reached a tokens}, tokens.length ≤ most →
      growWithin (clauseStep order body) most (reached, a) sql tokens = .ok (s, left) →
      Separated order reached tokens := by
  induction most with
  | zero =>
    intro reached a tokens short _
    rw [List.length_eq_zero_iff.mp (Nat.le_zero.mp short)]
    exact .done
  | succ most ih =>
    intro reached a tokens short grown
    obtain ⟨r, middle, step, run⟩ := bind_eq_ok.mp grown
    cases tokens with
    | nil => exact .done
    | cons t tokens =>
      rcases clauseStep_cases step with ⟨c, next, b, opens, place, later, read, rfl⟩ | ⟨separates, rfl, rfl⟩
      · rcases segmented c a sql t tokens b middle opens read with ⟨front, rfl, unbroken⟩ | ⟨rfl, query, split, headed⟩
        · refine .clause opens place later unbroken (ih ?_ run)
          rw [List.length_cons, List.length_append] at short
          omega
        · rw [split]
          refine .inserted place later headed (ih ?_ run)
          have some := List.length_pos_iff.mpr headed.ne_nil
          rw [split, List.length_append] at short
          omega
      · exact .semicolon separates (ih (Nat.le_of_succ_le_succ short) run)

/-- Behind the keyword of a statement: what belongs to it, and then its clauses. -/
def Trails (order : ClauseOrder) (p : Parser α) : Prop :=
  ∀ sql tokens a left, p sql tokens = .ok (a, left) →
    ∃ head rest, tokens = head ++ rest ∧ Unbroken head ∧ Separated order 1 rest

/-- A statement that takes all tokens there are. -/
def Heads (c : Clause) (order : ClauseOrder) (p : Parser α) : Prop :=
  ∀ sql tokens a left, p sql tokens = .ok (a, left) → Headed c order tokens

theorem Trails.clauses {body : Clause → α → Parser α} {a : α} (segmented : Segmented body) :
    Trails order (clauses order body a) := by
  intro sql tokens b left run
  obtain ⟨s, middle, grown, _⟩ := bind_eq_ok.mp run
  exact ⟨[], tokens, rfl, .nil, growWithin_separated segmented (Nat.le_refl _) grown⟩

theorem Trails.bind {p : Parser α} {f : α → Parser β} (trails : Trails order p) : Trails order (p >>= f) := by
  intro sql tokens b left run
  obtain ⟨a, middle, read, _⟩ := bind_eq_ok.mp run
  exact trails sql tokens a middle read

theorem Trails.after {p : Parser α} {f : α → Parser β} (first : Spends p) (second : ∀ a, Trails order (f a)) :
    Trails order (p >>= f) := by
  intro sql tokens b left both
  obtain ⟨a, middle, read, run⟩ := bind_eq_ok.mp both
  obtain ⟨front, rfl, unbroken⟩ := first sql tokens a middle read
  obtain ⟨head, rest, rfl, unbroken', separated⟩ := second a sql middle b left run
  exact ⟨front ++ head, rest, (List.append_assoc ..).symm, unbroken.append unbroken', separated⟩

theorem Trails.nextIs {test : Token → Bool} {g : Bool → Parser β} (either : ∀ found, Trails order (g found)) :
    Trails order (Parser.nextIs test >>= g) :=
  fun sql tokens => either (tokens.head?.any test) sql tokens

theorem Heads.bind {c : Clause} {p : Parser α} {f : α → Parser β} (heads : Heads c order p) :
    Heads c order (p >>= f) := by
  intro sql tokens b left run
  obtain ⟨a, middle, read, _⟩ := bind_eq_ok.mp run
  exact heads sql tokens a middle read

theorem Heads.withText {c : Clause} {p : Parser α} (heads : Heads c order p) : Heads c order (Parser.withText p) := by
  intro sql tokens r left run
  obtain ⟨before, _, look, run⟩ := bind_eq_ok.mp run
  cases look
  obtain ⟨a, after, read, _⟩ := bind_eq_ok.mp run
  exact heads sql tokens a after read

theorem Heads.opened {c : Clause} {f : Unit → Parser β} (trails : Trails order (f ())) :
    Heads c order (expectClause c >>= f) := by
  intro sql tokens b left run
  obtain ⟨_, middle, opened, run⟩ := bind_eq_ok.mp run
  cases tokens with
  | nil => cases opened
  | cons t tokens =>
    cases is : t.isClause c with
    | false =>
      simp only [expectClause, bind_apply, nextIs_apply, List.head?_cons, Option.any_some, is] at opened
      cases opened
    | true =>
      simp only [expectClause, bind_apply, nextIs_apply, List.head?_cons, Option.any_some, is] at opened
      cases opened
      obtain ⟨head, rest, rfl, unbroken, separated⟩ := trails sql _ b left run
      have opens : t.clause? = some c := by
        simp only [Token.isClause, decide_eq_true_eq] at is
        simp [Token.clause?, is]
      exact .intro opens unbroken separated

end Grammar

namespace Statement
variable {sql : String} {s : Statement}

end Statement

end MiniSql
