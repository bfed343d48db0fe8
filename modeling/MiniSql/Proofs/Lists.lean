import Mathlib.Data.List.Forall2
import MiniSql.Proofs.Operands

namespace MiniSql

open MiniSql.Parser

/-- Parentheses that are opened among the signs are closed among them, in any surroundings. -/
def Balanced (signs : List Sign) : Prop :=
  ∀ depth front rest, front.map Token.sign = signs →
    closing? depth (front ++ rest) =
      (closing? depth rest).map fun (inside, after) => (front ++ inside, after)

namespace Balanced

variable {s t : List Sign}

theorem nil : Balanced [] := by
  intro depth front rest same
  obtain rfl := List.map_eq_nil_iff.mp same
  cases found : closing? depth rest <;> simp [found]

theorem append (first : Balanced s) (second : Balanced t) : Balanced (s ++ t) := by
  intro depth front rest same
  obtain ⟨front, back, rfl, sameFront, sameBack⟩ := List.map_eq_append_iff.mp same
  rw [List.append_assoc, first depth front (back ++ rest) sameFront, second depth back rest sameBack]
  cases closing? depth rest <;> simp

theorem cons {sign : Sign} (other : sign.kind ≠ .paren) (more : Balanced s) : Balanced (sign :: s) := by
  intro depth front rest same
  obtain ⟨t, front, rfl, rfl, sameRest⟩ := List.map_eq_cons_iff.mp same
  have noParen : t.kind ≠ .paren := other
  have after := more depth front rest sameRest
  simp [closing?, isOpen, isClose, Token.isKind, noParen, after]
  cases closing? depth rest <;> simp

theorem closing {t : Token} (same : t.sign = .closing) {front rest : List Token}
    (inside : Balanced s) (sameFront : front.map Token.sign = s) :
    closing? 0 (front ++ t :: rest) = some (front, rest) := by
  simp only [Token.sign, Sign.closing, Sign.mk.injEq] at same
  rw [inside 0 front (t :: rest) sameFront]
  simp [closing?, isOpen, isClose, Token.isKind, same]

theorem enclosed (inside : Balanced s) : Balanced (.opening :: (s ++ [.closing])) := by
  intro depth front rest same
  obtain ⟨opens, back, rfl, sameOpen, sameBack⟩ := List.map_eq_cons_iff.mp same
  obtain ⟨front, back, rfl, sameFront, sameBack⟩ := List.map_eq_append_iff.mp sameBack
  obtain ⟨closes, rfl, sameClose⟩ := List.map_eq_singleton_iff.mp sameBack
  simp only [Token.sign, Sign.opening, Sign.closing, Sign.mk.injEq] at sameOpen sameClose
  have after := inside (depth + 1) front (closes :: rest) sameFront
  simp [closing?, isOpen, isClose, Token.isKind, sameOpen, sameClose] at after ⊢
  rw [after]
  cases closing? depth rest <;> simp

end Balanced

/-- The parser takes all tokens if they have these signs. -/
def TakesAll (p : Parser α) (signs : List Sign) (P : α → Prop) : Prop :=
  ∀ sql front, front.map Token.sign = signs → ∃ a, p sql front = .ok (a, []) ∧ P a

/-- The inside of a parenthesis that is open, up to the closing one. -/
theorem takes_enclosed {p : Parser α} {s : List Sign} {P : α → Prop} (balanced : Balanced s)
    (reads : TakesAll p s P) :
    Takes (enclosed p) (s ++ [.closing]) P := by
  intro sql front rest same
  obtain ⟨front, back, rfl, sameFront, sameBack⟩ := List.map_eq_append_iff.mp same
  obtain ⟨closes, rfl, sameClose⟩ := List.map_eq_singleton_iff.mp sameBack
  obtain ⟨a, run, holds⟩ := reads sql front sameFront
  refine ⟨a, ?_, holds⟩
  rw [List.append_assoc, List.singleton_append, enclosed, balanced.closing sameClose sameFront]
  simp only [run]
  rfl

theorem commaSigns_cons {α : Type} (signs : α → List Sign) (x : α) (xs : List α) :
    commaSigns ((x :: xs).map signs) = signs x ++ xs.flatMap fun y => .comma :: signs y := by
  induction xs generalizing x with
  | nil => simp [commaSigns]
  | cons y ys ih =>
    rw [List.map_cons, List.map_cons, commaSigns, ← List.map_cons, ih y]
    · simp
    · simp

section Entries

variable {α β : Type} {entry : Parser α} {signs : β → List Sign} {R : β → α → Prop}

/-- An entry stops at the comma of the next one or where the list stops. -/
theorem stops_entry {xs : List β} {back rest : List Token}
    (same : back.map Token.sign = xs.flatMap fun y => .comma :: signs y) (stops : Stops 9 rest) :
    Stops 8 (back ++ rest) := by
  cases xs with
  | nil =>
    rw [List.flatMap_nil, List.map_eq_nil_iff] at same
    subst same
    exact stops.mono (by decide)
  | cons y ys =>
    obtain ⟨next, back, rfl, sameNext, _⟩ := List.map_eq_cons_iff.mp same
    exact stops_cons (by rw [sameNext]; decide)

theorem reads_moreEntries {xs : List β} (each : ∀ x ∈ xs, Reads 8 entry (signs x) (R x)) :
    ∀ most sql front rest, front.map Token.sign = xs.flatMap (fun y => .comma :: signs y) →
      front.length ≤ most → Stops 9 rest →
      ∃ as, moreEntries entry most sql (front ++ rest) = .ok (as, rest) ∧ List.Forall₂ R xs as := by
  induction xs with
  | nil =>
    intro most sql front rest same _ stops
    rw [List.flatMap_nil, List.map_eq_nil_iff] at same
    subst same
    refine ⟨[], ?_, .nil⟩
    have noComma : rest.head?.any isComma = false := by
      refine stops.none_passes fun t passes => ?_
      simp only [isComma, Token.isKind, Bool.and_eq_true, decide_eq_true_eq] at passes
      simp [Sign.level, Token.sign, passes]
    cases most with
    | zero => rfl
    | succ most => simp [moreEntries, noComma]
  | cons x xs ih =>
    intro most sql front rest same enough stops
    rw [List.flatMap_cons, List.cons_append] at same
    obtain ⟨comma, back, rfl, sameComma, sameBack⟩ := List.map_eq_cons_iff.mp same
    obtain ⟨front, back, rfl, sameFront, sameBack⟩ := List.map_eq_append_iff.mp sameBack
    obtain ⟨most, rfl⟩ : ∃ left, most = left + 1 := ⟨most - 1, by simp at enough; omega⟩
    have ended := stops_entry sameBack stops
    obtain ⟨a, run, holds⟩ := each x (by simp) sql front (back ++ rest) sameFront ended
    obtain ⟨as, runs, all⟩ := ih (fun y listed => each y (by simp [listed])) most sql back rest sameBack
      (by simp at enough; omega) stops
    simp only [Token.sign, Sign.comma, Sign.mk.injEq] at sameComma
    refine ⟨a :: as, ?_, .cons holds all⟩
    simp [moreEntries, isComma, Token.isKind, sameComma, run, runs]

/-- A list of one entry or more between commas. -/
theorem reads_entries {xs : List β} (some : xs ≠ []) (each : ∀ x ∈ xs, Reads 8 entry (signs x) (R x)) :
    Reads 9 (entries entry) (commaSigns (xs.map signs)) (List.Forall₂ R xs) := by
  intro sql front rest same stops
  obtain ⟨x, xs, rfl⟩ := List.exists_cons_of_ne_nil some
  rw [commaSigns_cons] at same
  obtain ⟨front, back, rfl, sameFront, sameBack⟩ := List.map_eq_append_iff.mp same
  have ended := stops_entry sameBack stops
  obtain ⟨a, run, holds⟩ := each x (by simp) sql front (back ++ rest) sameFront ended
  obtain ⟨as, runs, all⟩ := reads_moreEntries (fun y listed => each y (by simp [listed]))
    (back ++ rest).length sql back rest sameBack (by simp) stops
  refine ⟨a :: as, ?_, .cons holds all⟩
  rw [List.append_assoc]
  simp [entries, run] at runs ⊢
  simp [runs]

end Entries

end MiniSql
