import MiniSql.Grammar.Expression
import MiniSql.Proofs.ParserRun

namespace MiniSql

open MiniSql.Parser

namespace Sign

/-- How loosely an operator binds; zero for what no operand is followed by. -/
def operatorLevel (symbol : String) : Nat :=
  if symbol ∈ ["*", "/", "DIV", "%", "MOD"] then 1
  else if symbol ∈ ["+", "-"] then 2
  else if symbol ∈ Grammar.comparisonSymbols ++ ["IS", "NOT", "LIKE", "IN", "BETWEEN"] then 3
  else if symbol ∈ ["AND", "&&"] then 5
  else if symbol = "XOR" then 6
  else if symbol ∈ ["OR", "||"] then 7
  else 0

def reservedLevel (word : String) : Nat :=
  if word ∈ ["AS", "ASC", "DESC", "USE", "FORCE", "IGNORE", "OFFSET"] then 8
  else if word ∈ ["ON", "USING"] then 9
  else if word ∈ ["JOIN", "INNER", "LEFT", "RIGHT", "CROSS"] then 10
  else 11

/-- How much ends before a token: a phrase of a level below ends, any other may go on with it. The
levels are those of the operators, then aliases, lists and join conditions, and joins. -/
def level (s : Sign) : Nat :=
  match s.kind with
  | .name | .string | .numeric => 0
  | .paren => if s.value = "(" then 0 else 11
  | .separator => if s.value = "." then 0 else if s.value = "," then 9 else 11
  | .operator => operatorLevel s.value
  | .reserved => reservedLevel s.value
  | .clause _ | .null | .boolean => 11

end Sign

/-- The tokens go on with nothing that belongs to a phrase of level `n`. -/
def Stops (n : Nat) (rest : List Token) : Prop :=
  ∀ t ∈ rest.head?, n < t.sign.level

theorem Stops.mono {m n : Nat} {rest : List Token} (stops : Stops n rest) (below : m ≤ n) :
    Stops m rest := fun t first => Nat.lt_of_le_of_lt below (stops t first)

theorem stops_cons {n : Nat} {t : Token} {rest : List Token} (level : n < t.sign.level) :
    Stops n (t :: rest) := by
  rintro u ⟨⟩
  exact level

/-- A test that only tokens of a low level pass fails where a phrase stops. -/
theorem Stops.none_passes {n : Nat} {rest : List Token} {p : Token → Bool} (stops : Stops n rest)
    (low : ∀ t, p t = true → t.sign.level ≤ n) : rest.head?.any p = false := by
  cases rest with
  | nil => rfl
  | cons t rest =>
    have above := stops t rfl
    cases passes : p t with
    | false => simp [passes]
    | true =>
      have below := low t passes
      omega

/-- The parser takes exactly the tokens with these signs, where the phrase stops after them, and
what it gives satisfies `P`. -/
def Reads (n : Nat) (p : Parser α) (signs : List Sign) (P : α → Prop) : Prop :=
  ∀ sql front rest, front.map Token.sign = signs → Stops n rest →
    ∃ a, p sql (front ++ rest) = .ok (a, rest) ∧ P a

namespace Reads

variable {α β : Type} {m n : Nat} {p : Parser α} {s t : List Sign} {P : α → Prop} {Q : β → Prop}

theorem mono (reads : Reads n p s P) (below : n ≤ m) : Reads m p s P :=
  fun sql front rest same stops => reads sql front rest same (stops.mono below)

theorem imp {P' : α → Prop} (reads : Reads n p s P) (weaker : ∀ a, P a → P' a) : Reads n p s P' := by
  intro sql front rest same stops
  obtain ⟨a, run, holds⟩ := reads sql front rest same stops
  exact ⟨a, run, weaker a holds⟩

/-- What follows the first part stops it: the second part, or what follows the whole. -/
def Ends (n m : Nat) (t : List Sign) : Prop :=
  match t with
  | [] => n ≤ m
  | sign :: _ => n < sign.level

theorem Ends.stops {rest front : List Token} (ends : Ends n m t) (same : front.map Token.sign = t)
    (stops : Stops m rest) : Stops n (front ++ rest) := by
  cases front with
  | nil =>
    subst same
    exact stops.mono ends
  | cons first front =>
    subst same
    exact stops_cons ends

theorem bind {f : α → Parser β} (first : Reads n p s P) (second : ∀ a, P a → Reads m (f a) t Q)
    (ends : Ends n m t) : Reads m (p >>= f) (s ++ t) Q := by
  intro sql front rest same stops
  obtain ⟨front, back, rfl, sameFront, sameBack⟩ := List.map_eq_append_iff.mp same
  rw [List.append_assoc]
  obtain ⟨a, run, holds⟩ := first sql front (back ++ rest) sameFront (ends.stops sameBack stops)
  obtain ⟨b, runs, final⟩ := second a holds sql back rest sameBack stops
  exact ⟨b, by simp [run, runs], final⟩

end Reads

/-- The parser takes the tokens with these signs, whatever follows them. -/
def Takes (p : Parser α) (signs : List Sign) (P : α → Prop) : Prop :=
  ∀ sql front rest, front.map Token.sign = signs → ∃ a, p sql (front ++ rest) = .ok (a, rest) ∧ P a

namespace Takes

variable {α β : Type} {m : Nat} {p : Parser α} {s t : List Sign} {P : α → Prop} {Q : β → Prop}

theorem reads (takes : Takes p s P) : Reads m p s P := fun sql front rest same _ => takes sql front rest same

theorem bind {f : α → Parser β} (first : Takes p s P) (second : ∀ a, P a → Reads m (f a) t Q) :
    Reads m (p >>= f) (s ++ t) Q := by
  intro sql front rest same stops
  obtain ⟨front, back, rfl, sameFront, sameBack⟩ := List.map_eq_append_iff.mp same
  obtain ⟨a, run, holds⟩ := first sql front (back ++ rest) sameFront
  obtain ⟨b, runs, final⟩ := second a holds sql back rest sameBack stops
  exact ⟨b, by simp [run, runs], final⟩

end Takes

end MiniSql
