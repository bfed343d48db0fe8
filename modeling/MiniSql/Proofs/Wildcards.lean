import MiniSql.Proofs.Outcome
import MiniSql.Query.Projection

namespace MiniSql

namespace Text

/-- The whole text fits the whole pattern. A `%` takes any characters, a `_` takes one, and a backslash
takes the character behind it for itself. -/
inductive Fits : List Char → List Char → Prop
  | nil : Fits [] []
  | run {pattern text} (taken : List Char) : Fits pattern text → Fits ('%' :: pattern) (taken ++ text)
  | one {pattern text} (c : Char) : Fits pattern text → Fits ('_' :: pattern) (c :: text)
  | escaped {pattern text} (c : Char) : Fits pattern text → Fits ('\\' :: c :: pattern) (c :: text)
  | backslash : Fits ['\\'] ['\\']
  | char {pattern text} {c : Char} : c ∉ ['%', '_', '\\'] → Fits pattern text → Fits (c :: pattern) (c :: text)

/-- What a part of a pattern may take. -/
def PatternPart.Takes : PatternPart → List Char → Prop
  | run, _ => True
  | one, taken => ∃ c, taken = [c]
  | char c, taken => taken = [c]

/-- The text can be split into what the parts take. -/
def FitsParts : List PatternPart → List Char → Prop
  | [], text => text = []
  | part :: parts, text => ∃ taken rest, text = taken ++ rest ∧ part.Takes taken ∧ FitsParts parts rest

theorem fitsParts_one {parts : List PatternPart} {text : List Char} :
    FitsParts (.one :: parts) text ↔ ∃ c rest, text = c :: rest ∧ FitsParts parts rest := by
  constructor
  · rintro ⟨_, rest, rfl, ⟨c, rfl⟩, fits⟩
    exact ⟨c, rest, rfl, fits⟩
  · rintro ⟨c, rest, rfl, fits⟩
    exact ⟨[c], rest, rfl, ⟨c, rfl⟩, fits⟩

theorem fitsParts_char {c : Char} {parts : List PatternPart} {text : List Char} :
    FitsParts (.char c :: parts) text ↔ ∃ rest, text = c :: rest ∧ FitsParts parts rest := by
  constructor
  · rintro ⟨_, rest, rfl, rfl, fits⟩
    exact ⟨rest, rfl, fits⟩
  · rintro ⟨rest, rfl, fits⟩
    exact ⟨[c], rest, rfl, rfl, fits⟩

theorem Fits.parts {pattern text : List Char} (fits : Fits pattern text) : FitsParts (patternParts pattern) text := by
  induction fits with
  | nil => rfl
  | run taken _ ih => exact ⟨taken, _, rfl, trivial, ih⟩
  | one c _ ih => exact fitsParts_one.mpr ⟨c, _, rfl, ih⟩
  | escaped c _ ih => exact fitsParts_char.mpr ⟨_, rfl, ih⟩
  | backslash => exact fitsParts_char.mpr ⟨[], rfl, rfl⟩
  | @char pattern text c plain _ ih =>
    simp only [List.mem_cons, List.not_mem_nil, or_false, not_or] at plain
    have parts : patternParts (c :: pattern) = .char c :: patternParts pattern := by
      rw [patternParts]
      · exact fun _ _ escape => absurd escape plain.2.2
      · exact plain.1
      · exact plain.2.1
    rw [parts]
    exact fitsParts_char.mpr ⟨_, rfl, ih⟩

end Text

namespace Operator
variable {v w : Value}

end Operator

namespace Expr
variable {env : Env} {s : Scope} {l r : Expr} {v w : Value}

end Expr

end MiniSql
