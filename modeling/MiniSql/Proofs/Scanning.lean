import MiniSql.Token.Lexer

namespace MiniSql

/-- What the grammar sees of a token. -/
structure Sign where
  kind : TokenKind
  value : String
deriving DecidableEq

def Token.sign (t : Token) : Sign := ⟨t.kind, t.value⟩

namespace Sign

def operator (symbol : String) : Sign := ⟨.operator, symbol⟩

def reserved (word : String) : Sign := ⟨.reserved, word⟩

def clause (c : Clause) : Sign := ⟨.clause c, c.keyword⟩

def name (text : String) : Sign := ⟨.name, text⟩

def opening : Sign := ⟨.paren, "("⟩

def closing : Sign := ⟨.paren, ")"⟩

def comma : Sign := ⟨.separator, ","⟩

def point : Sign := ⟨.separator, "."⟩

end Sign

namespace Lexer

theorem skipGap_length (gap : Gap) (cs : List Char) : (skipGap gap cs).length ≤ cs.length := by
  fun_induction skipGap gap cs <;> simp_all <;> omega

/-- The text consists of tokens with these signs, wherever in a statement it stands. -/
inductive Scans : List Char → List Sign → Prop
  | done {cs} : skipGap .blank cs = [] → Scans cs []
  | lexeme {cs c body sign rest signs} : skipGap .blank cs = c :: body →
      (∀ offset, readLexeme offset c body = .ok ⟨sign.kind, sign.value, rest⟩) →
      rest.length ≤ body.length → Scans rest signs → Scans cs (sign :: signs)

theorem Scans.tokens {cs : List Char} {signs : List Sign} (scans : Scans cs signs) :
    ∀ offset most, cs.length ≤ most →
      ∃ tokens, scanFrom offset cs most = (tokens, none) ∧ tokens.map Token.sign = signs := by
  induction scans with
  | done ended =>
    intro offset most _
    cases most with
    | zero => exact ⟨[], rfl, rfl⟩
    | succ most => exact ⟨[], by simp only [scanFrom, ended], rfl⟩
  | @lexeme cs c body sign rest signs starts reads shorter _ ih =>
    intro offset most enough
    have size := skipGap_length .blank cs
    rw [starts, List.length_cons] at size
    obtain ⟨left, rfl⟩ : ∃ left, most = left + 1 := ⟨most - 1, by omega⟩
    simp only [scanFrom, starts, reads]
    obtain ⟨tokens, scanned, same⟩ := ih _ left (by omega)
    exact ⟨_, by rw [scanned], by rw [List.map_cons, same]; rfl⟩

/-- A text without a fault gives its tokens. -/
theorem Scans.ofText {sql : String} {signs : List Sign} (scans : Scans sql.toList signs) :
    ∃ tokens, Token.ofText sql = .ok tokens ∧ tokens.map Token.sign = signs := by
  obtain ⟨tokens, scanned, same⟩ := scans.tokens 0 sql.length (Nat.le_of_eq String.length_toList)
  exact ⟨tokens, by simp only [Token.ofText, Token.scan, scanned], same⟩

theorem Scans.space {cs : List Char} {signs : List Sign} (scans : Scans cs signs) :
    Scans (' ' :: cs) signs := by
  have blank : Text.isBlank ' ' = true := rfl
  have skips : skipGap .blank (' ' :: cs) = skipGap .blank cs := by simp [skipGap, blank]
  cases scans with
  | done ended => exact .done (skips.trans ended)
  | lexeme starts reads shorter more => exact .lexeme (skips.trans starts) reads shorter more

/-- A character that opens no gap stays where it is. -/
theorem skipGap_solid {c : Char} {cs : List Char} (solid : Text.isBlank c = false) (noHash : c ≠ '#')
    (noDashes : c = '-' → cs.head? ≠ some '-') (noBlock : c = '/' → cs.head? ≠ some '*') :
    skipGap .blank (c :: cs) = c :: cs := by
  unfold skipGap
  split <;> simp_all

/-- What may follow a lexeme of any kind without being read as a part of it. -/
def Delimits (cs : List Char) : Prop :=
  ∀ c ∈ cs.head?, c ∈ [' ', ')', ',', '(']

theorem Delimits.elim {cs : List Char} (delimits : Delimits cs) :
    cs = [] ∨ ∃ c more, cs = c :: more ∧ c ∈ [' ', ')', ',', '('] := by
  cases cs with
  | nil => exact .inl rfl
  | cons c more => exact .inr ⟨c, more, rfl, delimits c rfl⟩

/-- The text is one lexeme before any `rest` that is fit to follow it. -/
def IsLexeme (fit : List Char → Prop) (text : String) (sign : Sign) : Prop :=
  ∃ c front, text.toList = c :: front ∧ ∀ rest, fit rest →
    skipGap .blank (c :: (front ++ rest)) = c :: (front ++ rest) ∧
    ∀ offset, readLexeme offset c (front ++ rest) = .ok ⟨sign.kind, sign.value, rest⟩

theorem IsLexeme.mono {fit narrow : List Char → Prop} {text : String} {sign : Sign}
    (lexeme : IsLexeme fit text sign) (fits : ∀ rest, narrow rest → fit rest) :
    IsLexeme narrow text sign := by
  obtain ⟨c, front, starts, reads⟩ := lexeme
  exact ⟨c, front, starts, fun rest narrowed => reads rest (fits rest narrowed)⟩

theorem IsLexeme.scans {fit : List Char → Prop} {text : String} {sign : Sign} {rest : List Char}
    {signs : List Sign} (lexeme : IsLexeme fit text sign) (fits : fit rest)
    (scans : Scans rest signs) : Scans (text.toList ++ rest) (sign :: signs) := by
  obtain ⟨c, front, starts, reads⟩ := lexeme
  obtain ⟨solid, found⟩ := reads rest fits
  rw [starts]
  exact .lexeme solid found (by simp) scans

/-- Wherever the text stands before a delimiter, it gives the signs. -/
def Lexes (text : String) (signs : List Sign) : Prop :=
  ∀ rest more, Delimits rest → Scans rest more → Scans (text.toList ++ rest) (signs ++ more)

theorem IsLexeme.lexes {text : String} {sign : Sign} (lexeme : IsLexeme Delimits text sign) :
    Lexes text [sign] := fun _ _ delimits scans => lexeme.scans delimits scans

theorem isLexeme_opening : IsLexeme (fun _ => True) "(" .opening :=
  ⟨'(', [], rfl, fun _ _ => ⟨rfl, fun _ => rfl⟩⟩

theorem isLexeme_closing : IsLexeme (fun _ => True) ")" .closing :=
  ⟨')', [], rfl, fun _ _ => ⟨rfl, fun _ => rfl⟩⟩

theorem isLexeme_comma : IsLexeme (fun _ => True) "," .comma :=
  ⟨',', [], rfl, fun _ _ => ⟨rfl, fun _ => rfl⟩⟩

/-- Two dashes would open a comment. -/
theorem isLexeme_minus : IsLexeme (fun rest => rest.head? ≠ some '-') "-" (.operator "-") := by
  refine ⟨'-', [], rfl, fun rest noDash => ⟨?_, fun _ => rfl⟩⟩
  exact skipGap_solid rfl (by decide) (fun _ => noDash) (by simp)

/-- A point before a digit would be a part of a number. -/
theorem isLexeme_point : IsLexeme (fun rest => startsDigit rest = false) "." .point := by
  refine ⟨'.', [], rfl, fun rest noDigit => ⟨rfl, fun _ => ?_⟩⟩
  have noLetter : Text.isAlphabetic '.' = false := rfl
  simp [readLexeme, noDigit, startsWord, symbol?, noLetter, Sign.point]

namespace Lexes

variable {a b : String} {s t : List Sign}

theorem scans (lexes : Lexes a s) : Scans a.toList s := by
  simpa using lexes [] [] (by simp [Delimits]) (.done rfl)

theorem cast (lexes : Lexes a s) (same : b.toList = a.toList) :
    Lexes b s := by
  rwa [String.toList_inj.mp same]

theorem space (first : Lexes a s) (second : Lexes b t) : Lexes (a ++ " " ++ b) (s ++ t) := by
  intro rest more delimits scans
  have after := (second rest more delimits scans).space
  simpa using first (' ' :: (b.toList ++ rest)) (t ++ more) (by simp [Delimits]) after

theorem comma (first : Lexes a s) (second : Lexes b t) :
    Lexes (a ++ ", " ++ b) (s ++ .comma :: t) := by
  intro rest more delimits scans
  have after := isLexeme_comma.scans trivial (second rest more delimits scans).space
  simpa using first _ _ (by simp [Delimits]) after

theorem enclosed (inside : Lexes a s) : Lexes ("(" ++ a ++ ")") (.opening :: s ++ [.closing]) := by
  intro rest more delimits scans
  have closes := isLexeme_closing.scans trivial scans
  have after := inside _ _ (by simp [Delimits]) closes
  simpa using isLexeme_opening.scans trivial after

end Lexes

end Lexer

end MiniSql
