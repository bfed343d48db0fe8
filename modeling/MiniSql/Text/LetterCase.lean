import MiniSql.Text.CaseTable
import MiniSql.Text.LetterRanges

namespace MiniSql.Text

/-- The code point that the shifts, which are in increasing order, move `n` to. -/
def shifted (n : Nat) : List CaseShift → Nat
  | [] => n
  | s :: more =>
    if n < s.first then n
    else if n ≤ s.last ∧ (n - s.first) % s.step = 0 then (Int.ofNat n + s.delta).toNat
    else shifted n more

def changeCase (shifts : List CaseShift) (expansions : List (Nat × List Nat)) (c : Char) :
    List Char :=
  match expansions.lookup c.toNat with
  | some points => points.map Char.ofNat
  | none => [Char.ofNat (shifted c.toNat shifts)]

/-- The full upper case of a character; ASCII letters need no table. -/
def upperChar (c : Char) : List Char :=
  if c.toNat < 0x80 then [c.toUpper] else changeCase upperShifts upperExpansions c

/-- The full lower case of a character that does not depend on its neighbours. -/
def lowerChar (c : Char) : List Char :=
  if c.toNat < 0x80 then [c.toLower] else changeCase lowerShifts lowerExpansions c

/-- Whether a cased letter is the first character that is not case-ignorable. -/
def reachesCased (cs : List Char) : Bool :=
  match cs.dropWhile fun c => inRanges c.toNat caseIgnorableRanges with
  | [] => false
  | c :: _ => inRanges c.toNat casedRanges

/-- Lower case of `cs` after the characters `before`, nearest first. A capital sigma that ends a
word becomes the final small sigma. -/
def lowerAfter (before : List Char) : List Char → List Char
  | [] => []
  | c :: cs =>
    let low :=
      if c = 'Σ' then (if reachesCased before && !reachesCased cs then ['ς'] else ['σ'])
      else lowerChar c
    low ++ lowerAfter (c :: before) cs

def toUpper (s : String) : String :=
  String.ofList (s.toList.flatMap upperChar)

def toLower (s : String) : String :=
  String.ofList (lowerAfter [] s.toList)

end MiniSql.Text
