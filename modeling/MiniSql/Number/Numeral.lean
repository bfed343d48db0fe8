import MiniSql.Number.Decimal

namespace MiniSql

/-- A number as it is written: a sign, digits around an optional point, and an optional power of
ten. -/
structure Numeral where
  negative : Bool
  whole : List Char
  fraction : Option (List Char)
  power : Option Int

namespace Numeral

def digitsValue (digits : List Char) : Nat :=
  digits.foldl (fun n c => 10 * n + (c.toNat - '0'.toNat)) 0

/-- A sign, if there is one, and what follows it. -/
def takeSign : List Char → Bool × List Char
  | '-' :: cs => (true, cs)
  | '+' :: cs => (false, cs)
  | cs => (false, cs)

/-- A point and the digits after it. A point needs a digit on one of its sides. -/
def takeFraction (whole : List Char) : List Char → Option (List Char) × List Char
  | '.' :: cs =>
    let digits := cs.takeWhile Char.isDigit
    if whole.isEmpty && digits.isEmpty then (none, '.' :: cs)
    else (some digits, cs.dropWhile Char.isDigit)
  | cs => (none, cs)

/-- A power of ten; its mark needs digits behind it. -/
def takePower : List Char → Option Int × List Char
  | c :: cs =>
    let (negative, rest) := takeSign cs
    let digits := rest.takeWhile Char.isDigit
    if (c = 'e' ∨ c = 'E') ∧ digits ≠ [] then
      let size := Int.ofNat (digitsValue digits)
      (some (if negative then -size else size), rest.dropWhile Char.isDigit)
    else (none, c :: cs)
  | [] => (none, [])

/-- The longest numeral at the start of the text and what follows it. -/
def scan? (cs : List Char) : Option (Numeral × List Char) :=
  let (negative, afterSign) := takeSign cs
  let whole := afterSign.takeWhile Char.isDigit
  let (fraction, afterFraction) := takeFraction whole (afterSign.dropWhile Char.isDigit)
  if whole.isEmpty && fraction.isNone then none
  else
    let (power, rest) := takePower afterFraction
    some (⟨negative, whole, fraction, power⟩, rest)

/-- The double nearest to the number. -/
def toFloat (n : Numeral) : Float :=
  let fraction := n.fraction.getD []
  let size : Decimal :=
    ⟨digitsValue (n.whole ++ fraction), n.power.getD 0 - Int.ofNat fraction.length⟩
  if n.negative then -size.toFloat else size.toFloat

/-- The integer that is written, if there is neither a point nor a power of ten. -/
def toInt? (n : Numeral) : Option Int :=
  match n.fraction, n.power with
  | none, none =>
    let size := Int.ofNat (digitsValue n.whole)
    some (if n.negative then -size else size)
  | _, _ => none

end Numeral

end MiniSql
