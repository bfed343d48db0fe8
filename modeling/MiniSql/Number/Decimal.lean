import MiniSql.Number.Double

namespace MiniSql

/-- The number `digits * 10 ^ exponent`. -/
structure Decimal where
  digits : Nat
  exponent : Int

namespace Decimal

/-- Which of two equally near decimals is taken: the upper one or the one with an even digit. -/
inductive Tie where
  | up
  | even

/-- The multiple of `step` next to `value` and between `low` and `high`, divided by `step`. The
bounds count if `closed`. Of two the nearer is taken. -/
def onGrid? (tie : Tie) (closed : Bool) (low value high step : Nat) : Option Nat :=
  let down := value / step
  let nearer :=
    match compare (2 * (value - down * step)) step, tie with
    | .lt, _ => down
    | .eq, .even => if down % 2 = 0 then down else down + 1
    | _, _ => down + 1
  let fits (n : Nat) : Bool :=
    if closed then low ≤ n * step && n * step ≤ high else low < n * step && n * step < high
  match fits down, fits (down + 1) with
  | true, true => some nearer
  | true, false => some down
  | false, true => some (down + 1)
  | false, false => none

/-- The point of `closest` on the coarsest of the grids `10 ^ top`, `10 ^ (top - 1)`, … that has
one, at most `steps` grids below the first. -/
def coarsest (closest : Int → Option Nat) (top : Int) : Nat → Decimal
  | 0 => ⟨(closest top).getD 0, top⟩
  | steps + 1 =>
    match closest top with
    | some n => ⟨n, top⟩
    | none => coarsest closest (top - 1) steps

/-- The decimal of fewest digits among those that round to `mantissa * 2 ^ exponent`, and the
nearest to it of these. Halfway to a neighbouring double still rounds to an even mantissa. -/
def shortest (tie : Tie) (mantissa : Nat) (exponent : Int) : Decimal :=
  let below := if mantissa = Dyadic.leastFull ∧ -1074 < exponent then 1 else 2
  let twos := (exponent - 2).toNat
  let halves := (2 - exponent).toNat
  let closest (grid : Int) : Option Nat :=
    let scale := Nat.pow 2 twos * Nat.pow 10 (-grid).toNat
    onGrid? tie (mantissa % 2 = 0) ((4 * mantissa - below) * scale) (4 * mantissa * scale)
      ((4 * mantissa + 2) * scale) (Nat.pow 2 halves * Nat.pow 10 grid.toNat)
  coarsest closest ((Int.ofNat mantissa.log2 + 1 + exponent) * 30103 / 100000 + 1) 24

/-- The double nearest to a decimal. -/
def toFloat (d : Decimal) : Float :=
  let point := Int.ofNat (Nat.toDigits 10 d.digits).length + d.exponent
  if d.digits = 0 ∨ point < -330 then 0.0
  else if 310 < point then Double.positiveInfinity
  else Float.ofScientific d.digits (d.exponent < 0) d.exponent.natAbs

end Decimal

/-- How a double is written. -/
structure DoubleFormat where
  /-- Where the decimal point may stand, counted from the first digit, in positional notation. -/
  positional : Int → Bool
  /-- Whether whole numbers in positional notation end in `.0`. -/
  keepsPoint : Bool
  /-- Whether a power of ten above zero has a plus sign. -/
  signsPower : Bool
  tie : Decimal.Tie

namespace DoubleFormat

/-- Literals are positional from `0.0001` up to sixteen whole digits. -/
def literal : DoubleFormat := ⟨fun point => -4 < point && point ≤ 16, true, false, .up⟩

/-- Text is always positional, and a whole number has no point. -/
def text : DoubleFormat := ⟨fun _ => true, false, false, .up⟩

/-- Documents are positional from `0.00001` up to sixteen whole digits; larger numbers, as `1e+16`,
show the sign of the power. -/
def document : DoubleFormat := ⟨fun point => -5 < point && point ≤ 16, true, true, .even⟩

/-- The digits of a number that is not zero; the point stands after `point` of them. -/
def writeDigits (format : DoubleFormat) (digits : List Char) (point : Int) : List Char :=
  if format.positional point then
    if point ≤ 0 then ['0', '.'] ++ List.replicate (-point).toNat '0' ++ digits
    else if digits.length ≤ point.toNat then
      digits ++ List.replicate (point.toNat - digits.length) '0'
        ++ (if format.keepsPoint then ['.', '0'] else [])
    else digits.take point.toNat ++ '.' :: digits.drop point.toNat
  else
    let fraction := match digits.drop 1 with
      | [] => []
      | more => '.' :: more
    let sign := if format.signsPower && 0 < point - 1 then ['+'] else []
    digits.take 1 ++ fraction ++ 'e' :: sign ++ (toString (point - 1)).toList

/-- A finite number without its sign. -/
def writeSize (format : DoubleFormat) (mantissa : Nat) (exponent : Int) : List Char :=
  if mantissa = 0 then '0' :: (if format.keepsPoint then ['.', '0'] else [])
  else
    let shortest := Decimal.shortest format.tie mantissa exponent
    let digits := Nat.toDigits 10 shortest.digits
    format.writeDigits digits (digits.length + shortest.exponent)

def write (format : DoubleFormat) (x : Float) : String :=
  match Dyadic.ofFloat? x with
  | some d =>
    String.ofList ((if d.negative then ['-'] else []) ++ format.writeSize d.mantissa d.exponent)
  | none => if x.isNaN then "NaN" else if x < 0 then "-inf" else "inf"

end DoubleFormat

end MiniSql
