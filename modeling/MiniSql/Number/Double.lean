namespace MiniSql

/-- The finite number `mantissa * 2 ^ exponent`, or its negative. -/
structure Dyadic where
  negative : Bool
  mantissa : Nat
  exponent : Int

namespace Dyadic

/-- The least mantissa of a double with full precision, `2 ^ 52`. -/
def leastFull : Nat := 0x10000000000000

/-- The exact value of a double; none for the infinities and NaN. -/
def ofFloat? (x : Float) : Option Dyadic :=
  let bits := x.toBits.toNat
  let negative := 0x8000000000000000 ≤ bits
  let biased := bits / leastFull % 2048
  let fraction := bits % leastFull
  if biased = 2047 then none
  else if biased = 0 then some ⟨negative, fraction, -1074⟩
  else some ⟨negative, leastFull + fraction, Int.ofNat biased - 1075⟩

/-- A non-negative integer with the sign of `d`. -/
def signed (d : Dyadic) (n : Nat) : Int :=
  if d.negative then -n else n

/-- The numerator of `d` over `d.denominator`. -/
def numerator (d : Dyadic) : Int :=
  d.signed (d.mantissa * Nat.pow 2 d.exponent.toNat)

def denominator (d : Dyadic) : Nat :=
  Nat.pow 2 (-d.exponent).toNat

/-- The integer part. -/
def trunc (d : Dyadic) : Int :=
  d.numerator.tdiv d.denominator

/-- The greatest integer that is not above `d`. -/
def floor (d : Dyadic) : Int :=
  d.numerator / d.denominator

/-- The least integer that is not below `d`. -/
def ceil (d : Dyadic) : Int :=
  -(-d.numerator / d.denominator)

/-- The nearest integer; a half goes away from zero. -/
def round (d : Dyadic) : Int :=
  d.signed ((2 * d.numerator.natAbs + d.denominator) / (2 * d.denominator))

end Dyadic

namespace Double

def positiveInfinity : Float := Float.ofBits 0x7FF0000000000000

def nan : Float := Float.ofBits 0x7FF8000000000000

/-- The double nearest to a 64-bit integer. -/
def ofInt64 (i : Int64) : Float :=
  let size := (UInt64.ofNat i.toInt.natAbs).toFloat
  if i.toInt < 0 then -size else size

/-- The integer part as a 64-bit integer; what is out of range goes to the nearest bound and NaN
to zero. -/
def toInt64 (x : Float) : Int64 :=
  match Dyadic.ofFloat? x with
  | some d => Int64.ofInt (max Int64.minValue.toInt (min Int64.maxValue.toInt d.trunc))
  | none => if x.isNaN then 0 else if x < 0 then Int64.minValue else Int64.maxValue

/-- The double nearest to an integral value of `x`, by `rule`, with the sign of `x`. Doubles with
no fraction, the infinities and NaN stay as they are. -/
def integral (rule : Dyadic → Int) (x : Float) : Float :=
  match Dyadic.ofFloat? x with
  | some d =>
    if 0 ≤ d.exponent then x
    else
      let size := (UInt64.ofNat (rule d).natAbs).toFloat
      if d.negative then -size else size
  | none => x

/-- `10 ^ n` by repeated squaring. -/
def powerOfTen (n : Nat) : Float :=
  go 10.0 1.0 n n
where
  /-- `product * base ^ n`, in at most `steps` squarings. -/
  go (base product : Float) : Nat → Nat → Float
    | 0, _ => product
    | steps + 1, n =>
      let product := if n % 2 = 1 then product * base else product
      if n / 2 = 0 then product else go (base * base) product steps (n / 2)

end Double

end MiniSql
