import MiniSql.Value.Coercion

namespace MiniSql

/-- Integers compare exactly, all other pairs as doubles. A NaN is equal to every number. -/
def Numeric.compare : Numeric → Numeric → Ordering
  | .int i, .int j => Ord.compare i.toInt j.toInt
  | a, b =>
    let x := a.toFloat
    let y := b.toFloat
    if x < y then .lt else if y < x then .gt else .eq

namespace Value

/-- Strings compare by their characters, all other pairs as numbers; NULL compares with nothing. -/
def compare? : Value → Value → Option Ordering
  | null, _ | _, null => none
  | str s, str t => some (Ord.compare s t)
  | v, w =>
    match v.toNumeric?, w.toNumeric? with
    | some a, some b => some (a.compare b)
    | _, _ => none

/-- Equality as `=` decides it. -/
def looseEqual (v w : Value) : Bool :=
  compare? v w == some .eq

/-- Equality of type and value. A NaN differs from itself, and the two zeros are equal. -/
def strictEqual (v w : Value) : Bool :=
  v == w

/-- The order of sorting: NULL comes first. -/
def sortOrder (v w : Value) : Ordering :=
  match v.isNull, w.isNull with
  | true, true => .eq
  | true, false => .lt
  | false, true => .gt
  | false, false => (compare? v w).getD .eq

end Value

end MiniSql
