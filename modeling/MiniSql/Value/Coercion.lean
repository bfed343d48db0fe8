import MiniSql.Number.Numeral
import MiniSql.Text.Letter
import MiniSql.Value

namespace MiniSql

/-- A number in one of its two forms. -/
inductive Numeric where
  | int (i : Int64)
  | float (x : Float)

/-- A 64-bit integer, if `i` is in its range. -/
def int64? (i : Int) : Option Int64 :=
  if Int64.minValue.toInt ≤ i ∧ i ≤ Int64.maxValue.toInt then some (Int64.ofInt i) else none

namespace Numeric

def toFloat : Numeric → Float
  | int i => Double.ofInt64 i
  | float x => x

def toValue : Numeric → Value
  | int i => .int i
  | float x => .float x

/-- An integer without point and power that has 64 bits stays one; all else is a double. -/
def ofNumeral (n : Numeral) : Numeric :=
  match n.toInt?.bind int64? with
  | some i => int i
  | none => float n.toFloat

/-- The numeral at the start of the text, after blanks; zero if there is none. -/
def ofText (s : String) : Numeric :=
  match Numeral.scan? (Text.dropBlanks s.toList) with
  | some (n, _) => ofNumeral n
  | none => int 0

end Numeric

namespace Value

/-- The number a value stands for; NULL stands for none. -/
def toNumeric? : Value → Option Numeric
  | null => none
  | bool b => some (.int (if b then 1 else 0))
  | int i => some (.int i)
  | float x => some (.float x)
  | str s => some (Numeric.ofText s)

/-- The integer part, zero for NULL. -/
def toInt (v : Value) : Int64 :=
  match v.toNumeric? with
  | some (.int i) => i
  | some (.float x) => Double.toInt64 x
  | none => 0

/-- The double, zero for NULL. -/
def toFloat (v : Value) : Float :=
  match v.toNumeric? with
  | some n => n.toFloat
  | none => 0.0

/-- The text, empty for NULL. -/
def toText : Value → String
  | null => ""
  | bool b => if b then "1" else "0"
  | int i => toString i.toInt
  | float x => DoubleFormat.text.write x
  | str s => s

/-- The truth value: false for zero, unknown for NULL. -/
def truth? (v : Value) : Option Bool :=
  match v.toNumeric? with
  | some (.int i) => some (i != 0)
  | some (.float x) => some (x != 0)
  | none => none

/-- Whether a condition with this value is met. -/
def isTrue (v : Value) : Bool :=
  v.truth? == some true

/-- The value of a condition: one, zero, or NULL when it is unknown. -/
def ofTruth? : Option Bool → Value
  | some b => ofTruth b
  | none => null

end Value

end MiniSql
