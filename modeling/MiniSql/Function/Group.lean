import MiniSql.Function.Scalar
import MiniSql.Syntax.Function

namespace MiniSql.Aggregate

def name : Aggregate → String
  | count => "COUNT"
  | sum => "SUM"
  | min => "MIN"
  | max => "MAX"
  | avg => "AVG"

/-- The sum of two numbers: an integer if both are and it has 64 bits, otherwise a double. -/
def add (a b : Numeric) : Numeric :=
  match a, b with
  | .int i, .int j =>
    match int64? (i.toInt + j.toInt) with
    | some total => .int total
    | none => .float (a.toFloat + b.toFloat)
  | _, _ => .float (a.toFloat + b.toFloat)

def sumOf (values : List Value) : Value :=
  ((values.filterMap Value.toNumeric?).foldl add (.int 0)).toValue

/-- Sums of doubles start from the zero that changes no sum. -/
def average (values : List Value) : Value :=
  if values.isEmpty then .null
  else
    let total := values.foldl (fun x v => x + v.toFloat) (-0.0)
    .float (total / (UInt64.ofNat values.length).toFloat)

/-- Whether `COUNT(DISTINCT …)` counts a value: only integers and strings are. -/
def isCounted : Value → Bool
  | .int _ | .str _ => true
  | _ => false

def countDistinct (values : List Value) : Nat :=
  ((values.filter isCounted).map Value.toText).eraseDups.length

/-- The aggregate of values that are not NULL. -/
def ofValues (f : Aggregate) (distinct : Bool) (values : List Value) : Value :=
  match f with
  | count => ScalarFunction.count (if distinct then countDistinct values else values.length)
  | sum => sumOf values
  | min => ScalarFunction.extreme .lt values
  | max => ScalarFunction.extreme .gt values
  | avg => average values

end MiniSql.Aggregate
