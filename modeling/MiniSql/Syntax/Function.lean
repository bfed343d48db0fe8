import MiniSql.Syntax

namespace MiniSql

inductive Aggregate where
  | count
  | sum
  | min
  | max
  | avg
deriving DecidableEq

def Aggregate.ofName? : String → Option Aggregate
  | "COUNT" => some count
  | "SUM" => some sum
  | "MIN" => some min
  | "MAX" => some max
  | "AVG" => some avg
  | _ => none

/-- Whether a function of this name is an aggregate. Names are in upper case. -/
def isAggregate (function : String) : Bool :=
  (Aggregate.ofName? function).isSome

/-- The least number of arguments of the functions that must not be written without any. -/
def leastArguments? (function : String) : Option Nat :=
  if function ∈ ["COUNT", "SUM", "MIN", "MAX", "AVG", "IFNULL", "COALESCE", "LENGTH",
      "CHAR_LENGTH", "CHARACTER_LENGTH", "LOWER", "UPPER", "BINARY", "FROM_UNIXTIME", "VALUES",
      "TRIM", "LTRIM", "RTRIM", "ABS", "CEIL", "CEILING", "FLOOR", "ROUND", "EXISTS"] then some 1
  else if function ∈ ["MOD", "NULLIF", "SUBSTRING", "SUBSTR", "CONCAT", "CONCAT_WS", "FIELD",
      "GREATEST", "LEAST"] then some 2
  else if function ∈ ["IF", "SUBSTRING_INDEX", "REPLACE"] then some 3
  else none

namespace Expr

mutual

/-- Whether an aggregate is called in the expression. Subqueries aggregate on their own. -/
def hasAggregate : Expr → Bool
  | call function args _ => isAggregate function || anyAggregate args
  | binary _ l r => l.hasAggregate || r.hasAggregate
  | unary _ e => e.hasAggregate
  | isNull e _ => e.hasAggregate
  | inList e items _ => e.hasAggregate || anyAggregate items
  | inQuery e _ _ => e.hasAggregate
  | between e low high _ => e.hasAggregate || low.hasAggregate || high.hasAggregate
  | column _ | literal _ | subquery _ | star _ => false

def anyAggregate : List Expr → Bool
  | [] => false
  | e :: es => e.hasAggregate || anyAggregate es

end

end Expr

end MiniSql
