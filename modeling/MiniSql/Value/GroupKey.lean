import MiniSql.Value

namespace MiniSql

/-- What a value contributes to a key, without the separator. -/
def Value.keyPart : Value → String
  | .null => "N"
  | .bool b => if b then "I:1" else "I:0"
  | .int i => "I:" ++ toString i.toInt
  | .float x => "F:" ++ DoubleFormat.literal.write x
  | .str s => "S:" ++ s

/-- Rows with the same key go into the same group. Each part ends in the unit separator. -/
def groupKey (values : List Value) : String :=
  String.join (values.map fun v => v.keyPart ++ "\x1f")

end MiniSql
