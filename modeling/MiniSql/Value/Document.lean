import MiniSql.Json.Writer
import MiniSql.Value.Coercion

namespace MiniSql.Value

/-- The value a document stands for. An integer beyond 63 bits becomes a double; lists and objects
become their text. -/
def ofJson : Json → Value
  | .null => null
  | .bool b => bool b
  | .number (.int i) =>
    match int64? i with
    | some i => int i
    | none => float (Decimal.toFloat ⟨i.natAbs, 0⟩)
  | .number (.float x) => float x
  | .string s => str s
  | other => str other.write

/-- The document for a value; the infinities and NaN have none of their own. -/
def toJson : Value → Json
  | null => .null
  | bool b => .bool b
  | int i => .number (.int i.toInt)
  | float x => if x.isFinite then .number (.float x) else .null
  | str s => .string s

/-- The scalar that a document stands for. -/
def ofScalar? : Json → Option Value
  | .array _ | .object _ => none
  | v => some (ofJson v)

end MiniSql.Value
