import MiniSql.Number.Decimal
import MiniSql.Text.Name

namespace MiniSql

/-- A scalar. -/
inductive Value where
  | null
  | bool (b : Bool)
  | int (i : Int64)
  | float (x : Float)
  | str (s : String)
deriving Inhabited, BEq

namespace Value

instance : Coe Bool Value := ⟨bool⟩

instance : Coe Int64 Value := ⟨int⟩

instance : Coe Int32 Value := ⟨fun i => int i.toInt64⟩

instance : Coe Float Value := ⟨float⟩

instance : Coe String Value := ⟨str⟩

/-- A missing value is NULL. -/
def ofOption (v : Option Value) : Value :=
  v.getD null

def isNull : Value → Bool
  | null => true
  | _ => false

def isNumeric : Value → Bool
  | bool _ | int _ | float _ => true
  | _ => false

def string? : Value → Option String
  | str s => some s
  | _ => none

def typeName : Value → String
  | null => "null"
  | bool _ => "boolean"
  | int _ => "integer"
  | float _ => "float"
  | str _ => "string"

/-- The integer that a comparison yields. -/
def ofTruth (b : Bool) : Value :=
  int (if b then 1 else 0)

/-- A string between quotes, with its backslashes and quotes written twice. -/
def quoteString (s : String) : String :=
  String.ofList
    ('\'' :: Text.escape '\'' ['\'', '\''] (Text.escape '\\' ['\\', '\\'] s.toList) ++ ['\''])

/-- The literal that denotes the value in a statement. -/
def toLiteral : Value → String
  | null => "NULL"
  | bool b => if b then "TRUE" else "FALSE"
  | int i => toString i.toInt
  | float x => DoubleFormat.literal.write x
  | str s => quoteString s

end Value

end MiniSql
