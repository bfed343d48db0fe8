import MiniSql.Value.Coercion

namespace MiniSql

/-- The types of columns. -/
inductive DataType where
  | integer
  | float
  | string
  | datetime
deriving DecidableEq

namespace DataType

def name : DataType → String
  | integer => "integer"
  | float => "float"
  | string => "string"
  | datetime => "datetime"

/-- A value in the form a column of this type keeps it. NULL stays NULL. -/
def cast (type : DataType) (v : Value) : Value :=
  if v.isNull then .null
  else
    match type with
    | integer => .int v.toInt
    | float => .float v.toFloat
    | string | datetime => .str v.toText

/-- What stands in a NOT NULL column when NULL is written to it outside strict mode. -/
def implicitDefault : DataType → Value
  | integer => .int 0
  | float => .float 0.0
  | string => .str ""
  | datetime => .str "0000-00-00 00:00:00"

end DataType

structure Column where
  name : String
  type : DataType
  nullable : Bool := true
  defaultValue : Option Value := none
  autoIncrement : Bool := false
deriving BEq

structure Schema where
  name : String
  columns : List Column
  primaryKey : List String := []
  uniqueKeys : List (List String) := []
deriving BEq

namespace Schema

def findColumn? (s : Schema) (name : String) : Option Column :=
  s.columns.find? fun c => Text.sameName c.name name

def autoIncrementColumn? (s : Schema) : Option Column :=
  s.columns.find? fun c => c.autoIncrement

/-- The primary key, if there is one, and the unique keys. -/
def keys (s : Schema) : List (List String) :=
  (if s.primaryKey.isEmpty then [] else [s.primaryKey]) ++ s.uniqueKeys

/-- The schema with its auto-increment columns and those of its primary key NOT NULL. -/
def withKeysNotNull (s : Schema) : Schema :=
  { s with columns := s.columns.map fun c =>
      { c with
        nullable := c.nullable && !c.autoIncrement
          && !s.primaryKey.any fun k => Text.sameName k c.name } }

end Schema

end MiniSql
