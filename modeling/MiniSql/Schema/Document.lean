import MiniSql.Json.Decode
import MiniSql.Schema
import MiniSql.Value.Document

namespace MiniSql

def DataType.ofName? (name : String) : Option DataType :=
  [integer, float, string, datetime].find? fun t => t.name = name

/-- A type is its name, or an object whose only key is the name and whose value is null. -/
def DataType.ofJson? : Json → Option DataType
  | .string s => ofName? s
  | .object [(s, .null)] => ofName? s
  | _ => none

namespace Column

def fieldNames : List String := ["name", "data_type", "nullable", "default", "auto_increment"]

def ofJson? (document : Json) : Option Column := do
  match ← document.fields? fieldNames with
  | [some name, some type, nullable, defaultValue, autoIncrement] =>
    return {
      name := ← name.string?
      type := ← DataType.ofJson? type
      nullable := ← Json.fieldOr Json.bool? true nullable
      defaultValue := ← Json.fieldOr (Json.nullable? Value.ofScalar?) none defaultValue
      autoIncrement := ← Json.fieldOr Json.bool? false autoIncrement }
  | _ => none

def toJson (c : Column) : Json :=
  Json.ofMembers [
    ("name", .string c.name),
    ("data_type", .string c.type.name),
    ("nullable", .bool c.nullable),
    ("default", (Value.ofOption c.defaultValue).toJson),
    ("auto_increment", .bool c.autoIncrement)]

end Column

namespace Schema

def fieldNames : List String := ["name", "columns", "primary_key", "unique_keys"]

/-- The schema that a document describes. The name and the columns are required. -/
def ofJson? (document : Json) : Option Schema := do
  match ← document.fields? fieldNames with
  | [some name, some columns, primaryKey, uniqueKeys] =>
    let names := Json.list? Json.string?
    return {
      name := ← name.string?
      columns := ← Json.list? Column.ofJson? columns
      primaryKey := ← Json.fieldOr names [] primaryKey
      uniqueKeys := ← Json.fieldOr (Json.list? names) [] uniqueKeys }
  | _ => none

def toJson (s : Schema) : Json :=
  let names (key : List String) : Json := .array (key.map .string)
  Json.ofMembers [
    ("name", .string s.name),
    ("columns", .array (s.columns.map Column.toJson)),
    ("primary_key", names s.primaryKey),
    ("unique_keys", .array (s.uniqueKeys.map names))]

end Schema

end MiniSql
