import MiniSql.Query.Projection

namespace MiniSql

/-- What a statement that changes a table reports. -/
structure Summary where
  /-- Rows added, changed or removed; a row that a proposed one changes counts twice. -/
  affectedRows : Nat
  /-- Rows that the statement applies to, or that it proposes. -/
  matchedRows : Nat
  /-- The first identity that was generated. -/
  lastInsertId : Option Int64 := none
deriving DecidableEq

namespace Schema

/-- The column that an assignment sets. -/
def target (s : Schema) (c : ColumnRef) : Outcome Column :=
  let unknown (name : String) : Outcome Column := refuse (.unknownColumnIn name "field list")
  match c.table.filter (· ≠ s.name) with
  | some other => unknown (other ++ "." ++ c.name)
  | none =>
    match s.findColumn? c.name with
    | some column => .ok column
    | none => unknown c.name

end Schema

/-- The value that a column keeps. NULL for a NOT NULL column is an error, or becomes the implicit
default outside strict mode; `omitted` says that the statement gives no value. -/
def Column.stored (c : Column) (config : Config) (omitted : Bool) (v : Value) : Outcome Value :=
  if !v.isNull then .ok (c.type.cast v)
  else if c.nullable then .ok .null
  else if !config.strictMode then .ok c.type.implicitDefault
  else refuse (if omitted then .noDefault c.name else .nullColumn c.name)

/-- A row after assignments, each of which sees what those before it have written. -/
def Row.assign (env : Env) (schema : Schema) (proposed : Option Row) (row : Row) :
    List Assignment → Outcome Row
  | [] => .ok row
  | a :: more => do
    let column ← schema.target a.column
    let v ← a.value.eval env { Scope.single row with proposed }
    let stored ← column.stored env.setting.config false v
    assign env schema proposed (row.replace column.name stored) more

/-- The rows that satisfy a condition, with the values they are sorted by. -/
def keyedTargets (env : Env) (filter : Option Expr) (orderBy : List OrderKey) (target : Nat × Row) :
    Outcome (List (List Value × (Nat × Row))) := do
  let s := Scope.single target.2
  let kept ← match filter with
    | some e => do pure (← e.eval env s).isTrue
    | none => pure true
  if kept then return [(← orderBy.mapM fun key => key.expr.eval env s, target)]
  else return []

/-- The rows of a table that a statement applies to: those that satisfy its condition, sorted and
cut to its limit. -/
def targets (env : Env) (filter : Option Expr) (orderBy : List OrderKey) (limit : Option Limit)
    (rows : List (Nat × Row)) : Outcome (List (Nat × Row)) := do
  let keyed ← gather (keyedTargets env filter orderBy) rows
  let (skip, most) := match limit with
    | some l => (l.offset, some l.count)
    | none => (0, none)
  return arrange (orderBy.map OrderKey.descending) skip most keyed

/-- The values of a key in a row; none if one of them is NULL. -/
def keyValues? (row : Row) (key : List String) : Option (List Value) :=
  key.mapM fun name => (row.get? name).filter fun v => !v.isNull

/-- Whether two rows have the same values in a key. NULL is the same as nothing. -/
def sameKey (a b : Row) (key : List String) : Bool :=
  match keyValues? a key, keyValues? b key with
  | some vs, some ws => groupKey vs == groupKey ws
  | _, _ => false

def duplicateEntry (schema : Schema) (row : Row) (key : List String) : Outcome α :=
  let entry := key.map fun name => (Value.ofOption (row.get? name)).toText
  let name := if key = schema.primaryKey then "PRIMARY" else ",".intercalate key
  refuse (.duplicateEntry ("-".intercalate entry) name)

end MiniSql
