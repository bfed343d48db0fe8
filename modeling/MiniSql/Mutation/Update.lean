import MiniSql.Mutation.Target

namespace MiniSql

/-- The columns in which a row differs from what it was before. -/
def Row.changesFrom (before after : Row) : Row :=
  (after.cells.zip before.cells).foldl (fun changes (a, b) =>
    if Value.strictEqual a.value b.value then changes else changes.set a.name a.value) {}

/-- A row of a table with its new columns and those that change. -/
structure UpdatedRow where
  id : Nat
  row : Row
  changes : Row

namespace Update

/-- The row that an UPDATE makes of one of its targets, unless it stays the same. -/
def updatedRow (u : Update) (env : Env) (schema : Schema) (target : Nat × Row) :
    Outcome (List UpdatedRow) := do
  let row ← Row.assign env schema none target.2 u.assignments
  if row == target.2 then return []
  else return [⟨target.1, row, target.2.changesFrom row⟩]

/-- The rows of the table after the updates. -/
def finalRows (updated : List UpdatedRow) (rows : List (Nat × Row)) : List (Nat × Row) :=
  rows.map fun (id, row) =>
    match updated.find? fun u => u.id = id with
    | some u => (id, u.row)
    | none => (id, row)

/-- Refuses a changed row that shares a key with another row, if a column of the key changes. -/
def checkKeys (schema : Schema) (rows : List (Nat × Row)) (u : UpdatedRow) : Outcome Unit :=
  let clashes (key : List String) : Bool :=
    (key.any fun name => (u.changes.get? name).isSome)
      && rows.any fun (id, row) => id ≠ u.id && sameKey u.row row key
  match schema.keys.find? clashes with
  | some key => duplicateEntry schema u.row key
  | none => .ok ()

/-- What an UPDATE changes. All keys are checked on the table as it will be. -/
def plan (u : Update) (store : Store) (env : Env) : Outcome (ChangeSet × Summary) := do
  let schema := (← store.table u.table).schema
  for a in u.assignments do
    let _ ← schema.target a.column
  let rows := (← store.scanWithin env.setting.config u.table).map fun (id, row) =>
    (id, row.qualified u.table)
  let matched ← targets env u.filter u.orderBy u.limit rows
  let updated ← gather (u.updatedRow env schema) matched
  let final := finalRows updated rows
  for row in updated do
    checkKeys schema final row
  return ({ updates := updated.map fun row => (row.id, row.changes) },
    { affectedRows := updated.length, matchedRows := matched.length })

end Update

end MiniSql
