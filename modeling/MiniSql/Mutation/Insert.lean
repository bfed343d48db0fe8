import MiniSql.Mutation.Target

namespace MiniSql

/-- The identities that an INSERT generates. -/
structure AutoIncrement where
  next : Int64
  first : Option Int64 := none

namespace AutoIncrement

/-- The next integer, unless there is none of 64 bits. -/
def after (i : Int64) : Int64 :=
  if i = Int64.maxValue then i else i + 1

def larger (i j : Int64) : Int64 :=
  if i.toInt < j.toInt then j else i

/-- Starts after the largest identity in the table, at one or above. -/
def ofRows (schema : Schema) (rows : List Row) : AutoIncrement :=
  match schema.autoIncrementColumn? with
  | none => { next := 1 }
  | some c =>
    let ids := (rows.filterMap fun row => row.get? c.name).map Value.toInt
    match ids with
    | [] => { next := 1 }
    | id :: more => { next := larger (after (more.foldl larger id)) 1 }

/-- The identity of a row: a given one, or a new one for NULL and zero. -/
def identify (auto : AutoIncrement) (v : Value) : Int64 × AutoIncrement :=
  let given := v.toInt
  if v.isNull || given == 0 then
    (auto.next, { next := after auto.next, first := auto.first.or (some auto.next) })
  else (given, { auto with next := larger auto.next (after given) })

end AutoIncrement

/-- A row of the table as an INSERT leaves it. -/
structure StagedRow where
  /-- The identity of a row that was there before. -/
  id : Option Nat
  row : Row
  changed : Bool := false

/-- How far an INSERT has got. -/
structure InsertPlan where
  /-- The rows that were there before and then the new ones. -/
  staged : List StagedRow
  auto : AutoIncrement
  affectedRows : Nat := 0

namespace InsertPlan

/-- The plan for a table with these rows, before any row is added. -/
def start (schema : Schema) (rows : List (Nat × Row)) : InsertPlan where
  staged := rows.map fun (id, row) => { id := some id, row }
  auto := .ofRows schema (rows.map Prod.snd)

/-- The new rows, and those that were there before and have changed. -/
def changes (plan : InsertPlan) : ChangeSet where
  inserts := (plan.staged.filter fun s => s.id.isNone).map StagedRow.row
  updates := plan.staged.filterMap fun s =>
    if s.changed then s.id.map fun id => (id, s.row) else none

end InsertPlan

namespace Insert

/-- The names of the columns that an INSERT gives values for. -/
def targetColumns (i : Insert) (schema : Schema) : Outcome (List String) :=
  if i.columns.isEmpty then .ok (schema.columns.map Column.name) else resolve [] i.columns
where
  resolve (done : List String) : List String → Outcome (List String)
    | [] => .ok done
    | name :: more => do
      let column ← schema.target ⟨none, name⟩
      if done.any fun other => Text.sameName other column.name then
        refuse (.repeatedColumn column.name)
      else resolve (done ++ [column.name]) more

/-- The row of the values that `SET` gives; each expression sees the columns before it. -/
def assignedRow (env : Env) (schema : Schema) (row : Row) : List Assignment → Outcome Row
  | [] => .ok row
  | a :: more => do
    let column ← schema.target a.column
    assignedRow env schema (row.set column.name (← a.value.eval env (.single row))) more

/-- The rows of `VALUES`, the first of which has number `n`. -/
def valueRows (env : Env) (columns : List String) (n : Nat) : List (List Expr) → Outcome (List Row)
  | [] => .ok []
  | exprs :: more => do
    if exprs.length ≠ columns.length then refuse (.valueCount n)
    else
      let values ← exprs.mapM fun e => e.eval env (.single {})
      return Row.ofList (columns.zip values) :: (← valueRows env columns (n + 1) more)

/-- The rows that an INSERT proposes. The columns of a SELECT are read by their names. -/
def proposedRows (i : Insert) (env : Env) (schema : Schema) : Outcome (List Row) := do
  match i.rows with
  | .assignments as => return [← assignedRow env schema {} as]
  | .query q =>
    let columns ← i.targetColumns schema
    let result ← env.select q none
    if result.columns.length ≠ columns.length then refuse (.valueCount 1)
    else
      return result.rows.map fun row =>
        Row.ofList (columns.zip (result.columns.map fun name => .ofOption (row.get? name)))
  | .values rows => valueRows env (← i.targetColumns schema) 1 rows

/-- A proposed row with defaults and new identities for what it leaves out. -/
def completeRow (config : Config) (proposed : Row) (auto : AutoIncrement) (row : Row) :
    List Column → Outcome (Row × AutoIncrement)
  | [] => .ok (row, auto)
  | c :: more => do
    let given := proposed.get? c.name
    let v := Value.ofOption (given.or c.defaultValue)
    if c.autoIncrement then
      let (id, auto) := auto.identify v
      completeRow config proposed auto (row.set c.name (.int id)) more
    else
      let stored ← c.stored config (given.isNone && c.defaultValue.isNone) v
      completeRow config proposed auto (row.set c.name stored) more

/-- The place of the first row that has a key in common with `row`, and that key. -/
def conflict? (keys : List (List String)) (staged : List StagedRow) (row : Row) :
    Option (Nat × List String) :=
  keys.findSome? fun key =>
    (staged.findIdx? fun other => sameKey other.row row key).map fun place => (place, key)

/-- A key that `row` has in common with a row at another place. -/
def clash? (keys : List (List String)) (staged : List StagedRow) (place : Nat) (row : Row) :
    Option (List String) :=
  keys.find? fun key =>
    staged.zipIdx.any fun (other, n) => n ≠ place && sameKey row other.row key

/-- Changes the row at a place as `ON DUPLICATE KEY UPDATE` says. -/
def updateStaged (i : Insert) (env : Env) (schema : Schema) (candidate : Row) (place : Nat)
    (current : Row) (plan : InsertPlan) : Outcome InsertPlan := do
  let row ← Row.assign env schema (some candidate) current i.onDuplicate
  if row == current then return plan
  else
    match clash? schema.keys plan.staged place row with
    | some key => duplicateEntry schema row key
    | none =>
      return { plan with
        staged := plan.staged.modify place fun old => { old with row, changed := true }
        affectedRows := plan.affectedRows + 2 }

/-- Adds a proposed row, or deals with the row that it shares a key with. -/
def stage (i : Insert) (env : Env) (schema : Schema) (plan : InsertPlan) (proposed : Row) :
    Outcome InsertPlan := do
  let (row, auto) ← completeRow env.setting.config proposed plan.auto {} schema.columns
  let candidate := row.qualified schema.name
  let plan := { plan with auto }
  match conflict? schema.keys plan.staged candidate with
  | none =>
    return { plan with
      staged := plan.staged ++ [{ id := none, row := candidate }]
      affectedRows := plan.affectedRows + 1 }
  | some (place, key) =>
    match i.onDuplicate, plan.staged[place]? with
    | _ :: _, some current => i.updateStaged env schema candidate place current.row plan
    | _, _ => if i.ignore then return plan else duplicateEntry schema candidate key

/-- What an INSERT adds and changes. -/
def plan (i : Insert) (store : Store) (env : Env) : Outcome (ChangeSet × Summary) := do
  let schema := (← store.table i.table).schema
  for a in i.onDuplicate do
    let _ ← schema.target a.column
  let proposed ← i.proposedRows env schema
  let rows := (← store.scanWithin env.setting.config i.table).map fun (id, row) =>
    (id, row.qualified i.table)
  let final ← proposed.foldlM (i.stage env schema) (.start schema rows)
  return (final.changes,
    { affectedRows := final.affectedRows, matchedRows := proposed.length,
      lastInsertId := final.auto.first })

end Insert

end MiniSql
