import MiniSql.Error
import MiniSql.Row
import MiniSql.Schema

namespace MiniSql

/-- The rows of a table, each with an identity of its own, in the order of these. -/
structure Table where
  schema : Schema
  rows : List (Nat × Row) := []
  /-- The identity of the next row. -/
  nextId : Nat := 0

/-- What one statement does to one table. -/
structure ChangeSet where
  inserts : List Row := []
  /-- The identities of rows with the columns that change. -/
  updates : List (Nat × Row) := []
  deletes : List Nat := []

def ChangeSet.isEmpty (c : ChangeSet) : Bool :=
  c.inserts.isEmpty && c.updates.isEmpty && c.deletes.isEmpty

/-- Tables, each known by the name in its schema. -/
structure Store where
  tables : List Table := []

/-- Steps that write to a state in place. What a step has written stays when a later one fails. -/
abbrev InPlace (σ : Type) := ExceptT Error (StateM σ)

namespace Table

/-- A row as the table keeps it: the columns of the schema in its order, with the given values cast
to their types, and defaults for the missing ones. -/
def stored (t : Table) (row : Row) : Row :=
  Row.ofList (t.schema.columns.map fun c =>
    (c.name, match row.get? c.name with
      | some v => c.type.cast v
      | none => .ofOption c.defaultValue))

/-- A row as the table keeps it, unless it has a column that the table has not. -/
def normalize (t : Table) (row : Row) : Outcome Row :=
  match row.names.find? fun name => (t.schema.findColumn? name).isNone with
  | some name => refuse (.unknownTableColumn name t.schema.name)
  | none => .ok (t.stored row)

def row? (t : Table) (id : Nat) : Option Row :=
  t.rows.lookup id

/-- The row with the columns of another written over it. -/
def merge (row changes : Row) : Row :=
  changes.cells.foldl (fun r c => r.set c.name c.value) row

/-- A new row at the end. -/
def append (t : Table) (row : Row) : Table :=
  { t with rows := t.rows ++ [(t.nextId, row)], nextId := t.nextId + 1 }

def replaceRow (t : Table) (id : Nat) (row : Row) : Table :=
  { t with rows := t.rows.map fun (other, old) => (other, if other = id then row else old) }

def removeRow (t : Table) (id : Nat) : Table :=
  { t with rows := t.rows.filter fun (other, _) => other ≠ id }

/-- The rows that a change adds, and those that it puts in the place of old ones, as the table keeps
them. Each update starts from the row as it is before the change. -/
def check (t : Table) (name : String) (c : ChangeSet) :
    Outcome (List Row × List (Nat × Row)) := do
  match (c.updates.map Prod.fst ++ c.deletes).find? fun id => (t.row? id).isNone with
  | some id => .error (.storage (.missingRow id name))
  | none =>
    let inserts ← c.inserts.mapM t.normalize
    let updates ← c.updates.mapM fun (id, changes) => do
      return (id, ← t.normalize (merge ((t.row? id).getD {}) changes))
    return (inserts, updates)

/-- Writes a change row by row, once all of it is checked. -/
def write (name : String) (c : ChangeSet) : InPlace Table Unit := do
  let (inserts, updates) ← (← get).check name c
  updates.forM fun (id, row) => modify fun t => t.replaceRow id row
  c.deletes.forM fun id => modify fun t => t.removeRow id
  inserts.forM fun row => modify fun t => t.append row

end Table

namespace Store

def table? (s : Store) (name : String) : Option Table :=
  s.tables.find? fun t => t.schema.name = name

def schema? (s : Store) (name : String) : Option Schema :=
  (s.table? name).map Table.schema

/-- The table, or an error that names it. -/
def table (s : Store) (name : String) : Outcome Table :=
  match s.table? name with
  | some t => .ok t
  | none => .error (.unknownTable name)

/-- `t` in the place of the table of its name, or at the end. -/
def putAmong (t : Table) : List Table → List Table
  | [] => [t]
  | other :: more =>
    if other.schema.name = t.schema.name then t :: more else other :: putAmong t more

def put (s : Store) (t : Table) : Store :=
  ⟨putAmong t s.tables⟩

/-- A table without rows, in place of any other of its name. -/
def create (s : Store) (schema : Schema) : Store :=
  s.put { schema := schema }

/-- Carries out steps on one table. -/
def onTable (name : String) (steps : InPlace Table α) : InPlace Store α := fun s =>
  match s.table name with
  | .ok t =>
    let (result, t) := steps t
    (result, s.put t)
  | .error fault => (.error fault, s)

/-- Writes a change of one table. -/
def write (name : String) (c : ChangeSet) : InPlace Store Unit :=
  onTable name (Table.write name c)

/-- The store after a change, if nothing in it is refused. -/
def apply (s : Store) (name : String) (c : ChangeSet) : Outcome Store :=
  match write name c s with
  | (.ok (), s) => .ok s
  | (.error fault, _) => .error fault

/-- Adds a row that a document describes, and gives its identity. -/
def insertDocument (s : Store) (name : String) (document : Json) : Outcome (Nat × Store) := do
  match document with
  | .object members =>
    let row := Row.ofList (members.map fun (key, v) => (key, Value.ofJson v))
    let t ← s.table name
    return (t.nextId, s.put (t.append (← t.normalize row)))
  | other => .error (.storage (.notAnObject other.write))

def rowCount (s : Store) (name : String) : Nat :=
  match s.table? name with
  | some t => t.rows.length
  | none => 0

/-- The rows of a table with their identities. -/
def scan (s : Store) (name : String) : Outcome (List (Nat × Row)) := do
  return (← s.table name).rows

end Store

end MiniSql
