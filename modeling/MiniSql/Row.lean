import MiniSql.Value.Document

namespace MiniSql

/-- A named value of a row. -/
structure Cell where
  /-- The alias of the table the value was read from, if any. -/
  table : Option String := none
  name : String
  value : Value
  /-- Whether only a name with the table's alias reaches the cell. -/
  hidden : Bool := false
deriving BEq

/-- Whether a column reference means this cell. Without a table it means any visible one. -/
def Cell.answers (c : Cell) (table : Option String) (name : String) : Bool :=
  Text.sameName c.name name && (if table.isSome then c.table == table else !c.hidden)

/-- Named values in order. -/
structure Row where
  cells : List Cell := []
deriving BEq, Inhabited

namespace Row

/-- `f` applied to the first cell that satisfies `p`. -/
def updateFirst (p : Cell → Bool) (f : Cell → Cell) : List Cell → List Cell
  | [] => []
  | c :: cs => if p c then f c :: cs else c :: updateFirst p f cs

def names (r : Row) : List String :=
  r.cells.map Cell.name

def values (r : Row) : List Value :=
  r.cells.map Cell.value

/-- The value of a column; a reference without a table takes the first match. -/
def lookup? (r : Row) (table : Option String) (name : String) : Option Value :=
  (r.cells.find? fun c => c.answers table name).map Cell.value

def get? (r : Row) (name : String) : Option Value :=
  r.lookup? none name

/-- Whether a name without a table matches columns of more than one table. -/
def isAmbiguous (r : Row) (name : String) : Bool :=
  match r.cells.filter fun c => c.answers none name with
  | [] => false
  | first :: more => more.any fun c => c.table != first.table

/-- Leaves the first visible column of this name whose table satisfies `side` to references with a
table. -/
def hide (r : Row) (name : String) (side : Option String → Bool) : Row :=
  ⟨updateFirst (fun c => c.answers none name && side c.table) (fun c => { c with hidden := true })
    r.cells⟩

/-- Adds a column at the end. -/
def push (r : Row) (table : Option String) (name : String) (value : Value) : Row :=
  ⟨r.cells ++ [⟨table, name, value, false⟩]⟩

/-- Gives the column without a table that has this name a new value, or adds one. -/
def set (r : Row) (name : String) (value : Value) : Row :=
  let isTarget (c : Cell) : Bool := c.table.isNone && Text.sameName c.name name
  if r.cells.any isTarget then ⟨updateFirst isTarget (fun c => { c with value }) r.cells⟩
  else r.push none name value

/-- Gives the first column of this name a new value, whatever its table. -/
def replace (r : Row) (name : String) (value : Value) : Row :=
  ⟨updateFirst (fun c => Text.sameName c.name name) (fun c => { c with value }) r.cells⟩

def hasColumn (r : Row) (name : String) : Bool :=
  r.cells.any fun c => Text.sameName c.name name

/-- The row as read through a table alias. -/
def qualified (r : Row) (aliasName : String) : Row :=
  ⟨r.cells.map fun c => { c with table := some aliasName }⟩

/-- The columns of one row and then those of another. -/
def join (r s : Row) : Row :=
  ⟨r.cells ++ s.cells⟩

/-- The same columns, all NULL. -/
def toNulls (r : Row) : Row :=
  ⟨r.cells.map fun c => { c with value := .null }⟩

def ofList (columns : List (String × Value)) : Row :=
  columns.foldl (fun r (name, value) => r.set name value) {}

/-- The row as an object; of equal names the last counts. -/
def toJson (r : Row) : Json :=
  Json.ofMembers (r.cells.map fun c => (c.name, c.value.toJson))

end Row

end MiniSql
