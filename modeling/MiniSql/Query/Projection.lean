import MiniSql.Query.Grouping
import MiniSql.Query.Sorting
import MiniSql.Syntax.Depth

namespace MiniSql

/-- An output row with the values it is sorted by. -/
structure OutputRow where
  keys : List Value
  row : Row

/-- The name of an output column: the alias, the name of a column, or else the text. -/
def Item.outputName (item : Item) : String :=
  match item.aliasName, item.expr with
  | some aliasName, _ => aliasName
  | none, .column c => c.name
  | none, _ => item.text

/-- Whether `*`, or `*` of one table, stands for a column. -/
def Cell.inStar (c : Cell) (table : Option String) : Bool :=
  if table.isSome then c.table == table else !c.hidden

namespace Select

/-- The names of the output columns. A star adds all it stands for, any other entry one of a new
name. -/
def outputColumns (header : Row) (columns : List String) : List Item → Outcome (List String)
  | [] => .ok columns
  | item :: more =>
    match item.expr with
    | .star table =>
      match table.filter fun t => !header.cells.any fun c => c.table == some t with
      | some unknown => refuse (.unknownSource unknown)
      | none =>
        let added := (header.cells.filter fun c => c.inStar table).map Cell.name
        outputColumns header (columns ++ added) more
    | _ =>
      let name := item.outputName
      if columns.any fun c => Text.sameName c name then outputColumns header columns more
      else outputColumns header (columns ++ [name]) more

/-- The output row of a scope. An entry that is not a star sets the column of its name. -/
def outputRow (env : Env) (s : Scope) (out : Row) : List Item → Outcome Row
  | [] => .ok out
  | item :: more =>
    match item.expr with
    | .star table =>
      let cells : List Cell := match s.row? with
        | some row => row.cells.filter fun c => c.inStar table
        | none => []
      outputRow env s (cells.foldl (fun out c => out.push none c.name c.value) out) more
    | e => do outputRow env s (out.set item.outputName (← e.eval env s)) more

/-- The value an output row is sorted by. A position means the output column there. -/
def sortKey (env : Env) (columns : List String) (out : Row) (s : Scope) (key : OrderKey) :
    Outcome Value :=
  match ordinal? key.expr with
  | some n =>
    match (atPosition? columns n).bind out.get? with
    | some v => .ok v
    | none => refuse (.unknownColumnIn (toString n) "order clause")
  | none => key.expr.eval env s

/-- The output of a scope, unless HAVING leaves it out. HAVING and ORDER BY see the output row. -/
def project (env : Env) (q : Select) (columns : List String) (s : Scope) :
    Outcome (List OutputRow) := do
  let out ← outputRow env s {} q.items
  let visible := { s with aliases := some out }
  let kept ← match q.having with
    | some e => do pure (← e.eval env visible).isTrue
    | none => pure true
  if kept then return [⟨← q.orderBy.mapM (sortKey env columns out visible), out⟩]
  else return []

/-- The scopes that a SELECT has an output row for. -/
def scopes (env : Env) (q : Select) (header : Row) (outer : Option Row) (rows : List Row) :
    Outcome (List Scope) := do
  if q.isGrouped then
    let groups ← q.groups env header outer rows
    return groups.map fun group =>
      { (if group.isEmpty then Scope.emptyGroup header else Scope.group group) with outer }
  else
    return rows.map fun row => { Scope.single row with outer }

/-- The rows that satisfy a condition, if one is given. -/
def filtered (env : Env) (condition : Option Expr) (outer : Option Row) (rows : List Row) :
    Outcome (List Row) :=
  match condition with
  | some e => keepIf (fun row => do
      return (← e.eval env { Scope.single row with outer }).isTrue) rows
  | none => .ok rows

/-- The result of a SELECT, when `env` gives those of the SELECTs inside. -/
def runWith (store : Store) (env : Env) (q : Select) (outer : Option Row) : Outcome ResultSet := do
  let relation ← Relation.ofSources store env outer q.sources
  let columns ← outputColumns relation.header [] q.items
  let rows ← filtered env q.filter outer relation.rows
  let outputs ← gather (q.project env columns) (← q.scopes env relation.header outer rows)
  let distinct :=
    if q.distinct then firstOfKey (fun o => groupKey o.row.values) [] outputs else outputs
  let (skip, most) := match q.limit with
    | some l => (l.offset, some l.count)
    | none => (0, none)
  let keyed := distinct.map fun o => (o.keys, o.row)
  return ⟨columns, arrange (q.orderBy.map OrderKey.descending) skip most keyed⟩

/-- The result of a SELECT in which others are nested at most `depth` deep, itself counted. -/
def runWithin (store : Store) (setting : Setting) : Nat → Select → Option Row → Outcome ResultSet
  | 0, _, _ => refuse .nestedTooDeep
  | depth + 1, q, outer => q.runWith store ⟨setting, runWithin store setting depth⟩ outer

/-- The result of a SELECT. `outer` is the current row of the query around it. -/
def run (store : Store) (setting : Setting) (q : Select) (outer : Option Row) : Outcome ResultSet :=
  runWithin store setting q.depth q outer

end Select

/-- The evaluation of expressions on the tables of a store. -/
def Env.ofStore (store : Store) (setting : Setting) : Env :=
  ⟨setting, Select.run store setting⟩

namespace ResultSet

/-- The values of an output column. -/
def column (r : ResultSet) (name : String) : List Value :=
  r.rows.map fun row => .ofOption (row.get? name)

def toJson (r : ResultSet) : List Json :=
  r.rows.map Row.toJson

end ResultSet

end MiniSql
