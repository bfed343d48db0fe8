import MiniSql.Eval
import MiniSql.Store

namespace MiniSql

/-- `f` of each element in turn, with the results one after another. -/
def gather (f : α → Outcome (List β)) : List α → Outcome (List β)
  | [] => .ok []
  | a :: as => do
    let bs ← f a
    return bs ++ (← gather f as)

/-- The elements that satisfy `p`. -/
def keepIf (p : α → Outcome Bool) : List α → Outcome (List α)
  | [] => .ok []
  | a :: as => do
    let keep ← p a
    let rest ← keepIf p as
    return if keep then a :: rest else rest

/-- Rows with equal columns. -/
structure Relation where
  /-- The columns, all NULL. -/
  header : Row
  rows : List Row

/-- The rows of a table, of which the configuration may allow only so many. -/
def Store.scanWithin (store : Store) (config : Config) (name : String) :
    Outcome (List (Nat × Row)) := do
  let rows ← store.scan name
  match config.maxScanRows with
  | some most =>
    if most < rows.length then refuse (.longScan name rows.length most) else return rows
  | none => return rows

namespace Relation

/-- One row without columns, which a SELECT without FROM reads. -/
def unit : Relation := ⟨{}, [{}]⟩

def headerOf (aliasName : String) (names : List String) : Row :=
  ⟨names.map fun name => { table := some aliasName, name, value := .null }⟩

/-- The rows of one source, under its alias. A derived table sees no row outside it. -/
def load (store : Store) (env : Env) (s : Source) : Outcome Relation := do
  match s.origin with
  | .derived q =>
    let result ← env.select q none
    return ⟨headerOf s.aliasName result.columns,
      result.rows.map fun row => row.qualified s.aliasName⟩
  | .table name =>
    let rows ← store.scanWithin env.setting.config name
    let schema := (← store.table name).schema
    return ⟨headerOf s.aliasName (schema.columns.map Column.name),
      rows.map fun (_, row) => row.qualified s.aliasName⟩

/-- The joined rows. Rows on the side that an outer join keeps go with NULLs if nothing matches
them. -/
def joinRows (isMatch : Row → Outcome Bool) (kind : JoinKind) (left right : Relation) :
    Outcome (List Row) :=
  match kind with
  | .inner | .cross =>
    gather (fun l => keepIf isMatch (right.rows.map fun r => l.join r)) left.rows
  | .left =>
    gather (fun l => do
      let rows ← keepIf isMatch (right.rows.map fun r => l.join r)
      return if rows.isEmpty then [l.join right.header] else rows) left.rows
  | .right =>
    gather (fun r => do
      let rows ← keepIf isMatch (left.rows.map fun l => l.join r)
      return if rows.isEmpty then [left.header.join r] else rows) right.rows

/-- Which side's copy of a shared column takes part only under its alias: the one that may be NULL
where the other is not. -/
def isSecondary (s : Source) (table : Option String) : Bool :=
  if s.kind = .right then table != some s.aliasName else table == some s.aliasName

/-- A join with a further source. -/
def join (env : Env) (outer : Option Row) (left right : Relation) (s : Source) :
    Outcome Relation := do
  let isMatch (row : Row) : Outcome Bool :=
    match s.predicate? with
    | some e => do return (← e.eval env { Scope.single row with outer }).isTrue
    | none => .ok true
  let rows ← joinRows isMatch s.kind left right
  let share (row : Row) : Row :=
    s.sharedColumns.foldl (fun row name => row.hide name (isSecondary s)) row
  return ⟨share (left.header.join right.header), rows.map share⟩

/-- The sources joined from left to right. -/
def joinAll (store : Store) (env : Env) (outer : Option Row) (left : Relation) :
    List Source → Outcome Relation
  | [] => .ok left
  | s :: more => do
    let right ← load store env s
    joinAll store env outer (← join env outer left right s) more

def ofSources (store : Store) (env : Env) (outer : Option Row) : List Source → Outcome Relation
  | [] => .ok unit
  | s :: more => do joinAll store env outer (← load store env s) more

end Relation

end MiniSql
