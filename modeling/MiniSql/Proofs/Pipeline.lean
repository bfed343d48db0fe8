import MiniSql.Proofs.RowShape

namespace MiniSql

/-- Whether a condition, if there is one, is true by a way to evaluate expressions. -/
def passesBy (eval : Expr → Reading) (condition : Option Expr) (s : Scope) : Outcome Bool :=
  match condition with
  | some e => do return (← eval e s).isTrue
  | none => .ok true

namespace Relation
variable (load : Source → Outcome Relation) (eval : Expr → Reading)

/-- A join of rows that see no others around them. -/
def joinBy (left right : Relation) (s : Source) : Outcome Relation := do
  let rows ← joinRows (fun row => passesBy eval s.predicate? (.single row)) s.kind left right
  return ⟨share s (left.header.join right.header), rows.map (share s)⟩

def joinAllBy (left : Relation) : List Source → Outcome Relation
  | [] => .ok left
  | s :: more => do
    let right ← load s
    joinAllBy (← joinBy eval left right s) more

def ofSourcesBy : List Source → Outcome Relation
  | [] => .ok unit
  | s :: more => do joinAllBy load eval (← load s) more

end Relation

namespace Select
variable (load : Source → Outcome Relation) (eval : Expr → Reading)

def keyBy (exprs : List Expr) (row : Row) : Outcome String := do
  return groupKey (← exprs.mapM fun e => eval e (.single row))

def groupsBy (q : Select) (header : Row) (rows : List Row) : Outcome (List (List Row)) := do
  if q.groupBy.isEmpty then return [rows]
  else
    let exprs ← q.groupBy.mapM (groupExpr q header)
    let keyed ← rows.mapM fun row => do return (← keyBy eval exprs row, row)
    return groupByKey keyed

def scopesBy (q : Select) (header : Row) (rows : List Row) : Outcome (List Scope) := do
  if q.isGrouped then
    let groups ← q.groupsBy eval header rows
    return groups.map fun group => if group.isEmpty then .emptyGroup header else .group group
  else return rows.map .single

def outputRowBy (s : Scope) (out : Row) : List Item → Outcome Row
  | [] => .ok out
  | item :: more =>
    match item.expr with
    | .star table =>
      let cells : List Cell := match s.row? with
        | some row => row.cells.filter fun c => c.inStar table
        | none => []
      outputRowBy s (cells.foldl (fun out c => out.push none c.name c.value) out) more
    | e => do outputRowBy s (out.set item.outputName (← eval e s)) more

def sortKeyBy (columns : List String) (out : Row) (s : Scope) (key : OrderKey) : Outcome Value :=
  match ordinal? key.expr with
  | some n =>
    match (atPosition? columns n).bind out.get? with
    | some v => .ok v
    | none => refuse (.unknownColumnIn (toString n) "order clause")
  | none => eval key.expr s

def projectBy (q : Select) (columns : List String) (s : Scope) : Outcome (List OutputRow) := do
  let out ← outputRowBy eval s {} q.items
  keyedIf (OutputRow.mk · out) (passesBy eval q.having { s with aliases := some out })
    (q.orderBy.mapM (sortKeyBy eval columns out { s with aliases := some out }))

/-- A SELECT, given the rows of its sources and the values of its expressions. No row around it is seen but
through these. -/
def runBy (q : Select) : Outcome ResultSet := do
  let relation ← Relation.ofSourcesBy load eval q.sources
  let columns ← outputColumns relation.header [] q.items
  let rows ← keepIf (fun row => passesBy eval q.filter (.single row)) relation.rows
  let outputs ← gather (q.projectBy eval columns) (← q.scopesBy eval relation.header rows)
  let distinct :=
    if q.distinct then firstOfKey (fun o => groupKey o.row.values) [] outputs else outputs
  let (skip, most) := match q.limit with
    | some l => (l.offset, some l.count)
    | none => (0, none)
  let keyed := distinct.map fun o => (o.keys, o.row)
  return ⟨columns, arrange (q.orderBy.map OrderKey.descending) skip most keyed⟩

end Select

section
variable {store : Store} {env : Env} {outer : Option Row}

/-- Evaluation with a row around each scope. -/
def Env.evalWithin (env : Env) (outer : Option Row) (e : Expr) : Reading :=
  fun s => e.eval env { s with outer }

theorem passes_within (condition : Option Expr) (s : Scope) :
    passes env condition { s with outer } = passesBy (env.evalWithin outer) condition s := by
  cases condition <;> rfl

namespace Relation

theorem join_within (left right : Relation) (s : Source) :
    join env outer left right s = joinBy (env.evalWithin outer) left right s := by
  have same : (fun row => passes env s.predicate? { Scope.single row with outer }) =
      fun row => passesBy (env.evalWithin outer) s.predicate? (.single row) := by
    funext row
    exact passes_within s.predicate? (.single row)
  unfold joinBy
  rw [← same]
  rfl

theorem joinAll_within (left : Relation) (ss : List Source) :
    joinAll store env outer left ss = joinAllBy (load store env) (env.evalWithin outer) left ss := by
  induction ss generalizing left with
  | nil => rfl
  | cons s ss ih =>
    unfold joinAll joinAllBy
    refine Outcome.bind_congr fun right _ => ?_
    rw [join_within]
    exact Outcome.bind_congr fun joined _ => ih joined

theorem ofSources_within (ss : List Source) :
    ofSources store env outer ss = ofSourcesBy (load store env) (env.evalWithin outer) ss := by
  cases ss with
  | nil => rfl
  | cons s ss => exact Outcome.bind_congr fun left _ => joinAll_within left ss

end Relation

namespace Select
variable {q : Select}

theorem groups_within (header : Row) (rows : List Row) :
    q.groups env header outer rows = q.groupsBy (env.evalWithin outer) header rows := rfl

theorem scopes_within (header : Row) (rows : List Row) : q.scopes env header outer rows =
    q.scopesBy (env.evalWithin outer) header rows >>= fun scopes => .ok (scopes.map fun s => { s with outer }) := by
  unfold scopes scopesBy
  rw [groups_within]
  split
  · rw [bind_assoc]
    refine Outcome.bind_congr fun groups _ => ?_
    show Except.ok _ = Except.ok _
    rw [List.map_map]
    refine congrArg Except.ok (List.map_congr_left fun group _ => ?_)
    rfl
  · show Except.ok _ = Except.ok _
    rw [List.map_map]
    rfl

theorem outputRow_within (s : Scope) (out : Row) (items : List Item) :
    outputRow env { s with outer } out items = outputRowBy (env.evalWithin outer) s out items := by
  induction items generalizing out with
  | nil => rfl
  | cons item more ih =>
    unfold outputRow outputRowBy
    cases item.expr with
    | star table => exact ih _
    | _ => exact Outcome.bind_congr fun v _ => ih _

theorem project_within (columns : List String) (s : Scope) :
    q.project env columns { s with outer } = q.projectBy (env.evalWithin outer) columns s := by
  rw [project_eq, outputRow_within]
  unfold projectBy
  refine Outcome.bind_congr fun out _ => ?_
  rw [show passes env q.having _ = _ from passes_within q.having { s with aliases := some out }]
  rfl

/-- Every SELECT is one in which the row around it is seen through its expressions only. -/
theorem runWith_within (store : Store) (env : Env) (q : Select) (outer : Option Row) :
    q.runWith store env outer = q.runBy (Relation.load store env) (env.evalWithin outer) := by
  unfold runWith runBy
  rw [Relation.ofSources_within]
  refine Outcome.bind_congr fun relation _ => Outcome.bind_congr fun columns _ => ?_
  rw [filtered_eq, keepIf_congr fun row _ => passes_within q.filter (.single row)]
  refine Outcome.bind_congr fun rows _ => ?_
  rw [scopes_within, bind_assoc]
  refine Outcome.bind_congr fun scopes _ => ?_
  have projected : gather (q.project env columns) (scopes.map fun s => { s with outer }) =
      gather (q.projectBy (env.evalWithin outer) columns) scopes := by
    rw [gather_map]
    exact gather_congr fun s _ => project_within columns s
  exact projected ▸ rfl

end Select

end

end MiniSql
