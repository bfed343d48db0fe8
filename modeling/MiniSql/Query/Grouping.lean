import MiniSql.Query.Relation
import MiniSql.Value.GroupKey

namespace MiniSql

/-- The first element of each key, in order, without those whose key has been seen before. -/
def firstOfKey (key : α → String) (seen : List String) : List α → List α
  | [] => []
  | a :: as =>
    if key a ∈ seen then firstOfKey key seen as
    else a :: firstOfKey key (key a :: seen) as

/-- The rows of equal key together, in the order in which the keys occur first. -/
def groupByKey (keyed : List (String × Row)) : List (List Row) :=
  (firstOfKey Prod.fst [] keyed).map fun (key, _) =>
    (keyed.filter fun (other, _) => other == key).map Prod.snd

namespace Select

/-- The integer that an entry of GROUP BY or ORDER BY consists of. -/
def ordinal? : Expr → Option Int
  | .literal (.int n) => some n.toInt
  | _ => none

/-- The entry at position `n` of a list that starts at one. -/
def atPosition? (entries : List α) (n : Int) : Option α :=
  if 1 ≤ n then entries[(n - 1).toNat]? else none

/-- What an entry of GROUP BY stands for: a position or an alias means an entry of the select list,
but the name of a source column means that column. -/
def groupExpr (q : Select) (header : Row) (e : Expr) : Outcome Expr :=
  match ordinal? e with
  | some n =>
    match atPosition? q.items n with
    | some item =>
      match item.expr with
      | .star _ => refuse .groupByStar
      | e => .ok e
    | none => refuse (.unknownColumnIn (toString n) "group statement")
  | none =>
    match e with
    | .column ⟨none, name⟩ =>
      let aliased := q.items.find? fun item => item.aliasName.any fun a => Text.sameName a name
      match header.hasColumn name, aliased with
      | false, some item => .ok item.expr
      | _, _ => .ok e
    | _ => .ok e

/-- The key of a row under the given expressions. -/
def keyOf (env : Env) (outer : Option Row) (exprs : List Expr) (row : Row) : Outcome String := do
  return groupKey (← exprs.mapM fun e => e.eval env { Scope.single row with outer })

/-- The groups of a SELECT; without GROUP BY all rows are one group, which may be empty. -/
def groups (env : Env) (q : Select) (header : Row) (outer : Option Row) (rows : List Row) :
    Outcome (List (List Row)) := do
  if q.groupBy.isEmpty then return [rows]
  else
    let exprs ← q.groupBy.mapM (groupExpr q header)
    let keyed ← rows.mapM fun row => do return (← keyOf env outer exprs row, row)
    return groupByKey keyed

/-- Whether rows are grouped: by a clause, or because an aggregate is called. -/
def isGrouped (q : Select) : Bool :=
  !q.groupBy.isEmpty || q.items.any (fun item => item.expr.hasAggregate)
    || q.having.any Expr.hasAggregate || q.orderBy.any fun key => key.expr.hasAggregate

end Select

end MiniSql
