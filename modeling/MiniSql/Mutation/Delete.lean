import MiniSql.Mutation.Target

namespace MiniSql.Delete

/-- The table that a DELETE names, with its alias. -/
def target (d : Delete) : Outcome (String × String) :=
  match d.source with
  | none => refuse .deleteWithoutTable
  | some s =>
    match s.origin with
    | .derived _ => refuse .deleteFromQuery
    | .table name => .ok (name, s.aliasName)

/-- The rows that a DELETE removes. -/
def plan (d : Delete) (store : Store) (env : Env) : Outcome (ChangeSet × Summary) := do
  let (table, aliasName) ← d.target
  let rows := (← store.scanWithin env.setting.config table).map fun (id, row) =>
    (id, row.qualified aliasName)
  let matched ← targets env d.filter d.orderBy d.limit rows
  return ({ deletes := matched.map Prod.fst },
    { affectedRows := matched.length, matchedRows := matched.length })

end MiniSql.Delete
