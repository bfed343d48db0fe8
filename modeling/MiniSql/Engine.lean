import MiniSql.Grammar.Statement
import MiniSql.Mutation.Delete
import MiniSql.Mutation.Insert
import MiniSql.Mutation.Update

namespace MiniSql

/-- What a statement yields. -/
inductive Result where
  | rows (r : ResultSet)
  | summary (s : Summary)

/-- Tables together with how statements are carried out on them. -/
structure Engine where
  store : Store := {}
  setting : Setting

namespace Engine

/-- Carries out the change of one table that is planned. -/
def change (table : String) (planned : Outcome (ChangeSet × Summary)) : InPlace Store Result := do
  let (changes, summary) ← planned
  Store.write table changes
  return .summary summary

/-- Carries out a statement on the store. -/
def steps (setting : Setting) (statement : Statement) : InPlace Store Result := do
  let store ← get
  let env := Env.ofStore store setting
  match statement with
  | .select q => return .rows (← q.run store setting none)
  | .update u => change u.table (u.plan store env)
  | .delete d =>
    let (table, _) ← d.target
    change table (d.plan store env)
  | .insert i => change i.table (i.plan store env)

/-- Carries out a parsed statement. -/
def run (e : Engine) (s : Statement) : Except Failure Result × Engine :=
  let (result, store) := steps e.setting s e.store
  (result.mapError fun cause => Failure.inStatement { cause } s.sql, { e with store })

/-- Parses and carries out a statement. -/
def execute (e : Engine) (sql : String) : Except Failure Result × Engine :=
  match Statement.parse sql with
  | .ok s => e.run s
  | .error cause => (.error (Failure.inStatement { cause := cause } sql), e)

/-- The rows of a SELECT. Any other statement is carried out all the same. -/
def query (e : Engine) (sql : String) : Except Failure ResultSet × Engine :=
  match e.execute sql with
  | (.ok (.rows r), e) => (.ok r, e)
  | (.ok (.summary _), e) => (.error { cause := .failed (.noRows sql) }, e)
  | (.error failure, e) => (.error failure, e)

end Engine

end MiniSql
