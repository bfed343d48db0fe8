import MiniSql.Grammar.Clause
import MiniSql.Token.Lexer

namespace MiniSql

namespace Grammar

open MiniSql.Parser

/-- The clauses of one kind of statement: each may follow those of lower rank. -/
abbrev ClauseOrder := List (Clause × Nat)

def selectOrder : ClauseOrder :=
  [(.select, 1), (.source, 2), (.filter, 3), (.groupBy, 4), (.having, 5), (.orderBy, 6),
    (.limit, 7)]

def updateOrder : ClauseOrder :=
  [(.update, 1), (.assign, 2), (.filter, 3), (.orderBy, 4), (.limit, 5)]

def deleteOrder : ClauseOrder :=
  [(.delete, 1), (.source, 2), (.filter, 3), (.orderBy, 4), (.limit, 5)]

/-- The rows of an INSERT are given in one of three ways. -/
def insertOrder : ClauseOrder :=
  [(.insert, 1), (.values, 2), (.select, 2), (.assign, 2), (.onDuplicateKey, 3)]

/-- One clause in its place, or a semicolon. -/
def clauseStep (order : ClauseOrder) (body : Clause → α → Parser α) :
    Nat × α → Parser (Option (Nat × α))
  | (rank, a) => do
    match ← peek with
    | none => return none
    | some t =>
      match t.clause? with
      | some c =>
        match order.lookup c with
        | some next =>
          if rank < next then return some (next, ← body c a) else unexpectedClause c
        | none => unexpectedClause c
      | none =>
        if t.isKind .separator ";" then
          advance
          return some (rank, a)
        else
          unexpectedToken

/-- The clauses after the first one, up to the end of the tokens. -/
def clauses (order : ClauseOrder) (body : Clause → α → Parser α) (a : α) : Parser α := do
  return (← grow (clauseStep order body) (1, a)).2

/-- An expression after the keyword of its clause. -/
def clauseExpression (inner : Nested) : Parser Expr := do
  advance
  expression inner

def item (inner : Nested) : Parser Item := do
  let (e, text) ← withText (expression inner)
  match e with
  | .star _ => return ⟨e, none, text⟩
  | _ => return ⟨e, ← alias?, text⟩

def selectClause (inner : Nested) (c : Clause) (q : Select) : Parser Select := do
  match c with
  | .source => return { q with sources := ← sources inner }
  | .filter => return { q with filter := ← clauseExpression inner }
  | .groupBy =>
    advance
    return { q with groupBy := ← entries (expression inner) }
  | .having => return { q with having := ← clauseExpression inner }
  | .orderBy => return { q with orderBy := ← orderBy inner }
  | .limit => return { q with limit := ← limit }
  | other => unexpectedClause other

def selectBody (inner : Nested) : Parser Select := do
  expectClause .select
  let distinct ← eat fun t => t.isReserved "DISTINCT"
  if !distinct then
    let _ ← eat fun t => t.isReserved "ALL"
  let items ← entries (item inner)
  clauses selectOrder (selectClause inner) {
    distinct, items, sources := [], filter := none, groupBy := [], having := none, orderBy := [],
    limit := none, sql := "" }

/-- A SELECT that takes all tokens there are; its text is theirs. -/
def select (inner : Nested) : Parser Select := do
  let (q, sql) ← withText (selectBody inner)
  return { q with sql }

def updateClause (inner : Nested) (c : Clause) (u : Update) : Parser Update := do
  match c with
  | .assign => return { u with assignments := ← assignments inner }
  | .filter => return { u with filter := ← clauseExpression inner }
  | .orderBy => return { u with orderBy := ← orderBy inner }
  | .limit => return { u with limit := ← limit }
  | other => unexpectedClause other

def update (inner : Nested) : Parser Update := do
  expectClause .update
  let table ← tableName
  indexHints
  let u ← clauses updateOrder (updateClause inner) {
    table, assignments := [], filter := none, orderBy := [], limit := none, sql := ← read }
  if u.assignments.isEmpty then fault (.missing "SET clause") else return u

/-- The one table that a DELETE names. -/
def deleteSource (inner : Nested) : Parser Source := do
  match ← sources inner with
  | [⟨.table name, aliasName, kind, condition⟩] => return ⟨.table name, aliasName, kind, condition⟩
  | _ => fault .severalDeleteTables

def deleteClause (inner : Nested) (c : Clause) (d : Delete) : Parser Delete := do
  match c with
  | .source => return { d with source := ← deleteSource inner }
  | .filter => return { d with filter := ← clauseExpression inner }
  | .orderBy => return { d with orderBy := ← orderBy inner }
  | .limit => return { d with limit := ← limit }
  | other => unexpectedClause other

def delete (inner : Nested) : Parser Delete := do
  expectClause .delete
  let d ← clauses deleteOrder (deleteClause inner) {
    source := none, filter := none, orderBy := [], limit := none, sql := ← read }
  if d.source.isNone then fault (.missing "FROM clause") else return d

/-- The expressions of one row between parentheses. -/
def rowValues (inner : Nested) : Parser (List Expr) := do
  expect .paren "("
  if ← eat isClose then
    return []
  else
    let row ← entries (expression inner)
    expect .paren ")"
    return row

/-- The SELECT of an INSERT takes the tokens up to `ON DUPLICATE KEY UPDATE`. -/
def insertedSelect (inner : Nested) : Parser Select := fun sql tokens => do
  let continues (t : Token) : Bool := !t.isClause .onDuplicateKey
  let (q, _) ← select inner sql (tokens.takeWhile continues)
  return (q, tokens.dropWhile continues)

/-- The parts of an INSERT that its clauses give. -/
structure InsertParts where
  rows : Option InsertRows := none
  onDuplicate : List Assignment := []

def insertClause (inner : Nested) (c : Clause) (parts : InsertParts) : Parser InsertParts := do
  match c with
  | .values =>
    advance
    return { parts with rows := some (.values (← entries (rowValues inner))) }
  | .select => return { parts with rows := some (.query (← insertedSelect inner)) }
  | .assign => return { parts with rows := some (.assignments (← assignments inner)) }
  | .onDuplicateKey => return { parts with onDuplicate := ← assignments inner }
  | other => unexpectedClause other

def insert (inner : Nested) : Parser Insert := do
  expectClause .insert
  let ignore ← eat fun t => t.isReserved "IGNORE"
  let _ ← eat fun t => t.isReserved "INTO"
  let table ← tableName
  let columns ← if ← nextIs isOpen then nameList "column name" else pure []
  let parts ← clauses insertOrder (insertClause inner) {}
  match parts.rows with
  | none => fault (.missing "VALUES, SELECT or SET")
  | some rows =>
    match rows, columns with
    | .assignments _, _ :: _ => fault .columnListWithSet
    | _, _ =>
      return { table, ignore, columns, rows, onDuplicate := parts.onDuplicate, sql := ← read }

def statement (inner : Nested) : Parser Statement := do
  match (← peek).bind Token.clause? with
  | some .select => return .select (← select inner)
  | some .update => return .update (← update inner)
  | some .delete => return .delete (← delete inner)
  | some .insert => return .insert (← insert inner)
  | _ => unexpectedToken

end Grammar

/-- What is read inside at most `depth` parentheses that contain each other. -/
def Nested.within : Nat → Nested
  | 0 => ⟨Parser.unexpectedToken, Parser.unexpectedToken⟩
  | depth + 1 => ⟨Grammar.expression (within depth), Grammar.select (within depth)⟩

/-- `p` applied to tokens. Each parenthesis inside another takes a token, so that there are fewer
of them than tokens. -/
def Parser.runOn (p : Nested → Parser α) (sql : String) (tokens : List Token) :
    Outcome (α × List Token) :=
  p (Nested.within tokens.length) sql tokens

/-- The statement that a text consists of. -/
def Statement.parse (sql : String) : Outcome Statement := do
  let tokens ← Token.ofText sql
  let (s, _) ← Parser.runOn Grammar.statement sql tokens
  return s

end MiniSql
