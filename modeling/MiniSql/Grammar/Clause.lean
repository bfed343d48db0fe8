import MiniSql.Grammar.Expression

namespace MiniSql.Grammar

open MiniSql.Parser

/-- A table name; the database before it is dropped. -/
def tableName : Parser String := do
  let name ← expectName "table name"
  if (← nextIs isPoint) && (← secondIs isName) then
    advance
    expectName "table name"
  else
    return name

/-- An alias, if one is given, with or without `AS`. -/
def alias? : Parser (Option String) := do
  if ← eat fun t => t.isReserved "AS" then
    match ← peek with
    | some t =>
      if t.kind = .name ∨ t.kind = .string then
        advance
        return some t.value
      else
        fault (.missing "alias after AS")
    | none => fault (.missing "alias after AS")
  else
    match ← peek with
    | some t =>
      if isName t then
        advance
        return some t.value
      else
        return none
    | none => return none

def opensHint (t : Token) : Bool :=
  t.isReserved "USE" || t.isReserved "FORCE" || t.isReserved "IGNORE"

def namesIndex (t : Token) : Bool :=
  t.isReserved "INDEX" || t.isReserved "KEY"

def hintPurpose (t : Token) : Bool :=
  t.isReserved "JOIN" || t.isClause .orderBy || t.isClause .groupBy

/-- One index hint, which has no effect, and a comma before a further one. -/
def indexHint : Parser (Option Unit) := do
  if (← nextIs opensHint) && (← secondIs namesIndex) then
    advance
    advance
    if ← eat fun t => t.isReserved "FOR" then
      if !(← eat hintPurpose) then
        fault (.missing "JOIN, ORDER BY or GROUP BY after FOR")
    if !(← eat isOpen) then
      fault (.missing "index list")
    enclosed (return ())
    if (← nextIs isComma) && (← secondIs opensHint) then
      advance
    return some ()
  else
    return none

def indexHints : Parser Unit :=
  grow (fun _ => indexHint) ()

def orderKey (inner : Nested) : Parser OrderKey := do
  let e ← expression inner
  if ← eat fun t => t.isReserved "DESC" then
    return ⟨e, true⟩
  else
    let _ ← eat fun t => t.isReserved "ASC"
    return ⟨e, false⟩

def orderBy (inner : Nested) : Parser (List OrderKey) := do
  expectClause .orderBy
  entries (orderKey inner)

/-- A number of rows, of at most 64 bits. -/
def rowCount : Parser Nat := do
  match ← peek with
  | some t =>
    let n := Numeral.digitsValue t.value.toList
    if t.kind = .numeric && t.value.toList.all Char.isDigit && n < UInt64.size then
      advance
      return n
    else
      fault (.malformedLimit t.raw)
  | none => fault (.missing "a value after LIMIT")

def limit : Parser Limit := do
  expectClause .limit
  let first ← rowCount
  if ← eat isComma then
    return ⟨first, ← rowCount⟩
  else if ← eat fun t => t.isReserved "OFFSET" then
    return ⟨← rowCount, first⟩
  else
    return ⟨0, first⟩

def assignment (inner : Nested) : Parser Assignment := do
  let what := "column name in SET"
  let first ← expectName what
  let column : ColumnRef ←
    if ← eat isPoint then pure ⟨some first, ← expectName what⟩ else pure ⟨none, first⟩
  expect .operator "="
  return ⟨column, ← expression inner⟩

/-- The assignments of `SET` and of `ON DUPLICATE KEY UPDATE`. -/
def assignments (inner : Nested) : Parser (List Assignment) := do
  if ← eat fun t => t.isClause .assign || t.isClause .onDuplicateKey then
    entries (assignment inner)
  else
    unexpectedToken

/-- A table with its alias and index hints, or a SELECT with its alias. -/
def source (inner : Nested) : Parser Source := do
  if ← eat isOpen then
    let isSelect ← nextIs opensSelect
    let query ← enclosed <|
      if isSelect then inner.select else fault (.missing "SELECT in derived table")
    match ← alias? with
    | some aliasName => return ⟨.derived query, aliasName, .inner, .always⟩
    | none => fault .unnamedDerivedTable
  else
    let name ← tableName
    let aliasName ← alias?
    indexHints
    return ⟨.table name, aliasName.getD name, .inner, .always⟩

def opensJoin (t : Token) : Bool :=
  t.kind = .reserved && t.value ∈ ["JOIN", "INNER", "LEFT", "RIGHT", "CROSS"]

def joinKind : Parser JoinKind := do
  let outer : Parser Unit := do
    let _ ← eat fun t => t.isReserved "OUTER"
    expect .reserved "JOIN"
  match (← peek).map Token.value with
  | some "JOIN" => expect .reserved "JOIN"; return .inner
  | some "INNER" => advance; expect .reserved "JOIN"; return .inner
  | some "LEFT" => advance; outer; return .left
  | some "RIGHT" => advance; outer; return .right
  | some "CROSS" => advance; expect .reserved "JOIN"; return .cross
  | _ => unexpectedToken

/-- Names between parentheses. -/
def nameList (what : String) : Parser (List String) := do
  expect .paren "("
  let names ← entries (expectName what)
  expect .paren ")"
  return names

/-- A join with its condition. Only `CROSS JOIN` goes without one. -/
def join (inner : Nested) (left : String) : Parser Source := do
  let kind ← joinKind
  let right := { ← source inner with kind }
  if ← eat fun t => t.isReserved "ON" then
    return { right with condition := .predicate (← expression inner) }
  else if ← eat fun t => t.isReserved "USING" then
    return { right with condition := .shared (← nameList "column name in USING") left }
  else if kind = .cross then
    return right
  else
    fault (.missing s!"ON or USING after joining '{right.aliasName}'")

/-- A further source after `before`, the last of which is the left side of a join. -/
def nextSource (inner : Nested) (before : List Source) : Parser (Option (List Source)) := do
  if ← eat isComma then
    return some (before ++ [{ ← source inner with kind := .cross }])
  else if ← nextIs opensJoin then
    let left := match before.getLast? with
      | some s => s.aliasName
      | none => ""
    return some (before ++ [← join inner left])
  else
    return none

def sources (inner : Nested) : Parser (List Source) := do
  expectClause .source
  grow (nextSource inner) [← source inner]

end MiniSql.Grammar
