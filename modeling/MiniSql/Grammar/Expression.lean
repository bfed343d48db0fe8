import MiniSql.Grammar.Parser
import MiniSql.Syntax.Function
import MiniSql.Text.LetterCase
import MiniSql.Value.Coercion

namespace MiniSql

/-- What is read inside parentheses. -/
structure Nested where
  expr : Parser Expr
  /-- A SELECT that takes all tokens there are. -/
  select : Parser Select

namespace Grammar

open MiniSql.Parser

/-- The value of a number as a statement writes it. -/
def numberValue (text : String) : Outcome Value :=
  match Numeral.scan? text.toList with
  | some (n, []) => .ok (Numeric.ofNumeral n).toValue
  | _ => .error (.malformed (.malformedNumber text))

def number (text : String) : Parser Expr := do
  return .literal (← liftExcept (numberValue text))
where
  liftExcept (v : Outcome Value) : Parser Value :=
    match v with
    | .ok v => return v
    | .error e => throw e

def opensSelect (t : Token) : Bool := t.isClause .select

/-- Expressions between commas up to a closing parenthesis, perhaps none. -/
def arguments (inner : Nested) : Parser (List Expr) := do
  if ← eat isClose then
    return []
  else
    let args ← entries inner.expr
    expect .paren ")"
    return args

/-- The arguments of a function. A SELECT as the only argument needs no parentheses of its own. -/
def functionCall (inner : Nested) (name : String) : Parser Expr := do
  let function := Text.toUpper name
  expect .paren "("
  if ← nextIs opensSelect then
    return .call function [.subquery (← enclosed inner.select)] false
  else
    let distinct ← eat fun t => t.isReserved "DISTINCT"
    let args ← arguments inner
    match args, leastArguments? function with
    | [], some least => fault (.tooFewArguments function least)
    | _, _ => return .call function args distinct

/-- A column, a star or a function call that starts with a name. -/
def named (inner : Nested) (name : String) : Parser Expr := do
  if ← nextIs isOpen then
    functionCall inner name
  else if ← eat isPoint then
    match ← peek with
    | none => fault (.missing "column name after '.'")
    | some t =>
      if isName t then
        advance
        return .column ⟨some name, t.value⟩
      else if t.isOperator "*" then
        advance
        return .star (some name)
      else
        fault (.missing s!"column name after '{name}.'")
  else
    return .column ⟨none, name⟩

def primary (inner : Nested) : Parser Expr := do
  match ← peek with
  | none => fault .endOfExpression
  | some t =>
    let isFunction ← secondIs isOpen
    if t.kind = .numeric then
      advance
      number t.value
    else if t.kind = .string then
      advance
      return .literal (.str t.value)
    else if t.kind = .null then
      advance
      return .literal .null
    else if t.kind = .boolean then
      advance
      return .literal (.bool (t.value = "TRUE"))
    else if isOpen t then
      advance
      if ← nextIs opensSelect then
        return .subquery (← enclosed inner.select)
      else
        let e ← inner.expr
        expect .paren ")"
        return e
    else if t.isOperator "*" then
      advance
      return .star none
    else if (t.isOperator "MOD" || t.isClause .values) && isFunction then
      advance
      functionCall inner t.value
    else if isName t then
      advance
      named inner t.value
    else
      fault (.notAnOperand t.raw)

/-- Whether a token can be the operand of a `BINARY` without parentheses. -/
def followsBinary (t : Token) : Bool :=
  t.kind = .name || t.kind = .string || t.kind = .numeric

/-- Signs, `!` and `BINARY` before an operand. A minus directly before a number belongs to it. -/
def unaryFrom (inner : Nested) (sql : String) : List Token → Outcome (Expr × List Token)
  | [] => (primary inner).run sql |>.run []
  | t :: ts =>
    let wrap (f : Expr → Expr) (r : Outcome (Expr × List Token)) : Outcome (Expr × List Token) :=
      r.map fun (e, rest) => (f e, rest)
    if t.isOperator "-" then
      match ts with
      | n :: rest =>
        if n.kind = .numeric then (number ("-" ++ n.value)).run sql |>.run rest
        else wrap (.unary .negate) (unaryFrom inner sql (n :: rest))
      | [] => wrap (.unary .negate) (unaryFrom inner sql [])
    else if t.isOperator "+" then unaryFrom inner sql ts
    else if t.isOperator "!" then wrap (.unary .not) (unaryFrom inner sql ts)
    else if t.kind = .name && Text.sameName t.value "BINARY" && ts.head?.any followsBinary then
      wrap (fun e => .call "BINARY" [e] false) (unaryFrom inner sql ts)
    else (primary inner).run sql |>.run (t :: ts)

def unary (inner : Nested) : Parser Expr :=
  unaryFrom inner

/-- Operands of `next` between the given operators, grouped from the left. -/
def leftAssociative (symbols : List String) (next : Parser Expr) : Parser Expr := do
  grow step (← next)
where
  step (left : Expr) : Parser (Option Expr) := do
    match ← peek with
    | some t =>
      match BinaryOp.ofSymbol? t.value with
      | some op =>
        if t.kind = .operator ∧ t.value ∈ symbols then
          advance
          return some (.binary op left (← next))
        else
          return none
      | none => return none
    | none => return none

def multiplicative (inner : Nested) : Parser Expr :=
  leftAssociative ["*", "/", "DIV", "%", "MOD"] (unary inner)

def additive (inner : Nested) : Parser Expr :=
  leftAssociative ["+", "-"] (multiplicative inner)

/-- The list or the SELECT after `IN`. -/
def membership (inner : Nested) (operand : Expr) (negated : Bool) : Parser Expr := do
  if ← eat isOpen then
    if ← nextIs opensSelect then
      return .inQuery operand (← enclosed inner.select) negated
    else
      match ← arguments inner with
      | [] => fault .emptyList
      | items => return .inList operand items negated
  else
    fault (.missing "'(' after IN")

def comparisonSymbols : List String := ["=", "<=>", "<>", "!=", "<", "<=", ">", ">="]

/-- `LIKE`, `IN` and `BETWEEN` with their right sides; declines if none of them comes next. -/
def condition (inner : Nested) (left : Expr) (negated : Bool) : Parser (Option Expr) := do
  if ← eat fun t => t.isOperator "LIKE" then
    let right ← additive inner
    return some (.binary (if negated then .notLike else .like) left right)
  else if ← eat fun t => t.isOperator "IN" then
    return some (← membership inner left negated)
  else if ← eat fun t => t.isOperator "BETWEEN" then
    let low ← additive inner
    expect .operator "AND"
    let high ← additive inner
    return some (.between left low high negated)
  else
    return none

def continuesNot (t : Token) : Bool :=
  t.isOperator "LIKE" || t.isOperator "IN" || t.isOperator "BETWEEN"

/-- One comparison of `left` with what follows, if one follows. -/
def comparisonStep (inner : Nested) (left : Expr) : Parser (Option Expr) := do
  match ← leftAssociative.step comparisonSymbols (additive inner) left with
  | some e => return some e
  | none =>
    if ← eat fun t => t.isOperator "IS" then
      let negated ← eat fun t => t.isOperator "NOT"
      if ← eat fun t => t.isKind .null "NULL" then
        return some (.isNull left negated)
      else
        fault (.missing "NULL after IS")
    else if (← nextIs fun t => t.isOperator "NOT") && (← secondIs continuesNot) then
      advance
      condition inner left true
    else
      condition inner left false

def comparison (inner : Nested) : Parser Expr := do
  grow (comparisonStep inner) (← additive inner)

/-- Any number of `NOT` before a comparison. -/
def negationFrom (inner : Nested) (sql : String) : List Token → Outcome (Expr × List Token)
  | [] => (comparison inner).run sql |>.run []
  | t :: ts =>
    if t.isOperator "NOT" then
      (negationFrom inner sql ts).map fun (e, rest) => (.unary .not e, rest)
    else (comparison inner).run sql |>.run (t :: ts)

def negation (inner : Nested) : Parser Expr :=
  negationFrom inner

/-- An expression. The levels bind, from loosest to tightest: `OR`, `XOR`, `AND`, `NOT`, the
comparisons, sums, products, signs. -/
def expression (inner : Nested) : Parser Expr :=
  leftAssociative ["OR", "||"]
    (leftAssociative ["XOR"] (leftAssociative ["AND", "&&"] (negation inner)))

end Grammar

end MiniSql
