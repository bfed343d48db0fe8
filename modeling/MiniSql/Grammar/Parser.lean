import MiniSql.Error
import MiniSql.Text.Bytes
import MiniSql.Token

namespace MiniSql

/-- Reads the front of a list of tokens. The text is that of the whole statement. -/
abbrev Parser (α : Type) := ReaderT String (StateT (List Token) (Except Error)) α

namespace Parser

def fault (f : SyntaxFault) : Parser α :=
  throw (.malformed f)

/-- The next token is not expected at all. -/
def unexpectedToken : Parser α := do
  let raw := match (← get).head? with
    | some t => t.raw
    | none => ""
  throw (.unexpectedToken raw (← read))

def unexpectedClause (c : Clause) : Parser α := do
  throw (.unexpectedClause c.keyword (← read))

def peek : Parser (Option Token) :=
  return (← get).head?

/-- Whether the next token satisfies `p`. -/
def nextIs (p : Token → Bool) : Parser Bool :=
  return (← get).head?.any p

/-- Whether the token after the next one satisfies `p`. -/
def secondIs (p : Token → Bool) : Parser Bool :=
  return (← get).tail.head?.any p

def advance : Parser Unit :=
  modify List.tail

/-- Reads the next token if it satisfies `p`. -/
def eat (p : Token → Bool) : Parser Bool := do
  if ← nextIs p then
    advance
    return true
  else
    return false

def isComma (t : Token) : Bool := t.isKind .separator ","

def isPoint (t : Token) : Bool := t.isKind .separator "."

def isOpen (t : Token) : Bool := t.isKind .paren "("

def isClose (t : Token) : Bool := t.isKind .paren ")"

def isName (t : Token) : Bool := t.kind = .name

/-- Reads a token that has to come next. -/
def expect (kind : TokenKind) (value : String) : Parser Unit := do
  match ← peek with
  | some t =>
    if t.isKind kind value then advance else fault (.wrongToken value t.raw)
  | none => fault (.missingToken value)

def expectName (what : String) : Parser String := do
  match ← peek with
  | some t =>
    if isName t then
      advance
      return t.value
    else
      fault (.missing what)
  | none => fault (.missing what)

/-- Opens a clause. -/
def expectClause (c : Clause) : Parser Unit := do
  if ← nextIs fun t => t.isClause c then advance else unexpectedToken

/-- Further entries of a list, each after a comma, at most `most` of them. -/
def moreEntries (entry : Parser α) : Nat → Parser (List α)
  | 0 => return []
  | most + 1 => do
    if ← eat isComma then
      let first ← entry
      return first :: (← moreEntries entry most)
    else
      return []

/-- A list of one entry or more between commas. -/
def entries (entry : Parser α) : Parser (List α) := do
  let first ← entry
  return first :: (← moreEntries entry (← get).length)

/-- `step` repeated from `a` until it declines, at most `most` times. -/
def growWithin (step : α → Parser (Option α)) : Nat → α → Parser α
  | 0, a => return a
  | most + 1, a => do
    match ← step a with
    | some b => growWithin step most b
    | none => return a

/-- `step` repeated from `a` until it declines. A step that does not decline reads a token. -/
def grow (step : α → Parser (Option α)) (a : α) : Parser α := do
  growWithin step (← get).length a

/-- The tokens up to the parenthesis that closes the outermost of `depth + 1` open ones, and the
tokens after it. -/
def closing? : Nat → List Token → Option (List Token × List Token)
  | _, [] => none
  | depth, t :: ts =>
    if isOpen t then (closing? (depth + 1) ts).map fun (inside, rest) => (t :: inside, rest)
    else if isClose t then
      match depth with
      | 0 => some ([], ts)
      | depth + 1 => (closing? depth ts).map fun (inside, rest) => (t :: inside, rest)
    else (closing? depth ts).map fun (inside, rest) => (t :: inside, rest)

/-- Reads the inside of a parenthesis that is open, and the closing one. -/
def enclosed (inside : Parser α) : Parser α := fun sql tokens =>
  match closing? 0 tokens with
  | none => .error (.malformed .unbalancedParentheses)
  | some (body, rest) => do
    let (a, _) ← inside sql body
    return (a, rest)

/-- The text from the first of the tokens to the last. -/
def spanText (sql : String) (tokens : List Token) : String :=
  match tokens.head?, tokens.getLast? with
  | some first, some last => Text.slice sql first.offset last.finish
  | _, _ => ""

/-- What `p` reads, and the text of it. -/
def withText (p : Parser α) : Parser (α × String) := do
  let before ← get
  let a ← p
  let after ← get
  return (a, spanText (← read) (Text.upTo after before))

end Parser

end MiniSql
