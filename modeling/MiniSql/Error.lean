namespace MiniSql

/-- Why a text is not a statement. -/
inductive SyntaxFault where
  | unterminatedString (offset : Nat)
  | unterminatedName (offset : Nat)
  | unexpectedCharacter (c : Char) (offset : Nat)
  | wrongToken (expected found : String)
  | missingToken (expected : String)
  | missing (what : String)
  | unbalancedParentheses
  | emptyList
  | endOfExpression
  | notAnOperand (token : String)
  | tooFewArguments (function : String) (least : Nat)
  | malformedNumber (text : String)
  | malformedLimit (token : String)
  | unnamedDerivedTable
  | severalDeleteTables
  | columnListWithSet
  | other (message : String)
deriving DecidableEq

/-- How many arguments a function takes. -/
inductive Arity where
  | exactly (n : Nat)
  | between (least most : Nat)
  | atLeast (n : Nat)
deriving DecidableEq

/-- Why a well-formed statement cannot be carried out. -/
inductive RuntimeFault where
  | misplacedStar
  | ambiguousColumn (name : String)
  | unknownColumn (name : String)
  | unknownColumnIn (name place : String)
  | unknownTableColumn (name table : String)
  | unknownSource (name : String)
  | dependentColumn (name : String)
  | severalColumns
  | severalRows
  | outOfRange (operation : String)
  | longPattern (bytes most : Nat)
  | unknownFunction (name : String)
  | wrongArity (function : String) (arity : Arity)
  | existsArgument
  | valuesArgument
  | nullSeparator
  | misplacedAggregate
  | starArgument (function : String)
  | clockOffset (seconds : Int64)
  | longScan (table : String) (rows most : Nat)
  | groupByStar
  | noDefault (column : String)
  | nullColumn (column : String)
  | duplicateEntry (entry key : String)
  | repeatedColumn (column : String)
  | valueCount (row : Nat)
  | deleteWithoutTable
  | deleteFromQuery
  | noRows (sql : String)
  | nestedTooDeep
  | other (message : String)
deriving DecidableEq

/-- Why the store refuses a row or a change. -/
inductive StorageFault where
  | missingRow (id : Nat) (table : String)
  | notAnObject (document : String)
  | other (message : String)
deriving DecidableEq

inductive Error where
  | malformed (fault : SyntaxFault)
  | unexpectedClause (clause sql : String)
  | unexpectedToken (token sql : String)
  | failed (fault : RuntimeFault)
  | unknownTable (name : String)
  | storage (fault : StorageFault)
deriving DecidableEq

def SyntaxFault.message : SyntaxFault → String
  | unterminatedString offset => s!"Unterminated string starting at offset {offset}"
  | unterminatedName offset => s!"Unterminated quoted identifier starting at offset {offset}"
  | unexpectedCharacter c offset => s!"Unexpected character '{c}' at offset {offset}"
  | wrongToken expected found => s!"Expected '{expected}', found '{found}'"
  | missingToken expected => s!"Expected '{expected}', found end of statement"
  | missing what => s!"expected {what}"
  | unbalancedParentheses => "Unbalanced parentheses"
  | emptyList => "IN list cannot be empty"
  | endOfExpression => "Unexpected end of expression"
  | notAnOperand token => s!"Unexpected token '{token}' in expression"
  | tooFewArguments function least => s!"{function}() requires at least {least} argument(s)"
  | malformedNumber text => s!"Invalid number '{text}'"
  | malformedLimit token => s!"LIMIT values must be non-negative integers, found '{token}'"
  | unnamedDerivedTable => "Every derived table must have its own alias"
  | severalDeleteTables => "DELETE supports a single table in FROM"
  | columnListWithSet => "INSERT ... SET does not take a column list"
  | other message => message

def Arity.arguments (n : Nat) : String :=
  if n = 1 then s!"{n} argument" else s!"{n} arguments"

def Arity.message : Arity → String
  | exactly n => arguments n
  | between least most => s!"{least} to {most} arguments"
  | atLeast n => s!"at least {arguments n}"

def Arity.admits (count : Nat) : Arity → Bool
  | exactly n => count = n
  | between least most => least ≤ count && count ≤ most
  | atLeast n => n ≤ count

def RuntimeFault.message : RuntimeFault → String
  | misplacedStar => "'*' is not valid in this context"
  | ambiguousColumn name => s!"Column '{name}' in field list is ambiguous"
  | unknownColumn name => s!"Unknown column '{name}'"
  | unknownColumnIn name place => s!"Unknown column '{name}' in '{place}'"
  | unknownTableColumn name table => s!"Unknown column '{name}' in table '{table}'"
  | unknownSource name => s!"Unknown table '{name}'"
  | dependentColumn name =>
    s!"Column '{name}' is not functionally dependent on the GROUP BY columns"
  | severalColumns => "Operand should contain 1 column(s)"
  | severalRows => "Subquery returns more than 1 row"
  | outOfRange operation => s!"BIGINT value is out of range in '{operation}'"
  | longPattern bytes most => s!"LIKE pattern too long: {bytes} bytes (max {most})"
  | unknownFunction name => s!"Function {name} not implemented"
  | wrongArity function arity => s!"{function} must be called with {arity.message}"
  | existsArgument => "EXISTS requires a subquery"
  | valuesArgument => "VALUES() argument must be a column name"
  | nullSeparator => "CONCAT_WS must be called with a non-NULL separator"
  | misplacedAggregate => "Invalid use of group function"
  | starArgument function => s!"{function}(*) is not supported"
  | clockOffset seconds => s!"Clock offset {seconds.toInt} is out of range"
  | longScan table rows most =>
    s!"Scan of '{table}' reads {rows} rows, more than max_scan_rows ({most})"
  | groupByStar => "Cannot group by a '*' column"
  | noDefault column => s!"Field '{column}' doesn't have a default value"
  | nullColumn column => s!"Column '{column}' cannot be null"
  | duplicateEntry entry key => s!"Duplicate entry '{entry}' for key '{key}'"
  | repeatedColumn column => s!"Column '{column}' specified twice"
  | valueCount row => s!"Column count doesn't match value count at row {row}"
  | deleteWithoutTable => "DELETE requires a FROM clause"
  | deleteFromQuery => "The target table of the DELETE is not updatable"
  | noRows sql => s!"Statement does not return rows: {sql}"
  | nestedTooDeep => "Subqueries are nested too deeply"
  | other message => message

def StorageFault.message : StorageFault → String
  | missingRow id table => s!"row {id} does not exist in '{table}'"
  | notAnObject document => s!"expected a JSON object, got {document}"
  | other message => message

namespace Error

def message : Error → String
  | malformed fault => s!"Parse error: {fault.message}"
  | unexpectedClause clause sql => s!"Unexpected clause {clause} in: {sql}"
  | unexpectedToken token sql => s!"Unexpected token {token} in: {sql}"
  | failed fault => s!"Runtime error: {fault.message}"
  | unknownTable name => s!"Table '{name}' doesn't exist"
  | storage fault => s!"Storage error: {fault.message}"

/-- Whether the text was refused before anything was carried out. -/
def isSyntax : Error → Bool
  | malformed _ | unexpectedClause .. | unexpectedToken .. => true
  | failed _ | unknownTable _ | storage _ => false

/-- Whether a statement was refused while it was carried out. -/
def isRuntime : Error → Bool
  | failed _ | unknownTable _ | storage _ => true
  | malformed _ | unexpectedClause .. | unexpectedToken .. => false

end Error

/-- An error and the statement it arose in. -/
structure Failure where
  cause : Error
  statement : Option String := none
deriving DecidableEq

namespace Failure

/-- Names the statement, unless one is named already. -/
def inStatement (f : Failure) (sql : String) : Failure :=
  { f with statement := some (f.statement.getD sql) }

def message (f : Failure) : String :=
  match f.statement with
  | some sql => s!"{f.cause.message} (while executing: {sql})"
  | none => f.cause.message

end Failure

/-- The result of a step that can fail. -/
abbrev Outcome := Except Error

/-- A step refused at run time. -/
def refuse (fault : RuntimeFault) : Outcome α :=
  .error (.failed fault)

end MiniSql
