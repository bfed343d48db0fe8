import MiniSql.Value

namespace MiniSql

/-- A column, by its name and possibly the alias of its table. -/
structure ColumnRef where
  table : Option String := none
  name : String

inductive BinaryOp where
  | or
  | xor
  | and
  | equal
  | nullSafeEqual
  | notEqual
  | less
  | lessEqual
  | greater
  | greaterEqual
  | like
  | notLike
  | add
  | subtract
  | multiply
  | divide
  | intDivide
  | modulo
deriving DecidableEq

namespace BinaryOp

def symbol : BinaryOp → String
  | or => "OR"
  | xor => "XOR"
  | and => "AND"
  | equal => "="
  | nullSafeEqual => "<=>"
  | notEqual => "<>"
  | less => "<"
  | lessEqual => "<="
  | greater => ">"
  | greaterEqual => ">="
  | like => "LIKE"
  | notLike => "NOT LIKE"
  | add => "+"
  | subtract => "-"
  | multiply => "*"
  | divide => "/"
  | intDivide => "DIV"
  | modulo => "%"

/-- The operator that a single token stands for. -/
def ofSymbol? : String → Option BinaryOp
  | "OR" | "||" => some or
  | "XOR" => some xor
  | "AND" | "&&" => some and
  | "=" => some equal
  | "<=>" => some nullSafeEqual
  | "!=" | "<>" => some notEqual
  | "<" => some less
  | "<=" => some lessEqual
  | ">" => some greater
  | ">=" => some greaterEqual
  | "LIKE" => some like
  | "+" => some add
  | "-" => some subtract
  | "*" => some multiply
  | "/" => some divide
  | "DIV" => some intDivide
  | "%" | "MOD" => some modulo
  | _ => none

def isComparison : BinaryOp → Bool
  | equal | nullSafeEqual | notEqual | less | lessEqual | greater | greaterEqual | like
  | notLike => true
  | _ => false

end BinaryOp

inductive UnaryOp where
  | not
  | negate
deriving DecidableEq

inductive JoinKind where
  | inner
  | left
  | right
  | cross
deriving DecidableEq

/-- How many rows are skipped and how many of the rest are taken. -/
structure Limit where
  offset : Nat
  count : Nat
deriving DecidableEq

mutual

inductive Expr where
  | column (ref : ColumnRef)
  | literal (v : Value)
  | call (function : String) (args : List Expr) (distinct : Bool)
  | binary (op : BinaryOp) (left right : Expr)
  | unary (op : UnaryOp) (operand : Expr)
  | isNull (operand : Expr) (negated : Bool)
  | inList (operand : Expr) (items : List Expr) (negated : Bool)
  | inQuery (operand : Expr) (query : Select) (negated : Bool)
  | between (operand low high : Expr) (negated : Bool)
  | subquery (query : Select)
  /-- Every column, of one table or of all. -/
  | star (table : Option String)

/-- An entry of a select list. -/
structure Item where
  expr : Expr
  aliasName : Option String
  /-- The text that the expression was read from. -/
  text : String

structure OrderKey where
  expr : Expr
  descending : Bool

/-- Where the rows of a source come from. -/
inductive Origin where
  | table (name : String)
  | derived (query : Select)

/-- Which pairs of rows are joined. -/
inductive JoinCondition where
  | always
  | predicate (e : Expr)
  /-- The columns are equal on the right side and in the table with alias `left`. -/
  | shared (columns : List String) (left : String)

/-- An entry of FROM. The join fields of the first one are not used. -/
structure Source where
  origin : Origin
  aliasName : String
  kind : JoinKind
  condition : JoinCondition

structure Select where
  distinct : Bool
  items : List Item
  sources : List Source
  filter : Option Expr
  groupBy : List Expr
  having : Option Expr
  orderBy : List OrderKey
  limit : Option Limit
  sql : String

end

structure Assignment where
  column : ColumnRef
  value : Expr

structure Update where
  table : String
  assignments : List Assignment
  filter : Option Expr
  orderBy : List OrderKey
  limit : Option Limit
  sql : String

structure Delete where
  source : Option Source
  filter : Option Expr
  orderBy : List OrderKey
  limit : Option Limit
  sql : String

/-- Where the rows of an INSERT come from. -/
inductive InsertRows where
  | values (rows : List (List Expr))
  | query (q : Select)
  | assignments (columns : List Assignment)

structure Insert where
  table : String
  ignore : Bool
  columns : List String
  rows : InsertRows
  /-- What becomes of the row that a proposed row shares a key with. -/
  onDuplicate : List Assignment
  sql : String

inductive Statement where
  | select (q : Select)
  | update (u : Update)
  | delete (d : Delete)
  | insert (i : Insert)

namespace Statement

def kind : Statement → String
  | select _ => "SELECT"
  | update _ => "UPDATE"
  | delete _ => "DELETE"
  | insert _ => "INSERT"

/-- The text of the statement. -/
def sql : Statement → String
  | select q => q.sql
  | update u => u.sql
  | delete d => d.sql
  | insert i => i.sql

end Statement

namespace Source

/-- The name of a table; a derived table goes by its alias. -/
def name (s : Source) : String :=
  match s.origin with
  | .table name => name
  | .derived _ => s.aliasName

/-- The condition of a join as one expression. -/
def predicate? (s : Source) : Option Expr :=
  match s.condition with
  | .always => none
  | .predicate e => some e
  | .shared columns left =>
    let equality (name : String) : Expr :=
      .binary .equal (.column ⟨some left, name⟩) (.column ⟨some s.aliasName, name⟩)
    match columns.map equality with
    | [] => none
    | first :: more => some (more.foldl (.binary .and) first)

/-- The columns that a join has in common, by name. -/
def sharedColumns (s : Source) : List String :=
  match s.condition with
  | .shared columns _ => columns
  | _ => []

end Source

end MiniSql
