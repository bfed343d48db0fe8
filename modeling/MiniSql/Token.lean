namespace MiniSql

/-- The keywords that open the parts of a statement. -/
inductive Clause where
  | select
  | source
  | filter
  | groupBy
  | having
  | orderBy
  | limit
  | update
  | assign
  | delete
  | insert
  | values
  | onDuplicateKey
deriving DecidableEq

namespace Clause

def keyword : Clause → String
  | select => "SELECT"
  | source => "FROM"
  | filter => "WHERE"
  | groupBy => "GROUP BY"
  | having => "HAVING"
  | orderBy => "ORDER BY"
  | limit => "LIMIT"
  | update => "UPDATE"
  | assign => "SET"
  | delete => "DELETE"
  | insert => "INSERT"
  | values => "VALUES"
  | onDuplicateKey => "ON DUPLICATE KEY UPDATE"

def all : List Clause :=
  [select, source, filter, groupBy, having, orderBy, limit, update, assign, delete, insert, values,
    onDuplicateKey]

def ofKeyword? (word : String) : Option Clause :=
  all.find? fun c => c.keyword = word

end Clause

inductive TokenKind where
  | numeric
  | string
  | null
  | boolean
  | name
  | clause (c : Clause)
  | operator
  | reserved
  | paren
  | separator
deriving DecidableEq

structure Token where
  kind : TokenKind
  /-- The keyword in upper case, or the name or string without its quotes. -/
  value : String
  /-- The text the token was read from. -/
  raw : String
  /-- The byte of the statement at which `raw` starts. -/
  offset : Nat
deriving DecidableEq

namespace Token

def clause? (t : Token) : Option Clause :=
  match t.kind with
  | .clause c => some c
  | _ => none

def isClause (t : Token) (c : Clause) : Bool :=
  t.kind = .clause c

def isKind (t : Token) (kind : TokenKind) (value : String) : Bool :=
  t.kind = kind && t.value = value

def isOperator (t : Token) (value : String) : Bool :=
  t.isKind .operator value

def isReserved (t : Token) (value : String) : Bool :=
  t.isKind .reserved value

/-- The byte after the last one of `raw`. -/
def finish (t : Token) : Nat :=
  t.offset + t.raw.utf8ByteSize

end Token

end MiniSql
