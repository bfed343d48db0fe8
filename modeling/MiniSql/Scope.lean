import MiniSql.Row

namespace MiniSql

/-- The rows of the source that an expression is read against. -/
inductive RowSet where
  | single (row : Row)
  | group (rows : List Row)
  /-- A group seen through one row; aggregates still see all of it. -/
  | representative (row : Row) (group : List Row)

/-- Where an expression finds the values of its names. -/
structure Scope where
  rows : RowSet
  /-- The values of the select list, for HAVING and ORDER BY. -/
  aliases : Option Row := none
  /-- The current row of the enclosing query. -/
  outer : Option Row := none
  /-- The row that an INSERT proposes. -/
  proposed : Option Row := none

namespace Scope

def single (row : Row) : Scope :=
  { rows := .single row }

def group (rows : List Row) : Scope :=
  { rows := .group rows }

/-- A group without rows; its columns are those of `padding`. -/
def emptyGroup (padding : Row) : Scope :=
  { rows := .representative padding [] }

/-- The scope of one row of the group, where the select list is not visible. -/
def member (s : Scope) (row : Row) : Scope :=
  { rows := .single row, outer := s.outer, proposed := s.proposed }

/-- The row whose columns can be read. -/
def row? (s : Scope) : Option Row :=
  match s.rows with
  | .single row | .representative row _ => some row
  | .group rows => rows.head?

/-- The rows that aggregates range over. -/
def group? (s : Scope) : Option (List Row) :=
  match s.rows with
  | .single _ => none
  | .group rows | .representative _ rows => some rows

/-- A group seen through its first row, if it has one. -/
def throughFirst (s : Scope) : Scope :=
  match s.rows with
  | .group (row :: more) => { s with rows := .representative row (row :: more) }
  | _ => s

end Scope

end MiniSql
