import MiniSql.Syntax

namespace MiniSql

open Text (quoteName)

def ColumnRef.render (c : ColumnRef) : String :=
  match c.table with
  | some table => quoteName table ++ "." ++ quoteName c.name
  | none => quoteName c.name

def Limit.render (l : Limit) : String :=
  if 0 < l.offset then s!"LIMIT {l.offset}, {l.count}" else s!"LIMIT {l.count}"

def JoinKind.keyword : JoinKind → String
  | .inner => "INNER JOIN"
  | .left => "LEFT JOIN"
  | .right => "RIGHT JOIN"
  | .cross => "CROSS JOIN"

/-- Whether an expression stands in parentheses when it is an operand. -/
def Expr.isCompound : Expr → Bool
  | .binary .. | .unary .not _ | .isNull .. | .inList .. | .inQuery .. | .between .. => true
  | _ => false

/-- Whether an expression can follow a minus sign as it is. -/
def Expr.isName : Expr → Bool
  | .column _ | .call .. => true
  | _ => false

/-- The text of an expression as an operand. -/
def asOperand (e : Expr) (text : String) : String :=
  if e.isCompound then "(" ++ text ++ ")" else text

def notIf (negated : Bool) : String :=
  if negated then "NOT " else ""

def commaSeparated (texts : List String) : String :=
  ", ".intercalate texts

/-- A clause that is left out when it has no entries. -/
def clauseOf (keyword : String) (texts : List String) : String :=
  if texts.isEmpty then "" else " " ++ keyword ++ " " ++ commaSeparated texts

def renderLimit (limit : Option Limit) : String :=
  match limit with
  | some l => " " ++ l.render
  | none => ""

mutual

def Expr.render : Expr → String
  | .column c => c.render
  | .literal v => v.toLiteral
  | .call function args distinct =>
    function ++ "(" ++ (if distinct then "DISTINCT " else "")
      ++ commaSeparated (Expr.renderAll args) ++ ")"
  | .binary op l r => asOperand l l.render ++ " " ++ op.symbol ++ " " ++ asOperand r r.render
  | .unary .not e => "NOT " ++ asOperand e e.render
  | .unary .negate e => if e.isName then "-" ++ e.render else "-(" ++ e.render ++ ")"
  | .isNull e negated => asOperand e e.render ++ " IS " ++ notIf negated ++ "NULL"
  | .inList e items negated =>
    asOperand e e.render ++ " " ++ notIf negated ++ "IN ("
      ++ commaSeparated (Expr.renderAll items) ++ ")"
  | .inQuery e q negated =>
    asOperand e e.render ++ " " ++ notIf negated ++ "IN (" ++ q.render ++ ")"
  | .between e low high negated =>
    asOperand e e.render ++ " " ++ notIf negated ++ "BETWEEN " ++ asOperand low low.render
      ++ " AND " ++ asOperand high high.render
  | .subquery q => "(" ++ q.render ++ ")"
  | .star (some table) => quoteName table ++ ".*"
  | .star none => "*"

def Expr.renderAll : List Expr → List String
  | [] => []
  | e :: es => e.render :: Expr.renderAll es

/-- A clause with one expression, which may be left out. -/
def Expr.renderClause (keyword : String) : Option Expr → String
  | none => ""
  | some e => " " ++ keyword ++ " " ++ e.render

def Item.render : Item → String
  | ⟨e, some aliasName, _⟩ => e.render ++ " AS " ++ quoteName aliasName
  | ⟨e, none, _⟩ => e.render

def Item.renderAll : List Item → List String
  | [] => []
  | i :: is => i.render :: Item.renderAll is

def OrderKey.render : OrderKey → String
  | ⟨e, descending⟩ => e.render ++ (if descending then " DESC" else " ASC")

def OrderKey.renderAll : List OrderKey → List String
  | [] => []
  | k :: ks => k.render :: OrderKey.renderAll ks

/-- The text of what an alias is given to; a table whose alias is its name has none. -/
def Origin.render (aliasName : String) : Origin → String
  | .table name =>
    quoteName name ++ (if aliasName = name then "" else " AS " ++ quoteName aliasName)
  | .derived q => "(" ++ q.render ++ ") AS " ++ quoteName aliasName

def JoinCondition.render : JoinCondition → String
  | .always => ""
  | .predicate e => " ON " ++ e.render
  | .shared columns _ => " USING (" ++ commaSeparated (columns.map quoteName) ++ ")"

def Source.render : Source → String
  | ⟨origin, aliasName, _, condition⟩ => origin.render aliasName ++ condition.render

/-- The joins that follow the first source. -/
def Source.renderJoins : List Source → String
  | [] => ""
  | s :: ss => " " ++ s.kind.keyword ++ " " ++ s.render ++ Source.renderJoins ss

def Source.renderAll : List Source → String
  | [] => ""
  | s :: ss => " FROM " ++ s.render ++ Source.renderJoins ss

def Select.render : Select → String
  | ⟨distinct, items, sources, filter, groupBy, having, orderBy, limit, _⟩ =>
    "SELECT " ++ (if distinct then "DISTINCT " else "") ++ commaSeparated (Item.renderAll items)
      ++ Source.renderAll sources ++ Expr.renderClause "WHERE" filter
      ++ clauseOf "GROUP BY" (Expr.renderAll groupBy) ++ Expr.renderClause "HAVING" having
      ++ clauseOf "ORDER BY" (OrderKey.renderAll orderBy) ++ renderLimit limit

end

def Assignment.render (a : Assignment) : String :=
  a.column.render ++ " = " ++ a.value.render

def Update.render (u : Update) : String :=
  "UPDATE " ++ quoteName u.table ++ " SET " ++ commaSeparated (u.assignments.map Assignment.render)
    ++ Expr.renderClause "WHERE" u.filter
    ++ clauseOf "ORDER BY" (OrderKey.renderAll u.orderBy) ++ renderLimit u.limit

end MiniSql
