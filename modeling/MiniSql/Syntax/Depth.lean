import MiniSql.Syntax

namespace MiniSql

mutual

/-- How deep subqueries are nested in an expression. -/
def Expr.depth : Expr → Nat
  | .column _ | .literal _ | .star _ => 0
  | .call _ args _ => Expr.depthAll args
  | .binary _ l r => max l.depth r.depth
  | .unary _ e => e.depth
  | .isNull e _ => e.depth
  | .inList e items _ => max e.depth (Expr.depthAll items)
  | .inQuery e q _ => max e.depth q.depth
  | .between e low high _ => max e.depth (max low.depth high.depth)
  | .subquery q => q.depth

def Expr.depthAll : List Expr → Nat
  | [] => 0
  | e :: es => max e.depth (Expr.depthAll es)

def Expr.depthOption : Option Expr → Nat
  | none => 0
  | some e => e.depth

def Item.depth : Item → Nat
  | ⟨e, _, _⟩ => e.depth

def Item.depthAll : List Item → Nat
  | [] => 0
  | i :: is => max i.depth (Item.depthAll is)

def OrderKey.depth : OrderKey → Nat
  | ⟨e, _⟩ => e.depth

def OrderKey.depthAll : List OrderKey → Nat
  | [] => 0
  | k :: ks => max k.depth (OrderKey.depthAll ks)

def Origin.depth : Origin → Nat
  | .table _ => 0
  | .derived q => q.depth

def JoinCondition.depth : JoinCondition → Nat
  | .always | .shared _ _ => 0
  | .predicate e => e.depth

def Source.depth : Source → Nat
  | ⟨origin, _, _, condition⟩ => max origin.depth condition.depth

def Source.depthAll : List Source → Nat
  | [] => 0
  | s :: ss => max s.depth (Source.depthAll ss)

/-- One more than the SELECTs inside are nested. -/
def Select.depth : Select → Nat
  | ⟨_, items, sources, filter, groupBy, having, orderBy, _, _⟩ =>
    1 + max (Item.depthAll items) (max (Source.depthAll sources) (max (Expr.depthOption filter)
      (max (Expr.depthAll groupBy) (max (Expr.depthOption having) (OrderKey.depthAll orderBy)))))

end

end MiniSql
