import MiniSql.Number.Double
import MiniSql.Syntax
import MiniSql.Token.Lexer

namespace MiniSql

/-- An expression or a SELECT inside a statement. -/
inductive Node where
  | expr (e : Expr)
  | select (q : Select)

mutual

/-- The expression and all nodes inside it, those of subqueries too. -/
def Expr.nodes : Expr → List Node
  | .column c => [.expr (.column c)]
  | .literal v => [.expr (.literal v)]
  | .call function args distinct => .expr (.call function args distinct) :: Expr.nodesAll args
  | .binary op l r => .expr (.binary op l r) :: (l.nodes ++ r.nodes)
  | .unary op e => .expr (.unary op e) :: e.nodes
  | .isNull e negated => .expr (.isNull e negated) :: e.nodes
  | .inList e items negated => .expr (.inList e items negated) :: (e.nodes ++ Expr.nodesAll items)
  | .inQuery e q negated => .expr (.inQuery e q negated) :: (e.nodes ++ q.nodes)
  | .between e low high negated =>
    .expr (.between e low high negated) :: (e.nodes ++ (low.nodes ++ high.nodes))
  | .subquery q => .expr (.subquery q) :: q.nodes
  | .star table => [.expr (.star table)]

def Expr.nodesAll : List Expr → List Node
  | [] => []
  | e :: es => e.nodes ++ Expr.nodesAll es

def Expr.nodesOption : Option Expr → List Node
  | none => []
  | some e => e.nodes

def Item.nodes : Item → List Node
  | ⟨e, _, _⟩ => e.nodes

def Item.nodesAll : List Item → List Node
  | [] => []
  | i :: is => i.nodes ++ Item.nodesAll is

def OrderKey.nodes : OrderKey → List Node
  | ⟨e, _⟩ => e.nodes

def OrderKey.nodesAll : List OrderKey → List Node
  | [] => []
  | k :: ks => k.nodes ++ OrderKey.nodesAll ks

def Origin.nodes : Origin → List Node
  | .table _ => []
  | .derived q => q.nodes

def JoinCondition.nodes : JoinCondition → List Node
  | .always | .shared _ _ => []
  | .predicate e => e.nodes

def Source.nodes : Source → List Node
  | ⟨origin, _, _, condition⟩ => origin.nodes ++ condition.nodes

def Source.nodesAll : List Source → List Node
  | [] => []
  | s :: ss => s.nodes ++ Source.nodesAll ss

def Select.nodes : Select → List Node
  | ⟨distinct, items, sources, filter, groupBy, having, orderBy, limit, sql⟩ =>
    .select ⟨distinct, items, sources, filter, groupBy, having, orderBy, limit, sql⟩ ::
      (Item.nodesAll items ++ (Source.nodesAll sources ++ (Expr.nodesOption filter ++
        (Expr.nodesAll groupBy ++ (Expr.nodesOption having ++ OrderKey.nodesAll orderBy)))))

end

theorem Expr.mem_nodes (e : Expr) : .expr e ∈ e.nodes := by
  cases e <;> simp [Expr.nodes]

def Assignment.nodesAll (assignments : List Assignment) : List Node :=
  assignments.flatMap fun a => a.value.nodes

def Update.nodes (u : Update) : List Node :=
  Assignment.nodesAll u.assignments ++ (Expr.nodesOption u.filter ++ OrderKey.nodesAll u.orderBy)

/-- The nodes of a SELECT or an UPDATE. -/
def Statement.nodes : Statement → List Node
  | .select q => q.nodes
  | .update u => u.nodes
  | _ => []

/-- The upper case of an unquoted ASCII identifier. -/
def isPlainName (name : String) : Bool :=
  name.toList.head?.any (fun c => c.isUpper || c = '_') &&
    name.toList.all (fun c => c.isUpper || c.isDigit || c = '_' || c = '$') &&
    Lexer.keywordKind? name = none

/-- A double that is finite, or a function called by an unquoted name, where there are any. -/
def Node.isPlain : Node → Bool
  | .expr (.literal (.float x)) => (Dyadic.ofFloat? x).isSome
  | .expr (.call function _ _) => isPlainName function || function ∈ ["MOD", "VALUES"]
  | _ => true

/-- A double that is finite, where there is any. -/
def Node.isFinite : Node → Bool
  | .expr (.literal (.float x)) => (Dyadic.ofFloat? x).isSome
  | _ => true

theorem Node.isFinite_plain {n : Node} (plain : n.isPlain = true) : n.isFinite = true := by
  unfold Node.isFinite
  split
  · exact plain
  · rfl

mutual

/-- The expression without the texts that it and its parts were read from. -/
def Expr.withoutText : Expr → Expr
  | .column c => .column c
  | .literal v => .literal v
  | .call function args distinct => .call function (Expr.withoutTexts args) distinct
  | .binary op l r => .binary op l.withoutText r.withoutText
  | .unary op e => .unary op e.withoutText
  | .isNull e negated => .isNull e.withoutText negated
  | .inList e items negated => .inList e.withoutText (Expr.withoutTexts items) negated
  | .inQuery e q negated => .inQuery e.withoutText q.withoutText negated
  | .between e low high negated =>
    .between e.withoutText low.withoutText high.withoutText negated
  | .subquery q => .subquery q.withoutText
  | .star table => .star table

def Expr.withoutTexts : List Expr → List Expr
  | [] => []
  | e :: es => e.withoutText :: Expr.withoutTexts es

def Expr.optionWithoutText : Option Expr → Option Expr
  | none => none
  | some e => some e.withoutText

def Item.withoutText : Item → Item
  | ⟨e, aliasName, _⟩ => ⟨e.withoutText, aliasName, ""⟩

def Item.withoutTexts : List Item → List Item
  | [] => []
  | i :: is => i.withoutText :: Item.withoutTexts is

def OrderKey.withoutText : OrderKey → OrderKey
  | ⟨e, descending⟩ => ⟨e.withoutText, descending⟩

def OrderKey.withoutTexts : List OrderKey → List OrderKey
  | [] => []
  | k :: ks => k.withoutText :: OrderKey.withoutTexts ks

def Origin.withoutText : Origin → Origin
  | .table name => .table name
  | .derived q => .derived q.withoutText

def JoinCondition.withoutText : JoinCondition → JoinCondition
  | .always => .always
  | .predicate e => .predicate e.withoutText
  | .shared columns left => .shared columns left

def Source.withoutText : Source → Source
  | ⟨origin, aliasName, kind, condition⟩ =>
    ⟨origin.withoutText, aliasName, kind, condition.withoutText⟩

def Source.withoutTexts : List Source → List Source
  | [] => []
  | s :: ss => s.withoutText :: Source.withoutTexts ss

def Select.withoutText : Select → Select
  | ⟨distinct, items, sources, filter, groupBy, having, orderBy, limit, _⟩ =>
    ⟨distinct, Item.withoutTexts items, Source.withoutTexts sources,
      Expr.optionWithoutText filter, Expr.withoutTexts groupBy, Expr.optionWithoutText having,
      OrderKey.withoutTexts orderBy, limit, ""⟩

end

attribute [simp] Expr.withoutText

theorem Expr.withoutTexts_eq (es : List Expr) : Expr.withoutTexts es = es.map Expr.withoutText := by
  induction es with
  | nil => rfl
  | cons e es ih => rw [Expr.withoutTexts, ih, List.map_cons]

theorem Item.withoutTexts_eq (is : List Item) : Item.withoutTexts is = is.map Item.withoutText := by
  induction is with
  | nil => rfl
  | cons i is ih => rw [Item.withoutTexts, ih, List.map_cons]

theorem OrderKey.withoutTexts_eq (ks : List OrderKey) :
    OrderKey.withoutTexts ks = ks.map OrderKey.withoutText := by
  induction ks with
  | nil => rfl
  | cons k ks ih => rw [OrderKey.withoutTexts, ih, List.map_cons]

theorem Source.withoutTexts_eq (ss : List Source) : Source.withoutTexts ss = ss.map Source.withoutText := by
  induction ss with
  | nil => rfl
  | cons s ss ih => rw [Source.withoutTexts, ih, List.map_cons]

/-- What the text of a value is read as: that of an infinite double or NaN is no number. -/
def Value.asRead : Value → Expr
  | .float x =>
    if (Dyadic.ofFloat? x).isSome then .literal (.float x)
    else if x.isNaN then .column ⟨none, "NaN"⟩
    else if x < 0 then .unary .negate (.column ⟨none, "inf"⟩)
    else .column ⟨none, "inf"⟩
  | v => .literal v

mutual

/-- The expression as its text is read, without source texts: each literal is what its own text is
read as, and all else stays. -/
def Expr.asRead : Expr → Expr
  | .column c => .column c
  | .literal v => v.asRead
  | .call function args distinct => .call function (Expr.asReadAll args) distinct
  | .binary op l r => .binary op l.asRead r.asRead
  | .unary op e => .unary op e.asRead
  | .isNull e negated => .isNull e.asRead negated
  | .inList e items negated => .inList e.asRead (Expr.asReadAll items) negated
  | .inQuery e q negated => .inQuery e.asRead q.asRead negated
  | .between e low high negated => .between e.asRead low.asRead high.asRead negated
  | .subquery q => .subquery q.asRead
  | .star table => .star table

def Expr.asReadAll : List Expr → List Expr
  | [] => []
  | e :: es => e.asRead :: Expr.asReadAll es

def Expr.optionAsRead : Option Expr → Option Expr
  | none => none
  | some e => some e.asRead

def Item.asRead : Item → Item
  | ⟨e, aliasName, _⟩ => ⟨e.asRead, aliasName, ""⟩

def Item.asReadAll : List Item → List Item
  | [] => []
  | i :: is => i.asRead :: Item.asReadAll is

def OrderKey.asRead : OrderKey → OrderKey
  | ⟨e, descending⟩ => ⟨e.asRead, descending⟩

def OrderKey.asReadAll : List OrderKey → List OrderKey
  | [] => []
  | k :: ks => k.asRead :: OrderKey.asReadAll ks

def Origin.asRead : Origin → Origin
  | .table name => .table name
  | .derived q => .derived q.asRead

def JoinCondition.asRead : JoinCondition → JoinCondition
  | .always => .always
  | .predicate e => .predicate e.asRead
  | .shared columns left => .shared columns left

def Source.asRead : Source → Source
  | ⟨origin, aliasName, kind, condition⟩ => ⟨origin.asRead, aliasName, kind, condition.asRead⟩

def Source.asReadAll : List Source → List Source
  | [] => []
  | s :: ss => s.asRead :: Source.asReadAll ss

def Select.asRead : Select → Select
  | ⟨distinct, items, sources, filter, groupBy, having, orderBy, limit, _⟩ =>
    ⟨distinct, Item.asReadAll items, Source.asReadAll sources, Expr.optionAsRead filter,
      Expr.asReadAll groupBy, Expr.optionAsRead having, OrderKey.asReadAll orderBy, limit, ""⟩

end

theorem Expr.asReadAll_eq (es : List Expr) : Expr.asReadAll es = es.map Expr.asRead := by
  induction es with
  | nil => rfl
  | cons e es ih => rw [Expr.asReadAll, ih, List.map_cons]

theorem Item.asReadAll_eq (is : List Item) : Item.asReadAll is = is.map Item.asRead := by
  induction is with
  | nil => rfl
  | cons i is ih => rw [Item.asReadAll, ih, List.map_cons]

theorem OrderKey.asReadAll_eq (ks : List OrderKey) : OrderKey.asReadAll ks = ks.map OrderKey.asRead := by
  induction ks with
  | nil => rfl
  | cons k ks ih => rw [OrderKey.asReadAll, ih, List.map_cons]

theorem Source.asReadAll_eq (ss : List Source) : Source.asReadAll ss = ss.map Source.asRead := by
  induction ss with
  | nil => rfl
  | cons s ss ih => rw [Source.asReadAll, ih, List.map_cons]

theorem Value.asRead_finite {v : Value} (finite : (Node.expr (.literal v)).isFinite = true) : v.asRead = .literal v := by
  cases v with
  | float x => simp only [Value.asRead, show (Dyadic.ofFloat? x).isSome = true from finite, if_true]
  | _ => rfl

mutual

/-- With finite doubles only, an expression is read as itself but for its texts. -/
theorem Expr.asRead_finite : ∀ e : Expr, (∀ n ∈ e.nodes, n.isFinite = true) → e.asRead = e.withoutText
  | .column _, _ | .star _, _ => rfl
  | .literal v, finite => Value.asRead_finite (finite _ (by simp [Expr.nodes]))
  | .call function args distinct, finite => by
    simp only [Expr.nodes, List.forall_mem_cons] at finite
    rw [Expr.asRead, Expr.withoutText, Expr.asReadAll_finite args finite.2]
  | .binary op l r, finite => by
    simp only [Expr.nodes, List.forall_mem_cons, List.forall_mem_append] at finite
    rw [Expr.asRead, Expr.withoutText, Expr.asRead_finite l finite.2.1, Expr.asRead_finite r finite.2.2]
  | .unary op e, finite | .isNull e negated, finite => by
    simp only [Expr.nodes, List.forall_mem_cons] at finite
    rw [Expr.asRead, Expr.withoutText, Expr.asRead_finite e finite.2]
  | .inList e items negated, finite => by
    simp only [Expr.nodes, List.forall_mem_cons, List.forall_mem_append] at finite
    rw [Expr.asRead, Expr.withoutText, Expr.asRead_finite e finite.2.1, Expr.asReadAll_finite items finite.2.2]
  | .inQuery e q negated, finite => by
    simp only [Expr.nodes, List.forall_mem_cons, List.forall_mem_append] at finite
    rw [Expr.asRead, Expr.withoutText, Expr.asRead_finite e finite.2.1, Select.asRead_finite q finite.2.2]
  | .between e low high negated, finite => by
    simp only [Expr.nodes, List.forall_mem_cons, List.forall_mem_append] at finite
    rw [Expr.asRead, Expr.withoutText, Expr.asRead_finite e finite.2.1, Expr.asRead_finite low finite.2.2.1,
      Expr.asRead_finite high finite.2.2.2]
  | .subquery q, finite => by
    simp only [Expr.nodes, List.forall_mem_cons] at finite
    rw [Expr.asRead, Expr.withoutText, Select.asRead_finite q finite.2]

theorem Expr.asReadAll_finite : ∀ es : List Expr, (∀ n ∈ Expr.nodesAll es, n.isFinite = true) →
    Expr.asReadAll es = Expr.withoutTexts es
  | [], _ => rfl
  | e :: es, finite => by
    simp only [Expr.nodesAll, List.forall_mem_append] at finite
    rw [Expr.asReadAll, Expr.withoutTexts, Expr.asRead_finite e finite.1, Expr.asReadAll_finite es finite.2]

theorem Expr.optionAsRead_finite : ∀ o : Option Expr, (∀ n ∈ Expr.nodesOption o, n.isFinite = true) →
    Expr.optionAsRead o = Expr.optionWithoutText o
  | none, _ => rfl
  | some e, finite => congrArg some (Expr.asRead_finite e finite)

theorem Item.asReadAll_finite : ∀ is : List Item, (∀ n ∈ Item.nodesAll is, n.isFinite = true) →
    Item.asReadAll is = Item.withoutTexts is
  | [], _ => rfl
  | ⟨e, _, _⟩ :: is, finite => by
    simp only [Item.nodesAll, Item.nodes, List.forall_mem_append] at finite
    rw [Item.asReadAll, Item.withoutTexts, Item.asRead, Item.withoutText, Expr.asRead_finite e finite.1,
      Item.asReadAll_finite is finite.2]

theorem OrderKey.asReadAll_finite : ∀ ks : List OrderKey, (∀ n ∈ OrderKey.nodesAll ks, n.isFinite = true) →
    OrderKey.asReadAll ks = OrderKey.withoutTexts ks
  | [], _ => rfl
  | ⟨e, _⟩ :: ks, finite => by
    simp only [OrderKey.nodesAll, OrderKey.nodes, List.forall_mem_append] at finite
    rw [OrderKey.asReadAll, OrderKey.withoutTexts, OrderKey.asRead, OrderKey.withoutText,
      Expr.asRead_finite e finite.1, OrderKey.asReadAll_finite ks finite.2]

theorem Origin.asRead_finite : ∀ o : Origin, (∀ n ∈ o.nodes, n.isFinite = true) → o.asRead = o.withoutText
  | .table _, _ => rfl
  | .derived q, finite => congrArg Origin.derived (Select.asRead_finite q finite)

theorem JoinCondition.asRead_finite : ∀ c : JoinCondition, (∀ n ∈ c.nodes, n.isFinite = true) →
    c.asRead = c.withoutText
  | .always, _ | .shared _ _, _ => rfl
  | .predicate e, finite => congrArg JoinCondition.predicate (Expr.asRead_finite e finite)

theorem Source.asReadAll_finite : ∀ ss : List Source, (∀ n ∈ Source.nodesAll ss, n.isFinite = true) →
    Source.asReadAll ss = Source.withoutTexts ss
  | [], _ => rfl
  | ⟨origin, _, _, condition⟩ :: ss, finite => by
    simp only [Source.nodesAll, Source.nodes, List.forall_mem_append] at finite
    rw [Source.asReadAll, Source.withoutTexts, Source.asRead, Source.withoutText,
      Origin.asRead_finite origin finite.1.1, JoinCondition.asRead_finite condition finite.1.2,
      Source.asReadAll_finite ss finite.2]

theorem Select.asRead_finite : ∀ q : Select, (∀ n ∈ q.nodes, n.isFinite = true) → q.asRead = q.withoutText
  | ⟨distinct, items, sources, filter, groupBy, having, orderBy, limit, sql⟩, finite => by
    simp only [Select.nodes, List.forall_mem_cons, List.forall_mem_append] at finite
    obtain ⟨_, items', sources', filter', groups, having', orders⟩ := finite
    rw [Select.asRead, Select.withoutText, Item.asReadAll_finite items items',
      Source.asReadAll_finite sources sources', Expr.optionAsRead_finite filter filter',
      Expr.asReadAll_finite groupBy groups, Expr.optionAsRead_finite having having',
      OrderKey.asReadAll_finite orderBy orders]

end

def Assignment.withoutText (a : Assignment) : Assignment :=
  ⟨a.column, a.value.withoutText⟩

def Assignment.asRead (a : Assignment) : Assignment :=
  ⟨a.column, a.value.asRead⟩

def Update.withoutText (u : Update) : Update :=
  { u with
    assignments := u.assignments.map Assignment.withoutText
    filter := Expr.optionWithoutText u.filter
    orderBy := OrderKey.withoutTexts u.orderBy
    sql := "" }

def Update.asRead (u : Update) : Update :=
  { u with
    assignments := u.assignments.map Assignment.asRead
    filter := Expr.optionAsRead u.filter
    orderBy := OrderKey.asReadAll u.orderBy
    sql := "" }

theorem Update.asRead_finite {u : Update} (finite : ∀ n ∈ u.nodes, n.isFinite = true) : u.asRead = u.withoutText := by
  simp only [Update.nodes, List.forall_mem_append] at finite
  obtain ⟨values, filter, orders⟩ := finite
  have assigned : u.assignments.map Assignment.asRead = u.assignments.map Assignment.withoutText := by
    refine List.map_congr_left fun a listed => congrArg (Assignment.mk a.column) (a.value.asRead_finite ?_)
    exact fun n inside => values n (List.mem_flatMap.mpr ⟨a, listed, inside⟩)
  simp only [Update.asRead, Update.withoutText, assigned, Expr.optionAsRead_finite u.filter filter,
    OrderKey.asReadAll_finite u.orderBy orders]

/-- A SELECT or an UPDATE without the texts that its parts were read from. -/
def Statement.withoutText : Statement → Statement
  | .select q => .select q.withoutText
  | .update u => .update u.withoutText
  | other => other

end MiniSql
