import MiniSql.Proofs.Shapes
import MiniSql.Proofs.Yielding

namespace MiniSql

open MiniSql.Parser

/-- Every node of the expression has what the grammar asks of it. -/
def Expr.WellFormed (e : Expr) : Prop :=
  ∀ n ∈ e.nodes, n.Shaped

def Select.WellFormed (q : Select) : Prop :=
  ∀ n ∈ q.nodes, n.Shaped

structure Nested.WellFormed (inner : Nested) : Prop where
  expr : Yields inner.expr Expr.WellFormed
  select : Yields inner.select Select.WellFormed

theorem Expr.wellFormedAll {es : List Expr} :
    (∀ n ∈ Expr.nodesAll es, n.Shaped) ↔ ∀ e ∈ es, e.WellFormed := by
  induction es with
  | nil => simp [Expr.nodesAll]
  | cons e es ih =>
    rw [Expr.nodesAll, List.forall_mem_append, List.forall_mem_cons, ih]
    rfl

theorem Expr.WellFormed.call {function : String} {args : List Expr} {distinct : Bool}
    (enough : args = [] → leastArguments? function = none) (all : ∀ e ∈ args, e.WellFormed) :
    (Expr.call function args distinct).WellFormed :=
  List.forall_mem_cons.mpr ⟨enough, Expr.wellFormedAll.mpr all⟩

theorem Expr.WellFormed.binary {op : BinaryOp} {l r : Expr} (left : l.WellFormed) (right : r.WellFormed) :
    (Expr.binary op l r).WellFormed :=
  List.forall_mem_cons.mpr ⟨trivial, List.forall_mem_append.mpr ⟨left, right⟩⟩

theorem Expr.WellFormed.unary {op : UnaryOp} {e : Expr} (operand : e.WellFormed) :
    (Expr.unary op e).WellFormed :=
  List.forall_mem_cons.mpr ⟨trivial, operand⟩

theorem Expr.WellFormed.isNull {e : Expr} {negated : Bool} (operand : e.WellFormed) :
    (Expr.isNull e negated).WellFormed :=
  List.forall_mem_cons.mpr ⟨trivial, operand⟩

theorem Expr.WellFormed.inList {e : Expr} {items : List Expr} {negated : Bool} (operand : e.WellFormed)
    (some : items ≠ []) (all : ∀ i ∈ items, i.WellFormed) : (Expr.inList e items negated).WellFormed :=
  List.forall_mem_cons.mpr ⟨some, List.forall_mem_append.mpr ⟨operand, Expr.wellFormedAll.mpr all⟩⟩

theorem Expr.WellFormed.inQuery {e : Expr} {q : Select} {negated : Bool} (operand : e.WellFormed)
    (query : q.WellFormed) : (Expr.inQuery e q negated).WellFormed :=
  List.forall_mem_cons.mpr ⟨trivial, List.forall_mem_append.mpr ⟨operand, query⟩⟩

theorem Expr.WellFormed.between {e low high : Expr} {negated : Bool} (operand : e.WellFormed)
    (lowest : low.WellFormed) (highest : high.WellFormed) : (Expr.between e low high negated).WellFormed :=
  List.forall_mem_cons.mpr
    ⟨trivial, List.forall_mem_append.mpr ⟨operand, List.forall_mem_append.mpr ⟨lowest, highest⟩⟩⟩

theorem Expr.WellFormed.subquery {q : Select} (query : q.WellFormed) : (Expr.subquery q).WellFormed :=
  List.forall_mem_cons.mpr ⟨trivial, query⟩

theorem Expr.WellFormed.column (c : ColumnRef) : (Expr.column c).WellFormed := by
  simp [Expr.WellFormed, Expr.nodes, Node.Shaped]

theorem Expr.WellFormed.literal (v : Value) : (Expr.literal v).WellFormed := by
  simp [Expr.WellFormed, Expr.nodes, Node.Shaped]

theorem Expr.WellFormed.star (table : Option String) : (Expr.star table).WellFormed := by
  simp [Expr.WellFormed, Expr.nodes, Node.Shaped]

namespace Grammar

variable {inner : Nested}

theorem yields_number (text : String) : Yields (number text) Expr.WellFormed := by
  refine Yields.after (P := fun _ => True) (fun sql tokens => ?_) fun v => .pure (.literal v)
  unfold numberValue
  split
  · trivial
  · rfl

theorem yields_arguments (sound : inner.WellFormed) :
    Yields (arguments inner) fun args => ∀ e ∈ args, e.WellFormed := by
  unfold arguments
  refine Yields.eat.after fun closed => ?_
  split
  · exact Yields.pure (by simp)
  · exact sound.expr.entries.bind fun args all => Yields.expect.after fun _ => Yields.pure all.2

theorem yields_functionCall (sound : inner.WellFormed) (name : String) :
    Yields (functionCall inner name) Expr.WellFormed := by
  unfold functionCall
  refine Yields.expect.after fun _ => Yields.nextIs.after fun query => ?_
  split
  · refine sound.select.enclosed.bind fun q known => Yields.pure ?_
    exact .call (by simp) (by simpa using Expr.WellFormed.subquery known)
  · refine Yields.eat.after fun distinct => (yields_arguments sound).bind fun args all => ?_
    split
    · exact Yields.fault
    · next few =>
      refine Yields.pure (.call (fun none => ?_) all)
      cases least : leastArguments? (Text.toUpper name) with
      | none => rfl
      | some bound => exact absurd least (few bound none)

theorem yields_named (sound : inner.WellFormed) (name : String) : Yields (named inner name) Expr.WellFormed := by
  unfold named
  refine Yields.nextIs.after fun call => ?_
  split
  · exact yields_functionCall sound name
  · refine Yields.eat.after fun qualified => ?_
    split
    · refine Yields.peek.after fun next => ?_
      split
      · exact Yields.fault
      · split
        · exact Yields.advance.after fun _ => Yields.pure (.column _)
        · split
          · exact Yields.advance.after fun _ => Yields.pure (.star _)
          · exact Yields.fault
    · exact Yields.pure (.column _)

theorem yields_parenthesized (sound : inner.WellFormed) : Yields (do
    if ← nextIs opensSelect then
      return .subquery (← enclosed inner.select)
    else
      let e ← inner.expr
      expect .paren ")"
      return e) Expr.WellFormed := by
  refine Yields.nextIs.after fun query => ?_
  split
  · exact sound.select.enclosed.bind fun q known => Yields.pure (.subquery known)
  · exact sound.expr.bind fun e known => Yields.expect.after fun _ => Yields.pure known

theorem yields_primary (sound : inner.WellFormed) : Yields (primary inner) Expr.WellFormed := by
  unfold primary
  refine Yields.peek.after fun next => ?_
  split
  · exact Yields.fault
  · refine Yields.secondIs.after fun isFunction => ?_
    repeat' split
    · exact Yields.advance.after fun _ => yields_number _
    · exact Yields.advance.after fun _ => Yields.pure (.literal _)
    · exact Yields.advance.after fun _ => Yields.pure (.literal _)
    · exact Yields.advance.after fun _ => Yields.pure (.literal _)
    · exact Yields.advance.after fun _ => yields_parenthesized sound
    · exact Yields.advance.after fun _ => Yields.pure (.star _)
    · exact Yields.advance.after fun _ => yields_functionCall sound _
    · exact Yields.advance.after fun _ => yields_named sound _
    · exact Yields.fault

/-- By the signs in front of the operand. -/
theorem yields_unary (sound : inner.WellFormed) : Yields (unary inner) Expr.WellFormed := by
  intro sql tokens
  show Yielded Expr.WellFormed (unaryFrom inner sql tokens)
  fun_induction unaryFrom inner sql tokens with
  | case1 => exact yields_primary sound sql []
  | case2 t minus n rest numeric => exact yields_number _ sql rest
  | case3 t wrap minus n rest _ ih => exact ih.map fun a known => .unary known
  | case4 t wrap minus ih => exact ih.map fun a known => .unary known
  | case5 t ts _ plus ih => exact ih
  | case6 t ts wrap _ _ bang ih => exact ih.map fun a known => .unary known
  | case7 t ts wrap _ _ _ named ih =>
    exact ih.map (f := fun e => Expr.call "BINARY" [e] false) fun a known => .call (by simp) (by simpa using known)
  | case8 t ts => exact yields_primary sound sql (t :: ts)

theorem yields_step {symbols : List String} {next : Parser Expr} {left : Expr} (known : left.WellFormed)
    (operand : Yields next Expr.WellFormed) :
    Yields (leftAssociative.step symbols next left) fun o => ∀ e ∈ o, e.WellFormed := by
  unfold leftAssociative.step
  refine Yields.peek.after fun token => ?_
  split
  · split
    · split
      · refine Yields.advance.after fun _ => operand.bind fun right holds => Yields.pure ?_
        rintro e ⟨⟩
        exact .binary known holds
      · exact Yields.pure (by simp)
    · exact Yields.pure (by simp)
  · exact Yields.pure (by simp)

theorem yields_leftAssociative {symbols : List String} {next : Parser Expr} (operand : Yields next Expr.WellFormed) :
    Yields (leftAssociative symbols next) Expr.WellFormed :=
  operand.bind fun _ known => Yields.grow known fun _ left => yields_step left operand

theorem yields_additive (sound : inner.WellFormed) : Yields (additive inner) Expr.WellFormed :=
  yields_leftAssociative (yields_leftAssociative (yields_unary sound))

theorem yields_membership {e : Expr} {negated : Bool} (sound : inner.WellFormed) (operand : e.WellFormed) :
    Yields (membership inner e negated) Expr.WellFormed := by
  unfold membership
  refine Yields.eat.after fun opened => ?_
  split
  · refine Yields.nextIs.after fun query => ?_
    split
    · exact sound.select.enclosed.bind fun q known => Yields.pure (.inQuery operand known)
    · refine (yields_arguments sound).bind fun items all => ?_
      split
      · exact Yields.fault
      · next some => exact Yields.pure (.inList operand some all)
  · exact Yields.fault

theorem yields_condition {left : Expr} {negated : Bool} (sound : inner.WellFormed) (known : left.WellFormed) :
    Yields (condition inner left negated) fun o => ∀ e ∈ o, e.WellFormed := by
  have some : ∀ e : Expr, e.WellFormed → ∀ a ∈ Option.some e, a.WellFormed := by
    rintro e holds _ ⟨⟩
    exact holds
  unfold condition
  refine Yields.eat.after fun like => ?_
  split
  · exact (yields_additive sound).bind fun right holds => Yields.pure (some _ (.binary known holds))
  · refine Yields.eat.after fun isIn => ?_
    split
    · exact (yields_membership sound known).bind fun e holds => Yields.pure (some e holds)
    · refine Yields.eat.after fun between => ?_
      split
      · refine (yields_additive sound).bind fun low lowest => Yields.expect.after fun _ => ?_
        exact (yields_additive sound).bind fun high highest => Yields.pure (some _ (.between known lowest highest))
      · exact Yields.pure (by simp)

theorem yields_comparison (sound : inner.WellFormed) : Yields (comparison inner) Expr.WellFormed := by
  refine (yields_additive sound).bind fun first known => Yields.grow known fun left holds => ?_
  unfold comparisonStep
  refine (yields_step holds (yields_additive sound)).bind fun o compared => ?_
  split
  · exact Yields.pure compared
  · refine Yields.eat.after fun isNull => ?_
    split
    · refine Yields.eat.after fun negated => Yields.eat.after fun null => ?_
      split
      · refine Yields.pure ?_
        rintro e ⟨⟩
        exact .isNull holds
      · exact Yields.fault
    · refine Yields.nextIs.after fun word => Yields.secondIs.after fun continues => ?_
      split
      · exact Yields.advance.after fun _ => yields_condition sound holds
      · exact yields_condition sound holds

/-- By the number of `NOT`. -/
theorem yields_negation (sound : inner.WellFormed) : Yields (negation inner) Expr.WellFormed := by
  intro sql tokens
  show Yielded Expr.WellFormed (negationFrom inner sql tokens)
  fun_induction negationFrom inner sql tokens with
  | case1 => exact yields_comparison sound sql []
  | case2 t ts isNot ih => exact ih.map fun a known => .unary known
  | case3 t ts => exact yields_comparison sound sql (t :: ts)

theorem yields_expression (sound : inner.WellFormed) : Yields (expression inner) Expr.WellFormed :=
  yields_leftAssociative (yields_leftAssociative (yields_leftAssociative (yields_negation sound)))

end Grammar

end MiniSql
