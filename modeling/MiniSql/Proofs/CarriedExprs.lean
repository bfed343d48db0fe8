import MiniSql.Proofs.Carrying
import MiniSql.Proofs.Nodes

namespace MiniSql

open MiniSql.Parser

/-- Every SELECT among the nodes is what its own text is parsed as. -/
def Standalone (nodes : List Node) : Prop :=
  ∀ q, .select q ∈ nodes → Statement.parse q.sql = .ok (.select q)

@[simp] theorem standalone_nil : Standalone [] := by
  simp [Standalone]

@[simp] theorem standalone_append {front back : List Node} :
    Standalone (front ++ back) ↔ Standalone front ∧ Standalone back := by
  simp only [Standalone, List.mem_append, or_imp, forall_and]

@[simp] theorem standalone_expr {e : Expr} {nodes : List Node} : Standalone (.expr e :: nodes) ↔ Standalone nodes := by
  simp [Standalone]

@[simp] theorem standalone_select {q : Select} {nodes : List Node} :
    Standalone (.select q :: nodes) ↔ Statement.parse q.sql = .ok (.select q) ∧ Standalone nodes := by
  simp [Standalone]

/-- Every SELECT in the expression is what its own text is parsed as. -/
def Expr.Alone (e : Expr) : Prop := Standalone e.nodes

def Select.Alone (q : Select) : Prop := Standalone q.nodes

namespace Expr

variable {e l r low high : Expr} {es : List Expr} {negated : Bool}

theorem standalone_nodesAll : Standalone (nodesAll es) ↔ ∀ e ∈ es, e.Alone := by
  induction es with
  | nil => simp [nodesAll]
  | cons e es ih => rw [nodesAll, standalone_append, ih, List.forall_mem_cons, Alone]

@[simp] theorem alone_column (c : ColumnRef) : (column c).Alone := by
  simp [Alone, nodes]

@[simp] theorem alone_literal (v : Value) : (literal v).Alone := by
  simp [Alone, nodes]

@[simp] theorem alone_star (table : Option String) : (star table).Alone := by
  simp [Alone, nodes]

@[simp] theorem alone_call {function : String} {distinct : Bool} :
    (call function es distinct).Alone ↔ ∀ e ∈ es, e.Alone := by
  rw [Alone, nodes, standalone_expr, standalone_nodesAll]

@[simp] theorem alone_binary {op : BinaryOp} : (binary op l r).Alone ↔ l.Alone ∧ r.Alone := by
  simp [Alone, nodes]

@[simp] theorem alone_unary {op : UnaryOp} : (unary op e).Alone ↔ e.Alone := by
  simp [Alone, nodes]

@[simp] theorem alone_isNull : (isNull e negated).Alone ↔ e.Alone := by
  simp [Alone, nodes]

@[simp] theorem alone_inList : (inList e es negated).Alone ↔ e.Alone ∧ ∀ i ∈ es, i.Alone := by
  rw [Alone, nodes, standalone_expr, standalone_append, standalone_nodesAll, Alone]

@[simp] theorem alone_inQuery {q : Select} : (inQuery e q negated).Alone ↔ e.Alone ∧ q.Alone := by
  simp [Alone, Select.Alone, nodes]

@[simp] theorem alone_between : (between e low high negated).Alone ↔ e.Alone ∧ low.Alone ∧ high.Alone := by
  simp [Alone, nodes]

@[simp] theorem alone_subquery {q : Select} : (subquery q).Alone ↔ q.Alone := by
  simp [Alone, Select.Alone, nodes]

end Expr

/-- What is read inside parentheses of a text is read in the same way of a text that is cut out. -/
structure Nested.Carried (text : Lexed) (inner : Nested) : Prop where
  expr : ∀ m, Carries text m 1 Expr.Alone inner.expr (Grammar.expression (within m))
  select : ∀ m, Carries text m 1 Select.Alone inner.select (Grammar.select (within m))

namespace Grammar

variable {text : Lexed} {inner : Nested} {m : Nat}

theorem carries_number (value : String) : Carries text m 0 Expr.Alone (number value) (number value) := by
  unfold number
  cases numberValue value with
  | ok v => exact Carries.pure (Expr.alone_literal v)
  | error e =>
    intro tokens _ a left run
    cases run

theorem carries_arguments (sound : inner.Carried text) :
    Carries text m 0 (fun args => ∀ e ∈ args, e.Alone) (arguments inner) (arguments (Nested.within (m + 1))) := by
  refine Carries.eat (dashFree_kind (by simp) ")") (.pure (by simp)) ?_
  refine (sound.expr m).entries.weaken.bind fun args all => ?_
  exact (Carries.expect (dashFree_kind (by simp) ")")).weaken.bind fun _ _ => .pure all.2

theorem carries_functionCall (sound : inner.Carried text) (name : String) :
    Carries text (m + 1) 1 Expr.Alone (functionCall inner name) (functionCall (Nested.within (m + 1)) name) := by
  refine (Carries.expect (dashFree_kind (by simp) "(")).enter fun _ _ => Carries.nextIs (fun _ _ => rfl) fun query => ?_
  split
  · exact (sound.select m).enclosed.weaken.bind fun q known => .pure (by simpa using known)
  · refine (Carries.mark (dashFree_reserved "DISTINCT")).bind fun distinct _ => ?_
    refine (carries_arguments sound).bind fun args all => ?_
    split
    · exact .fault
    · exact .pure (Expr.alone_call.mpr all)

theorem carries_named (sound : inner.Carried text) (name : String) :
    Carries text (m + 1) 0 Expr.Alone (named inner name) (named (Nested.within (m + 1)) name) := by
  refine Carries.nextIs (fun _ _ => rfl) fun call => ?_
  split
  · exact (carries_functionCall sound name).weaken
  · refine Carries.eat (dashFree_kind (by simp) ".") ?_ (.pure (Expr.alone_column _))
    refine Carries.peek (fun _ _ => rfl) .fault fun t left part => ?_
    dsimp only
    split
    · next isName => exact (Carried.advance_pure (Expr.alone_column _) (dashFree_isName.noDash t isName)).weaken
    · split
      · next isStar =>
        have clear : t.isOperator "-" = false := (dashFree_operator (by simp)).noDash t isStar
        exact (Carried.advance_pure (Expr.alone_star _) clear).weaken
      · exact .fault

theorem carries_parenthesized (sound : inner.Carried text) : Carries text m 0 Expr.Alone (do
    if ← nextIs opensSelect then
      return .subquery (← enclosed inner.select)
    else
      let e ← inner.expr
      expect .paren ")"
      return e) (do
    if ← nextIs opensSelect then
      return .subquery (← enclosed (Nested.within (m + 1)).select)
    else
      let e ← (Nested.within (m + 1)).expr
      expect .paren ")"
      return e) := by
  refine Carries.nextIs (fun _ _ => rfl) fun query => ?_
  split
  · exact (sound.select m).enclosed.weaken.bind fun q known => .pure (Expr.alone_subquery.mpr known)
  · refine (sound.expr m).weaken.bind fun e known => ?_
    exact (Carries.expect (dashFree_kind (by simp) ")")).weaken.bind fun _ _ => .pure known

theorem carries_primary (sound : inner.Carried text) :
    Carries text (m + 1) 1 Expr.Alone (primary inner) (primary (Nested.within (m + 1))) := by
  refine Carries.peek (fun _ _ => rfl) .fault fun t left part => ?_
  dsimp only
  refine Carried.secondIs (fun _ _ => rfl) fun isFunction => ?_
  repeat' split
  · next is => exact .advance_cons (carries_number t.value left part.tail) (noDash_kind is (by simp))
  · next is => exact .advance_pure (Expr.alone_literal _) (noDash_kind is (by simp))
  · next is => exact .advance_pure (Expr.alone_literal _) (noDash_kind is (by simp))
  · next is => exact .advance_pure (Expr.alone_literal _) (noDash_kind is (by simp))
  · next opens =>
    exact (carries_parenthesized sound left part.tail).advance_cons (dashFree_isOpen.noDash t opens)
  · next isStar => exact .advance_pure (Expr.alone_star _) ((dashFree_operator (by simp)).noDash t isStar)
  · have call := (carries_functionCall sound t.value).narrow (Nat.le_succ m) left part.tail
    exact .advance_then call
  · next isName =>
    have name := (carries_named sound t.value).narrow (Nat.le_succ m) left part.tail
    exact .advance_cons name (dashFree_isName.noDash t isName)
  · exact .fault

/-- A token before the operand, which makes the operand part of a node. -/
theorem carried_wrap {sql : String} {t : Token} {tokens : List Token} {r : Outcome (Expr × List Token)} {p : Parser Expr}
    {f : Expr → Expr} (operand : Carried sql 1 Expr.Alone tokens r p) (wraps : ∀ e, e.Alone → (f e).Alone)
    (skips : ∀ sql' k, p sql' ((t :: tokens).map (Token.rebased k)) =
      (p sql' (tokens.map (Token.rebased k))).map fun (e, left) => (f e, left)) :
    Carried sql 1 Expr.Alone (t :: tokens) (r.map fun (e, left) => (f e, left)) p := by
  have wrapped : Carried sql 1 Expr.Alone tokens (r.map fun (e, left) => (f e, left))
      fun sql tokens => (p sql tokens).map fun (e, left) => (f e, left) :=
    operand.map wraps fun _ _ => rfl
  exact (wrapped.cons (fun none => absurd none Nat.one_ne_zero) skips).mono (by decide) fun _ => id

/-- By the signs in front of the operand. -/
theorem carries_unary (sound : inner.Carried text) :
    Carries text (m + 1) 1 Expr.Alone (unary inner) (unary (Nested.within (m + 1))) := by
  intro tokens part
  have blind : Blind followsBinary := fun _ _ => rfl
  show Carried text.sql 1 Expr.Alone tokens (unaryFrom inner text.sql tokens) (unary (Nested.within (m + 1)))
  fun_induction unaryFrom inner text.sql tokens with
  | case1 => exact carries_primary sound [] part
  | case2 t minus n rest numeric =>
    have inside : rest <:+: t :: n :: rest := ⟨[t, n], [], by simp⟩
    have number := carries_number ("-" ++ n.value) rest (part.of_infix inside)
    have afterMinus : Carried text.sql 1 Expr.Alone (n :: rest) _ fun sql tokens => Grammar.number ("-" ++ n.value) sql tokens.tail :=
      number.cons (fun _ => noDash_kind numeric (by simp)) fun _ _ => rfl
    refine (afterMinus.cons (fun none => absurd none Nat.one_ne_zero) fun sql' k => ?_).mono (by decide) fun _ => id
    simp [unary, unaryFrom, minus, numeric]
  | case3 t wrap minus n rest notNumeric ih =>
    refine carried_wrap (ih part.rest) (fun e known => Expr.alone_unary.mpr known) fun sql' k => ?_
    simp [unary, unaryFrom, minus, notNumeric]
  | case4 t wrap minus ih =>
    refine carried_wrap (ih part.rest) (fun e known => Expr.alone_unary.mpr known) fun sql' k => ?_
    simp [unary, unaryFrom, minus]
  | case5 t ts notMinus plus ih =>
    have operand := ih part.rest
    refine (operand.cons (fun none => absurd none Nat.one_ne_zero) fun sql' k => ?_).mono (by decide) fun _ => id
    rw [unary, List.map_cons, unaryFrom.eq_def]
    simp only [Token.isOperator_rebased, notMinus, plus, if_true, if_false, Bool.false_eq_true]
  | case6 t ts wrap notMinus notPlus bang ih =>
    refine carried_wrap (ih part.rest) (fun e known => Expr.alone_unary.mpr known) fun sql' k => ?_
    rw [unary, List.map_cons, unaryFrom.eq_def]
    simp only [Token.isOperator_rebased, notMinus, notPlus, bang, if_true, if_false, Bool.false_eq_true]
  | case7 t ts wrap notMinus notPlus notBang named ih =>
    refine carried_wrap (f := fun e => .call "BINARY" [e] false) (ih part.rest)
      (fun e known => by simpa using known) fun sql' k => ?_
    rw [← blind.any_head k] at named
    rw [unary, List.map_cons, unaryFrom.eq_def]
    simp only [Token.isOperator_rebased, notMinus, notPlus, notBang, if_false, Bool.false_eq_true]
    exact if_pos named
  | case8 t ts notMinus notPlus notBang notNamed =>
    refine Carried.congr (carries_primary sound (t :: ts) part) fun sql' k => ?_
    rw [← blind.any_head k] at notNamed
    rw [unary, List.map_cons, unaryFrom.eq_def]
    simp only [Token.isOperator_rebased, notMinus, notPlus, notBang, if_false, Bool.false_eq_true]
    exact if_neg notNamed

theorem carries_step {symbols : List String} {next next' : Parser Expr} {left : Expr} (known : left.Alone)
    (operand : Carries text m 1 Expr.Alone next next') :
    Carries text m 0 (fun o => ∀ e ∈ o, e.Alone) (leftAssociative.step symbols next left)
      (leftAssociative.step symbols next' left) := by
  refine Carries.peek (fun _ _ => rfl) (.pure (by simp)) fun t rest part => ?_
  dsimp only
  cases BinaryOp.ofSymbol? t.value with
  | none => exact .pure (by simp)
  | some op =>
    dsimp only
    split
    · have right : Carries text m 1 (fun o => ∀ e ∈ o, e.Alone) (do return some (Expr.binary op left (← next)))
          (do return some (Expr.binary op left (← next'))) :=
        operand.bind fun e holds => .pure (by simpa using ⟨known, holds⟩)
      -- The operator may be a dash, but the operand after it takes a token.
      exact (right rest part.rest).advance_then.weaken
    · exact .pure (by simp)

theorem carries_leftAssociative {symbols : List String} {next next' : Parser Expr}
    (operand : Carries text m 1 Expr.Alone next next') :
    Carries text m 1 Expr.Alone (leftAssociative symbols next) (leftAssociative symbols next') :=
  operand.bind fun _ known => Carries.grow known fun _ left => carries_step left operand

theorem carries_additive (sound : inner.Carried text) :
    Carries text (m + 1) 1 Expr.Alone (additive inner) (additive (Nested.within (m + 1))) :=
  carries_leftAssociative (carries_leftAssociative (carries_unary sound))

theorem carries_membership {e : Expr} {negated : Bool} (sound : inner.Carried text) (operand : e.Alone) :
    Carries text (m + 1) 0 Expr.Alone (membership inner e negated) (membership (Nested.within (m + 1)) e negated) := by
  refine Carries.eat_enter (dashFree_kind (by simp) "(") (Carries.nextIs (fun _ _ => rfl) fun query => ?_) .fault
  split
  · exact (sound.select m).enclosed.weaken.bind fun q known => .pure (Expr.alone_inQuery.mpr ⟨operand, known⟩)
  · refine (carries_arguments sound).bind fun items all => ?_
    split
    · exact .fault
    · exact .pure (Expr.alone_inList.mpr ⟨operand, all⟩)

theorem carries_condition {left : Expr} {negated : Bool} (sound : inner.Carried text) (known : left.Alone) :
    Carries text (m + 1) 0 (fun o => ∀ e ∈ o, e.Alone) (condition inner left negated)
      (condition (Nested.within (m + 1)) left negated) := by
  refine Carries.eat (dashFree_operator (by simp)) ?_ (Carries.eat (dashFree_operator (by simp)) ?_
    (Carries.eat (dashFree_operator (by simp)) ?_ (.pure (by simp))))
  · exact (carries_additive sound).weaken.bind fun right holds => .pure (by simpa using ⟨known, holds⟩)
  · exact (carries_membership sound known).bind fun e holds => .pure (by simpa using holds)
  · refine (carries_additive sound).weaken.bind fun low lowest => ?_
    refine (Carries.expect (dashFree_operator (by simp))).weaken.bind fun _ _ => ?_
    exact (carries_additive sound).weaken.bind fun high highest => .pure (by simpa using ⟨known, lowest, highest⟩)

theorem carries_comparison (sound : inner.Carried text) :
    Carries text (m + 1) 1 Expr.Alone (comparison inner) (comparison (Nested.within (m + 1))) := by
  refine (carries_additive sound).bind fun first known => Carries.grow known fun left holds => ?_
  refine (carries_step holds (carries_additive sound)).bind fun o compared => ?_
  split
  · exact .pure compared
  · refine Carries.eat (dashFree_operator (by simp)) ?_ (Carries.both (fun _ _ => rfl) (fun _ _ => rfl) (fun t rest part isNot => ?_) ?_)
    · refine (Carries.mark (dashFree_operator (by simp))).bind fun negated _ => ?_
      exact Carries.eat (dashFree_kind (by simp) "NULL") (.pure (by simpa using holds)) .fault
    · have clear : t.isOperator "-" = false := (dashFree_operator (by simp)).noDash t isNot
      exact (Carried.advance_cons (carries_condition sound holds rest part.rest) clear).weaken
    · exact carries_condition sound holds

theorem carries_negation (sound : inner.Carried text) :
    Carries text (m + 1) 1 Expr.Alone (negation inner) (negation (Nested.within (m + 1))) := by
  intro tokens part
  show Carried text.sql 1 Expr.Alone tokens (negationFrom inner text.sql tokens) (negation (Nested.within (m + 1)))
  fun_induction negationFrom inner text.sql tokens with
  | case1 => exact carries_comparison sound [] part
  | case2 t ts isNot ih =>
    refine carried_wrap (ih part.rest) (fun e known => Expr.alone_unary.mpr known) fun sql' k => ?_
    rw [negation, List.map_cons, negationFrom, Token.isOperator_rebased, if_pos isNot]
  | case3 t ts notNot =>
    refine Carried.congr (carries_comparison sound (t :: ts) part) fun sql' k => ?_
    rw [negation, List.map_cons, negationFrom, Token.isOperator_rebased, if_neg notNot]
    rfl

theorem carries_expression (sound : inner.Carried text) (m : Nat) :
    Carries text m 1 Expr.Alone (expression inner) (expression (Nested.within m)) := by
  refine Carries.of_succ (q := fun m => expression (Nested.within m)) (fun m => ?_) m
  exact carries_leftAssociative (carries_leftAssociative (carries_leftAssociative (carries_negation sound)))

end Grammar

end MiniSql
