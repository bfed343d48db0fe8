import MiniSql.Proofs.BalancedSigns
import MiniSql.Proofs.Clauses
import MiniSql.Proofs.Comparisons
import MiniSql.Proofs.Nodes
import MiniSql.Proofs.Shapes
import MiniSql.Proofs.Sources
import MiniSql.Proofs.Words

namespace MiniSql.Grammar

open MiniSql.Parser

/-- The optional clauses of a SELECT can be read. -/
structure SelectParts (inner : Nested) (q : Select) : Prop where
  sources : PartRead (selectClause inner) .source (fun v q => { q with sources := v })
    (fun a b => Source.withoutTexts b = Source.asReadAll a) [] q.sources (Source.signsAll q.sources)
  filter : PartRead (selectClause inner) .filter (fun v q => { q with filter := v })
    (fun a b => Expr.optionWithoutText b = Expr.optionAsRead a) none q.filter
    (Expr.clauseSigns .filter q.filter)
  groupBy : PartRead (selectClause inner) .groupBy (fun v q => { q with groupBy := v })
    (fun a b => Expr.withoutTexts b = Expr.asReadAll a) [] q.groupBy
    (clauseSigns .groupBy (Expr.signsAll q.groupBy))
  having : PartRead (selectClause inner) .having (fun v q => { q with having := v })
    (fun a b => Expr.optionWithoutText b = Expr.optionAsRead a) none q.having
    (Expr.clauseSigns .having q.having)
  orderBy : PartRead (selectClause inner) .orderBy (fun v q => { q with orderBy := v })
    (fun a b => OrderKey.withoutTexts b = OrderKey.asReadAll a) [] q.orderBy
    (clauseSigns .orderBy (OrderKey.signsAll q.orderBy))
  limit : PartRead (selectClause inner) .limit (fun v q => { q with limit := v })
    (fun a b => b = a) none q.limit (limitSigns q.limit)

/-- The signs of the optional clauses of a SELECT. -/
def optionalSigns (q : Select) : List Sign :=
  Source.signsAll q.sources ++ (Expr.clauseSigns .filter q.filter ++
    (clauseSigns .groupBy (Expr.signsAll q.groupBy) ++ (Expr.clauseSigns .having q.having ++
      (clauseSigns .orderBy (OrderKey.signsAll q.orderBy) ++ limitSigns q.limit))))

theorem Select.signs_eq (q : Select) :
    q.signs = .clause .select :: ((if q.distinct then [.reserved "DISTINCT"] else []) ++
      (commaSigns (Item.signsAll q.items) ++ optionalSigns q)) := by
  cases q
  rfl

section
variable {inner : Nested} {q : Select}

theorem SelectParts.limitEnds (parts : SelectParts inner q) : Reads.Ends 10 10 (limitSigns q.limit) := by
  have ends := parts.limit.ends (t := []) (Nat.le_refl 10)
  rwa [List.append_nil] at ends

theorem SelectParts.ends (parts : SelectParts inner q) : Reads.Ends 10 10 (optionalSigns q) :=
  parts.sources.ends (parts.filter.ends (parts.groupBy.ends (parts.having.ends (parts.orderBy.ends
    parts.limitEnds))))

theorem SelectParts.takesAll (parts : SelectParts inner q) (distinct : Bool) (items : List Item) :
    TakesAll (clauses selectOrder (selectClause inner) ⟨distinct, items, [], none, [], none, [], none, ""⟩)
      (optionalSigns q) fun b => b.withoutText = { q.asRead with distinct, items := Item.withoutTexts items } := by
  have orderEnds := parts.orderBy.ends parts.limitEnds
  have havingEnds := parts.having.ends orderEnds
  have groupEnds := parts.groupBy.ends havingEnds
  have filterEnds := parts.filter.ends groupEnds
  have limits := parts.limit.clauses (o := selectOrder) (i := 6) (j := 7) (t := []) rfl (by decide) rfl
    (Nat.le_refl 10) clausesRead_nil
  rw [List.append_nil] at limits
  have read := parts.sources.clauses (i := 1) (j := 2) rfl (by decide) rfl filterEnds <|
    parts.filter.clauses (j := 3) rfl (by decide) rfl groupEnds <|
    parts.groupBy.clauses (j := 4) rfl (by decide) rfl havingEnds <|
    parts.having.clauses (j := 5) rfl (by decide) rfl orderEnds <|
    parts.orderBy.clauses (j := 6) rfl (by decide) rfl parts.limitEnds limits
  intro sql tokens same
  obtain ⟨b, run, all⟩ := read.takesAll sql tokens same
  refine ⟨b, run, ?_⟩
  obtain ⟨sources, sameSources, all⟩ := all rfl
  obtain ⟨filter, sameFilter, all⟩ := all rfl
  obtain ⟨groupBy, sameGroups, all⟩ := all rfl
  obtain ⟨having, sameHaving, all⟩ := all rfl
  obtain ⟨orderBy, sameOrder, all⟩ := all rfl
  obtain ⟨limit, rfl, rfl⟩ := all rfl
  cases q
  simp only [Select.withoutText, Select.asRead, sameSources, sameFilter, sameGroups, sameHaving, sameOrder]

/-- The items of a SELECT, after `DISTINCT` if it is there. -/
theorem selectBody_apply {sql : String} {keyword : Token} {marks tokens rest : List Token} {distinct : Bool}
    {items : List Item} {b : Select} (sameKeyword : keyword.sign = .clause .select)
    (sameMarks : marks.map Token.sign = if distinct then [.reserved "DISTINCT"] else [])
    (opens : ∃ t more, tokens = t :: more ∧ t.sign.opensExpr = true)
    (read : entries (item inner) sql tokens = .ok (items, rest))
    (run : clauses selectOrder (selectClause inner) ⟨distinct, items, [], none, [], none, [], none, ""⟩ sql rest =
      .ok (b, [])) :
    selectBody inner sql (keyword :: (marks ++ tokens)) = .ok (b, []) := by
  obtain ⟨t, more, rfl, opens⟩ := opens
  have noReserved : t.kind ≠ .reserved := by
    intro reserved
    simp [Sign.opensExpr, Token.sign, reserved] at opens
  cases distinct with
  | true =>
    obtain ⟨mark, rfl, sameMark⟩ := List.map_eq_singleton_iff.mp sameMarks
    simp only [Token.sign, Sign.reserved, Sign.mk.injEq] at sameMark
    simp [selectBody, expectClause_apply sameKeyword, Token.isReserved, Token.isKind, sameMark, read, run]
  | false =>
    simp only [Bool.false_eq_true, if_false, List.map_eq_nil_iff] at sameMarks
    subst sameMarks
    simp [selectBody, expectClause_apply sameKeyword, Token.isReserved, Token.isKind, noReserved, read, run]

/-- A SELECT whose items and clauses can be read is read as its text says, up to source texts. -/
theorem takesAll_select (parts : SelectParts inner q)
    (items : Reads 9 (entries (item inner)) (commaSigns (Item.signsAll q.items))
      fun is => Item.withoutTexts is = Item.asReadAll q.items)
    (opens : OpensExpr (commaSigns (Item.signsAll q.items))) :
    TakesAll (select inner) q.signs fun q' => q'.withoutText = q.asRead := by
  intro sql tokens same
  rw [Select.signs_eq] at same
  obtain ⟨keyword, back, rfl, sameKeyword, sameBack⟩ := List.map_eq_cons_iff.mp same
  obtain ⟨marks, back, rfl, sameMarks, sameBack⟩ := List.map_eq_append_iff.mp sameBack
  obtain ⟨front, back, rfl, sameFront, sameBack⟩ := List.map_eq_append_iff.mp sameBack
  have ended : Stops 9 back := by
    have stops : Stops 10 (back ++ []) := parts.ends.stops sameBack (by simp [Stops])
    rw [List.append_nil] at stops
    exact stops.mono (by decide)
  obtain ⟨is, read, sameItems⟩ := items sql front back sameFront ended
  obtain ⟨b, run, holds⟩ := parts.takesAll q.distinct is sql back sameBack
  have first : ∃ t more, front ++ back = t :: more ∧ t.sign.opensExpr = true := by
    obtain ⟨sign, more, starts, opens⟩ := opens
    rw [starts] at sameFront
    obtain ⟨t, front, rfl, rfl, _⟩ := List.map_eq_cons_iff.mp sameFront
    exact ⟨t, _, rfl, opens⟩
  obtain ⟨text, whole⟩ := withText_apply (selectBody_apply sameKeyword sameMarks first read run)
  refine ⟨{ b with sql := text }, by simp [select, whole], ?_⟩
  cases b
  cases q
  simp only [Select.withoutText, Select.asRead, Select.mk.injEq] at holds sameItems ⊢
  simp [holds, sameItems]

end

variable {inner : Nested} {s t : List Sign} {P Q : Expr → Prop}

/-- The signs are read at every level of operators. -/
def ReadsAnywhere (inner : Nested) (signs : List Sign) (P : Expr → Prop) : Prop :=
  ∀ m ≤ 7, Reads m (atLevel inner m) signs P

theorem reads_anywhere (opens : OpensOperand s) (reads : Reads 0 (unary inner) s P) :
    ReadsAnywhere inner s P := by
  obtain ⟨sign, more, starts, _, other⟩ := opens
  exact fun m most => reads_atLevel (n := 0) reads (Nat.zero_le m) most fun _ => ⟨sign, more, starts, other⟩

/-- An expression is read as a whole if it is read at its own level. -/
theorem reads_expression {e : Expr} (reads : Reads e.level (atLevel inner e.level) e.signs P) :
    Reads 7 (expression inner) e.signs P := by
  refine reads_atLevel (m := 7) reads e.level_le (Nat.le_refl 7) fun low => ?_
  have other : ∀ a, e ≠ .unary .not a := by
    rintro a rfl
    simp [Expr.level] at low
  obtain ⟨sign, more, starts, _, noNot⟩ := e.signs_operand other
  exact ⟨sign, more, starts, noNot⟩

/-- A comparison of an operand with `LIKE`, `IN` or `BETWEEN`. -/
theorem reads_conditional {word : String} (negated : Bool) {R : Expr → Expr → Prop}
    (left : ReadsAnywhere inner s P) (listed : word ∈ ["LIKE", "IN", "BETWEEN"])
    (reads : ∀ l, Reads 2 (condition inner l negated) (.operator word :: t) fun o => ∃ e, o = some e ∧ R l e) :
    Reads 3 (comparison inner) (s ++ (notSigns negated ++ (.operator word :: t)))
      fun e => ∃ l, P l ∧ R l e := by
  refine reads_compared (left 2 (by decide)) (condition_starts listed) fun l holds => ?_
  refine (reads_condition listed (reads l)).imp ?_
  rintro o ⟨e, rfl, known⟩
  exact ⟨e, rfl, l, holds, known⟩

theorem reads_compare {op : BinaryOp} (left : ReadsAnywhere inner s P) (right : ReadsAnywhere inner t Q)
    (signs : op.signs = [.operator op.symbol]) (listed : op.symbol ∈ comparisonSymbols)
    (found : BinaryOp.ofSymbol? op.symbol = some op) :
    Reads 3 (comparison inner) (s ++ (op.signs ++ t)) fun e => ∃ l r, P l ∧ Q r ∧ e = .binary op l r := by
  have levels : ∀ symbol ∈ comparisonSymbols, 2 < (Sign.operator symbol).level := by decide
  rw [signs]
  refine reads_compared (left 2 (by decide)) ⟨_, _, rfl, levels _ listed⟩ fun l holds => ?_
  refine (reads_comparisonOp listed found (right 2 (by decide))).imp ?_
  rintro o ⟨e, rfl, r, known, rfl⟩
  exact ⟨_, rfl, l, r, holds, known, rfl⟩

theorem reads_grouped {op : BinaryOp} {n : Nat} (most : n + 1 ≤ 7) (left : ReadsAnywhere inner s P)
    (right : ReadsAnywhere inner t Q) (signs : op.signs = [.operator op.symbol])
    (listed : op.symbol ∈ symbolsOf (n + 1)) (found : BinaryOp.ofSymbol? op.symbol = some op) :
    Reads (n + 1) (leftAssociative (symbolsOf (n + 1)) (atLevel inner n)) (s ++ (op.signs ++ t))
      fun e => ∃ l r, P l ∧ Q r ∧ e = .binary op l r := by
  rw [signs]
  exact reads_binary (ofLevel_symbolsOf (n + 1)) listed found (left n (by omega)) (right n (by omega))

theorem reads_likeOp (negated : Bool) (left : ReadsAnywhere inner s P) (right : ReadsAnywhere inner t Q) :
    Reads 3 (comparison inner) (s ++ (notSigns negated ++ (.operator "LIKE" :: t)))
      fun e => ∃ l r, P l ∧ Q r ∧ e = .binary (if negated then .notLike else .like) l r := by
  have reads := reads_conditional negated left (by decide) fun l =>
    reads_like l rfl (right 2 (by decide))
  refine reads.imp ?_
  rintro e ⟨l, holds, r, known, rfl⟩
  exact ⟨l, r, holds, known, rfl⟩

/-- Two operands with an operator between them are read at the level of the operator. -/
theorem reads_op (op : BinaryOp) (left : ReadsAnywhere inner s P) (right : ReadsAnywhere inner t Q) :
    Reads op.level (atLevel inner op.level) (s ++ (op.signs ++ t))
      fun e => ∃ l r, P l ∧ Q r ∧ e = .binary op l r := by
  match op with
  | .or => exact reads_grouped (n := 6) (by decide) left right rfl (by decide) rfl
  | .xor => exact reads_grouped (n := 5) (by decide) left right rfl (by decide) rfl
  | .and => exact reads_grouped (n := 4) (by decide) left right rfl (by decide) rfl
  | .equal => exact reads_compare left right rfl (by decide) rfl
  | .nullSafeEqual => exact reads_compare left right rfl (by decide) rfl
  | .notEqual => exact reads_compare left right rfl (by decide) rfl
  | .less => exact reads_compare left right rfl (by decide) rfl
  | .lessEqual => exact reads_compare left right rfl (by decide) rfl
  | .greater => exact reads_compare left right rfl (by decide) rfl
  | .greaterEqual => exact reads_compare left right rfl (by decide) rfl
  | .like => exact reads_likeOp false left right
  | .notLike => exact reads_likeOp true left right
  | .add => exact reads_grouped (n := 1) (by decide) left right rfl (by decide) rfl
  | .subtract => exact reads_grouped (n := 1) (by decide) left right rfl (by decide) rfl
  | .multiply => exact reads_grouped (n := 0) (by decide) left right rfl (by decide) rfl
  | .divide => exact reads_grouped (n := 0) (by decide) left right rfl (by decide) rfl
  | .intDivide => exact reads_grouped (n := 0) (by decide) left right rfl (by decide) rfl
  | .modulo => exact reads_grouped (n := 0) (by decide) left right rfl (by decide) rfl

/-- The name of an infinite double or NaN is a column, which may have a minus. -/
theorem reads_infinite {x : Float} (infinite : ¬ (Dyadic.ofFloat? x).isSome = true) :
    Reads 0 (unary inner) (infiniteSigns x) fun e => e = (Value.float x).asRead := by
  simp only [infiniteSigns, Value.asRead, if_neg infinite]
  split_ifs
  · exact reads_column ⟨none, "NaN"⟩
  · refine (reads_negate (reads_column ⟨none, "inf"⟩) (by decide)).imp ?_
    rintro e ⟨_, rfl, rfl⟩
    rfl
  · exact reads_column ⟨none, "inf"⟩

theorem reads_literal {v : Value} (good : (Node.expr (.literal v)).Readable) :
    Reads 0 (unary inner) v.signs fun e => e = v.asRead := by
  cases v with
  | null => exact reads_null _
  | bool b => exact reads_boolean b
  | int i => exact reads_number (signedText_int i.toInt) (numberValue_int i)
  | float x =>
    simp only [Value.signs]
    split_ifs with finite
    · rw [Value.asRead_finite (v := .float x) finite]
      exact reads_number (signedText_float finite) (good.back finite)
    · exact reads_infinite finite
  | str text => exact reads_string text

/-- The operand of a minus without parentheses starts with no number. -/
theorem isName_starts {e : Expr} (named : e.isName = true) :
    operandSigns e e.signs = e.signs ∧ ∃ sign more, e.signs = sign :: more ∧ sign.kind ≠ .numeric := by
  match e with
  | .column ⟨none, _⟩ | .column ⟨some _, _⟩ => exact ⟨rfl, _, _, rfl, by simp [Sign.name]⟩
  | .call function _ _ =>
    refine ⟨rfl, _, _, rfl, ?_⟩
    unfold functionSign
    split
    · simp [Sign.operator]
    · split <;> simp [Sign.clause, Sign.name]

end MiniSql.Grammar
