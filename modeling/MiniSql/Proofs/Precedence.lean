import MiniSql.Proofs.Phrases

namespace MiniSql

open Grammar
open MiniSql.Parser

/-- The signs that a literal may be written with; a number below zero is a minus and its size. -/
inductive Value.WrittenAs : Value → List Sign → Prop
  | null (text : String) : WrittenAs .null [⟨.null, text⟩]
  | bool (b : Bool) : WrittenAs (.bool b) [⟨.boolean, if b then "TRUE" else "FALSE"⟩]
  | str (s : String) : WrittenAs (.str s) [⟨.string, s⟩]
  | number {v : Value} {text : String} (value : numberValue text = .ok v) : WrittenAs v [⟨.numeric, text⟩]
  | negative {v : Value} {text : String} (value : numberValue ("-" ++ text) = .ok v) :
    WrittenAs v [.operator "-", ⟨.numeric, text⟩]

/-- The signs of an operand in a place for phrases up to a level. -/
def Expr.fitSigns (most : Nat) (e : Expr) (signs : List Sign) : List Sign :=
  if e.level ≤ most then signs else enclosedSigns signs

/-- The signs of the operand of a minus. A number directly behind the minus would be read with it. -/
def Expr.negatedSigns (e : Expr) (signs : List Sign) : List Sign :=
  if signs.head?.any fun s => s.kind = .numeric then enclosedSigns signs else e.fitSigns 0 signs

mutual

/-- The signs of an expression, in which an operand is in parentheses only where it binds more loosely than
its place allows: the right one of an operator binds more tightly than the operator, the left one may bind
alike. -/
def Expr.minimalSigns (write : Value → List Sign) : Expr → List Sign
  | .column c => c.signs
  | .literal v => write v
  | .binary op l r =>
    l.fitSigns op.level (l.minimalSigns write) ++
      (op.signs ++ r.fitSigns (op.level - 1) (r.minimalSigns write))
  | .unary .not e => .operator "NOT" :: e.fitSigns 4 (e.minimalSigns write)
  | .unary .negate e => .operator "-" :: e.negatedSigns (e.minimalSigns write)
  | .isNull e negated =>
    e.fitSigns 3 (e.minimalSigns write) ++ (.operator "IS" :: (notSigns negated ++ [⟨.null, "NULL"⟩]))
  | .inList e items negated =>
    e.fitSigns 3 (e.minimalSigns write) ++
      (notSigns negated ++ (.operator "IN" :: enclosedSigns (commaSigns (Expr.minimalSignsAll write items))))
  | .between e low high negated =>
    e.fitSigns 3 (e.minimalSigns write) ++ (notSigns negated ++ (.operator "BETWEEN" ::
      (low.fitSigns 2 (low.minimalSigns write) ++
        (.operator "AND" :: high.fitSigns 2 (high.minimalSigns write)))))
  | e => e.signs

def Expr.minimalSignsAll (write : Value → List Sign) : List Expr → List (List Sign)
  | [] => []
  | e :: es => e.minimalSigns write :: Expr.minimalSignsAll write es

end

theorem Expr.minimalSignsAll_eq (write : Value → List Sign) (es : List Expr) :
    Expr.minimalSignsAll write es = es.map (Expr.minimalSigns write) := by
  induction es with
  | nil => rfl
  | cons e es ih => rw [Expr.minimalSignsAll, ih, List.map_cons]

/-- A column, a literal or an operator on others. -/
def Node.IsOperation (write : Value → List Sign) : Node → Prop
  | .expr (.literal v) => v.WrittenAs (write v)
  | .expr (.inList _ items _) => items ≠ []
  | .expr (.column _) | .expr (.binary ..) | .expr (.unary ..) | .expr (.isNull ..) | .expr (.between ..) => True
  | _ => False

namespace Grammar

variable {inner : Nested} {n m : Nat} {s t : List Sign} {e l : Expr} {write : Value → List Sign}

/-- What a level puts behind its first operand, again and again. -/
def stepOf (inner : Nested) (n : Nat) (left : Expr) : Parser (Option Expr) :=
  if n = 3 then comparisonStep inner left else leftAssociative.step (symbolsOf n) (atLevel inner (n - 1)) left

/-- Every level but that of `NOT` grows from the left. -/
theorem atLevel_succ (grows : n ≠ 3) (most : n ≤ 6) :
    atLevel inner (n + 1) = atLevel inner n >>= grow (stepOf inner (n + 1)) := by
  match n with
  | 0 | 1 | 2 | 4 | 5 | 6 => rfl
  | 3 => exact absurd rfl grows
  | n + 7 => omega

theorem stepOf_declines {left : Expr} {sql : String} {rest : List Token} (stops : Stops n rest) :
    stepOf inner n left sql rest = .ok (none, rest) := by
  unfold stepOf
  split
  · next level =>
    subst level
    exact comparisonStep_declines stops
  · exact step_declines ((ofLevel_symbolsOf n).other stops)

/-- The signs are read as an operand of the level above, from which the level goes on growing. -/
def Chains (inner : Nested) (n : Nat) (signs : List Sign) (e : Expr) : Prop :=
  ∀ sql front rest, front.map Token.sign = signs → Stops n rest → ∃ most, rest.length ≤ most ∧
    atLevel inner (n + 1) sql (front ++ rest) = growWithin (stepOf inner (n + 1)) most e sql rest

theorem Chains.of_reads (grows : n ≠ 3) (most : n ≤ 6) (reads : Reads n (atLevel inner n) s (· = e)) :
    Chains inner n s e := by
  intro sql front rest same stops
  obtain ⟨_, run, rfl⟩ := reads sql front rest same stops
  refine ⟨rest.length, Nat.le_refl _, ?_⟩
  simp [atLevel_succ grows most, run, grow]

/-- A chain goes on with an operator and its right side. -/
theorem Chains.step (chains : Chains inner n s l) (starts : ∃ sign more, t = sign :: more ∧ n < sign.level)
    (steps : Reads n (stepOf inner (n + 1) l) t (· = some e)) : Chains inner n (s ++ t) e := by
  obtain ⟨sign, more, rfl, low⟩ := starts
  intro sql front rest same stops
  obtain ⟨front, back, rfl, sameFront, sameBack⟩ := List.map_eq_append_iff.mp same
  obtain ⟨_, run, rfl⟩ := steps sql back rest sameBack stops
  obtain ⟨mark, back, rfl, rfl, _⟩ := List.map_eq_cons_iff.mp sameBack
  -- The level below stops at the operator: this is where its level has to be the higher one.
  obtain ⟨most, bound, grown⟩ := chains sql front (mark :: (back ++ rest)) sameFront (stops_cons low)
  rw [List.length_cons, List.length_append] at bound
  obtain ⟨most, rfl⟩ : ∃ left, most = left + 1 := ⟨most - 1, by omega⟩
  refine ⟨most, by omega, ?_⟩
  rw [List.append_assoc, List.cons_append, grown]
  exact growWithin_step run

/-- A chain ends where nothing of its level goes on with it. -/
theorem Chains.reads (chains : Chains inner n s e) : Reads (n + 1) (atLevel inner (n + 1)) s (· = e) := by
  intro sql front rest same stops
  obtain ⟨most, _, grown⟩ := chains sql front rest same (stops.mono (Nat.le_succ n))
  exact ⟨e, grown.trans (growWithin_stop (stepOf_declines stops) most), rfl⟩

/-- An operator takes its right operand from the level below its own. -/
theorem reads_rightOperand (op : BinaryOp) {left right : Expr} (level : op.level = n + 1)
    (reads : Reads n (atLevel inner n) t (· = right)) :
    Reads n (stepOf inner (n + 1) left) (op.signs ++ t) (· = some (.binary op left right)) := by
  have grouped : op.symbol ∈ symbolsOf (n + 1) → BinaryOp.ofSymbol? op.symbol = some op → n ≠ 2 →
      Reads n (stepOf inner (n + 1) left) (.operator op.symbol :: t) (· = some (.binary op left right)) := by
    intro listed found other
    unfold stepOf
    rw [if_neg (by omega)]
    refine (reads_operator _ listed found reads).imp ?_
    rintro _ ⟨_, rfl, _, rfl, rfl⟩
    rfl
  have compared : n = 2 → op.symbol ∈ comparisonSymbols → BinaryOp.ofSymbol? op.symbol = some op →
      Reads n (stepOf inner (n + 1) left) (.operator op.symbol :: t) (· = some (.binary op left right)) := by
    rintro rfl listed found
    refine (reads_comparisonOp listed found reads).imp ?_
    rintro _ ⟨_, rfl, _, rfl, rfl⟩
    rfl
  have alike : ∀ negated, n = 2 → op = (if negated then .notLike else .like) →
      Reads n (stepOf inner (n + 1) left) (notSigns negated ++ .operator "LIKE" :: t)
        (· = some (.binary op left right)) := by
    rintro negated rfl which
    refine (reads_condition (by decide) (reads_like left which reads)).imp ?_
    rintro _ ⟨_, rfl, _, rfl, rfl⟩
    rfl
  cases op <;> cases level <;>
    first
    | exact grouped (by decide) rfl (by decide)
    | exact compared rfl (by decide) rfl
    | exact alike false rfl rfl
    | exact alike true rfl rfl

end Grammar

theorem BinaryOp.level_eq (op : BinaryOp) : ∃ n, op.level = n + 1 ∧ n ≠ 3 ∧ n ≤ 6 := by
  cases op <;> exact ⟨_, rfl, by decide, by decide⟩

/-- An operator does not belong to a phrase of a level below its own. -/
theorem BinaryOp.signs_start (op : BinaryOp) {n : Nat} (level : op.level = n + 1) (t : List Sign) :
    ∃ sign more, op.signs ++ t = sign :: more ∧ n < sign.level := by
  cases op <;> cases level <;> exact ⟨_, _, rfl, by decide⟩

/-- The expression is read from its minimal signs, and the level it belongs to can go on behind them. -/
structure Expr.ReadsMinimally (write : Value → List Sign) (e : Expr) : Prop where
  opens : OpensExpr (e.minimalSigns write)
  operand : e.level ≤ 3 → OpensOperand (e.minimalSigns write)
  reads : ∀ d, (e.minimalSigns write).length ≤ d →
    Reads e.level (atLevel (Nested.within d) e.level) (e.minimalSigns write) (· = e)
  chains : ∀ d, (e.minimalSigns write).length ≤ d → ∀ n, e.level = n + 1 → n ≠ 3 →
    Chains (Nested.within d) n (e.minimalSigns write) e

namespace Expr.ReadsMinimally

variable {write : Value → List Sign} {e l r : Expr} {d m n : Nat}

theorem whole (reads : e.ReadsMinimally write) (fits : (e.minimalSigns write).length ≤ d) :
    Reads 7 (expression (Nested.within d)) (e.minimalSigns write) (· = e) := by
  refine reads_atLevel (m := 7) (reads.reads d fits) e.level_le (Nat.le_refl 7) fun low => ?_
  obtain ⟨sign, more, starts, _, other⟩ := reads.operand low
  exact ⟨sign, more, starts, other⟩

theorem enclosed (reads : e.ReadsMinimally write) (fits : (enclosedSigns (e.minimalSigns write)).length ≤ d) :
    Reads 0 (Grammar.unary (Nested.within d)) (enclosedSigns (e.minimalSigns write)) (· = e) := by
  simp only [enclosedSigns, List.length_cons, List.length_append] at fits
  obtain ⟨d, rfl⟩ : ∃ left, d = left + 1 := ⟨d - 1, by omega⟩
  have inside : Reads 7 (Nested.within (d + 1)).expr (e.minimalSigns write) (· = e) :=
    reads.whole (d := d) (by omega)
  obtain ⟨sign, more, starts, opens⟩ := reads.opens
  rw [starts] at inside ⊢
  exact reads_paren opens inside

/-- An operand is read at the level of its place. -/
theorem inPlace (reads : e.ReadsMinimally write) (most : m ≤ 7)
    (fits : (e.fitSigns m (e.minimalSigns write)).length ≤ d) :
    Reads m (atLevel (Nested.within d) m) (e.fitSigns m (e.minimalSigns write)) (· = e) := by
  unfold fitSigns at fits ⊢
  split
  · next loose =>
    rw [if_pos loose] at fits
    refine reads_atLevel (reads.reads d fits) loose most fun low => ?_
    obtain ⟨sign, more, starts, _, other⟩ := reads.operand low
    exact ⟨sign, more, starts, other⟩
  · next looser =>
    rw [if_neg looser] at fits
    exact reads_atLevel (n := 0) (reads.enclosed fits) (Nat.zero_le m) most fun _ => ⟨_, _, rfl, by decide⟩

/-- A left operand may belong to the level that goes on behind it. -/
theorem asLeft (reads : e.ReadsMinimally write) (grows : n ≠ 3) (most : n ≤ 6)
    (fits : (e.fitSigns (n + 1) (e.minimalSigns write)).length ≤ d) :
    Chains (Nested.within d) n (e.fitSigns (n + 1) (e.minimalSigns write)) e := by
  by_cases same : e.level = n + 1
  · unfold fitSigns at fits ⊢
    rw [if_pos (Nat.le_of_eq same)] at fits ⊢
    exact reads.chains d fits n same grows
  · have tighter : e.fitSigns (n + 1) (e.minimalSigns write) = e.fitSigns n (e.minimalSigns write) := by
      unfold fitSigns
      exact if_congr (by omega) rfl rfl
    rw [tighter] at fits ⊢
    exact .of_reads grows most (reads.inPlace (by omega) fits)

theorem fitSigns_opens (reads : e.ReadsMinimally write) (m : Nat) :
    OpensExpr (e.fitSigns m (e.minimalSigns write)) := by
  unfold fitSigns
  split
  · exact reads.opens
  · exact ⟨_, _, rfl, rfl⟩

theorem fitSigns_operand (reads : e.ReadsMinimally write) (low : m ≤ 3) :
    OpensOperand (e.fitSigns m (e.minimalSigns write)) := by
  unfold fitSigns
  split
  · next loose => exact reads.operand (Nat.le_trans loose low)
  · exact ⟨_, _, rfl, rfl, by decide⟩

/-- What is read as a chain is read at the level of the chain. -/
theorem of_chains (level : e.level = n + 1) (opens : OpensExpr (e.minimalSigns write))
    (operand : e.level ≤ 3 → OpensOperand (e.minimalSigns write))
    (chains : ∀ d, (e.minimalSigns write).length ≤ d →
      Chains (Nested.within d) n (e.minimalSigns write) e) : e.ReadsMinimally write where
  opens := opens
  operand := operand
  reads d fits := by
    rw [level]
    exact (chains d fits).reads
  chains d fits k same _ := by
    obtain rfl : k = n := by omega
    exact chains d fits

theorem of_tight (level : e.level = 0) (opens : OpensOperand (e.minimalSigns write))
    (reads : ∀ d, (e.minimalSigns write).length ≤ d →
      Reads 0 (Grammar.unary (Nested.within d)) (e.minimalSigns write) (· = e)) : e.ReadsMinimally write where
  opens := opens.expr
  operand _ := opens
  reads d fits := by
    rw [level]
    exact reads d fits
  chains d fits n same _ := by omega

theorem column (c : ColumnRef) : (Expr.column c).ReadsMinimally write :=
  .of_tight rfl ((Expr.column c).signs_operand nofun) fun _ _ => reads_column c

theorem literal {v : Value} (written : v.WrittenAs (write v)) : (Expr.literal v).ReadsMinimally write := by
  have both : OpensOperand (write v) ∧ ∀ d, Reads 0 (Grammar.unary (Nested.within d)) (write v) (· = .literal v) := by
    generalize write v = signs at written
    cases written with
    | null text => exact ⟨⟨_, _, rfl, rfl, by simp [Sign.operator]⟩, fun d => reads_null text⟩
    | bool b => exact ⟨⟨_, _, rfl, rfl, by simp [Sign.operator]⟩, fun d => reads_boolean b⟩
    | str s => exact ⟨⟨_, _, rfl, rfl, by simp [Sign.operator]⟩, fun d => reads_string s⟩
    | number value => exact ⟨⟨_, _, rfl, rfl, by simp [Sign.operator]⟩, fun d => reads_numeric value⟩
    | negative value => exact ⟨⟨_, _, rfl, rfl, by decide⟩, fun d => reads_minusNumeric value⟩
  exact .of_tight rfl both.1 fun d _ => both.2 d

theorem binary (op : BinaryOp) (left : l.ReadsMinimally write) (right : r.ReadsMinimally write) :
    (Expr.binary op l r).ReadsMinimally write := by
  obtain ⟨n, level, grows, most⟩ := op.level_eq
  refine .of_chains (n := n) level ((left.fitSigns_opens _).append _)
    (fun low => (left.fitSigns_operand low).append _) fun d fits => ?_
  rw [minimalSigns, level, Nat.add_sub_cancel] at fits ⊢
  simp only [List.length_append] at fits
  have first := left.asLeft (d := d) grows most (by omega)
  have second := right.inPlace (m := n) (d := d) (by omega) (by omega)
  exact first.step (op.signs_start level _) (reads_rightOperand op level second)

theorem not (reads : e.ReadsMinimally write) : (Expr.unary .not e).ReadsMinimally write where
  opens := ⟨_, _, rfl, rfl⟩
  operand low := by simp [level] at low
  reads d fits := by
    simp only [minimalSigns, List.length_cons] at fits ⊢
    refine (reads_not (reads.inPlace (m := 4) (by decide) (by omega))).imp ?_
    rintro _ ⟨_, rfl, rfl⟩
    rfl
  chains d fits n same grows := absurd (Nat.succ.inj same).symm grows

/-- A number behind a minus is in parentheses, so that it keeps the minus apart. -/
theorem negate (reads : e.ReadsMinimally write) : (Expr.unary .negate e).ReadsMinimally write := by
  refine .of_tight rfl ⟨_, _, rfl, rfl, by decide⟩ fun d fits => ?_
  simp only [minimalSigns, List.length_cons] at fits ⊢
  have read : Reads 0 (Grammar.unary (Nested.within d)) (.operator "-" :: e.negatedSigns (e.minimalSigns write))
      fun a => ∃ e', e' = e ∧ a = .unary .negate e' := by
    unfold negatedSigns at fits ⊢
    split
    · next numeric =>
      rw [if_pos numeric] at fits
      exact reads_negate (reads.enclosed (by omega)) (by decide)
    · next other =>
      rw [if_neg other] at fits
      have inside := reads.inPlace (m := 0) (d := d) (by decide) (by omega)
      unfold fitSigns at inside ⊢
      split
      · next tight =>
        obtain ⟨sign, more, starts, _⟩ := reads.opens
        rw [if_pos tight, starts] at inside
        rw [starts] at other ⊢
        exact reads_negate inside (by simpa using other)
      · next loose =>
        rw [if_neg loose] at inside
        exact reads_negate inside (by decide)
  refine read.imp ?_
  rintro _ ⟨_, rfl, rfl⟩
  rfl

/-- A comparison goes on behind its operand, which may be one itself. -/
theorem compared {a : Expr} {t : List Sign} (reads : e.ReadsMinimally write) (level : a.level = 3)
    (signs : a.minimalSigns write = e.fitSigns 3 (e.minimalSigns write) ++ t)
    (starts : ∃ sign more, t = sign :: more ∧ 2 < sign.level)
    (steps : ∀ d, t.length ≤ d → Reads 2 (comparisonStep (Nested.within d) e) t (· = some a)) :
    a.ReadsMinimally write := by
  have opens : OpensOperand (a.minimalSigns write) := by
    rw [signs]
    exact (reads.fitSigns_operand (Nat.le_refl 3)).append t
  refine .of_chains (n := 2) level opens.expr (fun _ => opens) fun d fits => ?_
  rw [signs, List.length_append] at fits
  rw [signs]
  have left : Chains (Nested.within d) 2 (e.fitSigns 3 (e.minimalSigns write)) e :=
    reads.asLeft (by decide) (by decide) (show (e.fitSigns 3 (e.minimalSigns write)).length ≤ d by omega)
  exact left.step starts (steps d (by omega))

theorem isNull (negated : Bool) (reads : e.ReadsMinimally write) : (Expr.isNull e negated).ReadsMinimally write := by
  refine reads.compared rfl rfl ⟨_, _, rfl, by decide⟩ fun d _ => reads_isNull.imp ?_
  rintro _ ⟨_, rfl, rfl⟩
  rfl

theorem eq_of_forall₂ {es as : List Expr} (same : List.Forall₂ (fun e a => a = e) es as) : as = es := by
  induction same with
  | nil => rfl
  | cons first _ ih => rw [first, ih]

theorem inList {items : List Expr} (negated : Bool) (some : items ≠ []) (reads : e.ReadsMinimally write)
    (each : ∀ i ∈ items, i.ReadsMinimally write) : (Expr.inList e items negated).ReadsMinimally write := by
  refine reads.compared rfl rfl (condition_starts (by decide)) fun d fits => ?_
  rw [minimalSignsAll_eq] at fits ⊢
  simp only [enclosedSigns, List.length_cons, List.length_append] at fits
  obtain ⟨d, rfl⟩ : ∃ left, d = left + 1 := ⟨d - 1, by omega⟩
  have inside : ∀ i ∈ items, Reads 7 (Nested.within (d + 1)).expr (i.minimalSigns write) fun a => a = i := by
    intro i listed
    have size := length_commaSigns (List.mem_map_of_mem (f := Expr.minimalSigns write) listed)
    exact (each i listed).whole (d := d) (by omega)
  refine (reads_condition (by decide) (reads_in (reads_inList some inside fun i listed => (each i listed).opens))).imp ?_
  rintro _ ⟨_, rfl, as, same, rfl⟩
  rw [eq_of_forall₂ same]

theorem between {low high : Expr} (negated : Bool) (reads : e.ReadsMinimally write)
    (readsLow : low.ReadsMinimally write) (readsHigh : high.ReadsMinimally write) :
    (Expr.between e low high negated).ReadsMinimally write := by
  refine reads.compared rfl rfl (condition_starts (by decide)) fun d fits => ?_
  simp only [List.length_cons, List.length_append] at fits
  have lowest := readsLow.inPlace (m := 2) (d := d) (by decide) (by omega)
  have highest := readsHigh.inPlace (m := 2) (d := d) (by decide) (by omega)
  refine (reads_condition (by decide) (reads_between lowest highest)).imp ?_
  rintro _ ⟨_, rfl, _, _, rfl, rfl, rfl⟩
  rfl

end Expr.ReadsMinimally

mutual

/-- An expression of columns, literals and operators is read from its minimal signs. -/
theorem Expr.readsMinimally {write : Value → List Sign} (e : Expr)
    (operations : ∀ n ∈ e.nodes, n.IsOperation write) : e.ReadsMinimally write := by
  match e, operations with
  | .column c, _ => exact .column c
  | .literal v, operations => exact .literal (operations _ (Expr.mem_nodes _))
  | .binary op l r, operations =>
    simp only [Expr.nodes, List.forall_mem_cons, List.forall_mem_append] at operations
    exact .binary op (l.readsMinimally operations.2.1) (r.readsMinimally operations.2.2)
  | .unary .not e, operations =>
    simp only [Expr.nodes, List.forall_mem_cons] at operations
    exact .not (e.readsMinimally operations.2)
  | .unary .negate e, operations =>
    simp only [Expr.nodes, List.forall_mem_cons] at operations
    exact .negate (e.readsMinimally operations.2)
  | .isNull e negated, operations =>
    simp only [Expr.nodes, List.forall_mem_cons] at operations
    exact .isNull negated (e.readsMinimally operations.2)
  | .inList e items negated, operations =>
    simp only [Expr.nodes, List.forall_mem_cons, List.forall_mem_append] at operations
    exact .inList negated operations.1 (e.readsMinimally operations.2.1)
      (Expr.allReadMinimally items operations.2.2)
  | .between e low high negated, operations =>
    simp only [Expr.nodes, List.forall_mem_cons, List.forall_mem_append] at operations
    exact .between negated (e.readsMinimally operations.2.1) (low.readsMinimally operations.2.2.1)
      (high.readsMinimally operations.2.2.2)
  | .call .., operations | .inQuery .., operations | .subquery _, operations | .star _, operations =>
    exact (operations _ (Expr.mem_nodes _)).elim

theorem Expr.allReadMinimally {write : Value → List Sign} (es : List Expr)
    (operations : ∀ n ∈ Expr.nodesAll es, n.IsOperation write) : ∀ e ∈ es, e.ReadsMinimally write := by
  match es, operations with
  | [], _ => exact nofun
  | e :: es, operations =>
    simp only [Expr.nodesAll, List.forall_mem_append] at operations
    exact List.forall_mem_cons.mpr ⟨e.readsMinimally operations.1, Expr.allReadMinimally es operations.2⟩

end

/-- An expression of columns, literals and operators is read from its tokens with the fewest parentheses,
up to where an expression stops: from the loosest level to the tightest, the operators are `OR`, `XOR`,
`AND`, `NOT`, comparisons, sums, products and the minus, and all that take two operands group from the left. -/
theorem Expr.read_minimal {write : Value → List Sign} {e : Expr} (operations : ∀ n ∈ e.nodes, n.IsOperation write)
    {sql : String} {tokens rest : List Token} (written : tokens.map Token.sign = e.minimalSigns write)
    (stops : Stops 7 rest) : Parser.runOn Grammar.expression sql (tokens ++ rest) = .ok (e, rest) := by
  have size : (e.minimalSigns write).length ≤ (tokens ++ rest).length := by
    rw [← written, List.length_map, List.length_append]
    omega
  obtain ⟨_, run, rfl⟩ := (e.readsMinimally operations).whole size sql tokens rest written stops
  exact run

/-- `NOT A - (B - -1) * -(2) IN (C, D OR E) IS NULL XOR F BETWEEN 'g' AND H = I` -/
def mixed : Expr :=
  let column (name : String) : Expr := .column ⟨none, name⟩
  .binary .xor
    (.unary .not (.isNull
      (.inList
        (.binary .subtract (column "A") (.binary .multiply
          (.binary .subtract (column "B") (.literal (.int (-1)))) (.unary .negate (.literal (.int 2)))))
        [column "C", .binary .or (column "D") (column "E")] false)
      false))
    (.binary .equal (.between (column "F") (.literal (.str "g")) (column "H") false) (column "I"))

theorem mixed_read_minimal : ∃ tokens,
    Token.ofText "NOT A - (B - -1) * -(2) IN (C, D OR E) IS NULL XOR F BETWEEN 'g' AND H = I" = .ok tokens ∧
      Parser.runOn Grammar.expression "" tokens = .ok (mixed, []) := by
  have operations : ∀ n ∈ mixed.nodes, n.IsOperation Value.signs := by
    have minusOne : Value.WrittenAs (.int (-1)) (Value.signs (.int (-1))) := @Value.WrittenAs.negative _ "1" rfl
    have two : Value.WrittenAs (.int 2) (Value.signs (.int 2)) := .number rfl
    have text : Value.WrittenAs (.str "g") (Value.signs (.str "g")) := .str "g"
    simp [mixed, Expr.nodes, Expr.nodesAll, Node.IsOperation, minusOne, two, text]
  have checked : (match Token.ofText "NOT A - (B - -1) * -(2) IN (C, D OR E) IS NULL XOR F BETWEEN 'g' AND H = I" with
      | .ok tokens => tokens.map Token.sign == mixed.minimalSigns Value.signs
      | .error _ => false) = true := by decide +kernel
  split at checked
  · next tokens cut =>
    have read : Parser.runOn Grammar.expression "" (tokens ++ []) = .ok (mixed, []) :=
      Expr.read_minimal operations (eq_of_beq checked) nofun
    rw [List.append_nil] at read
    exact ⟨tokens, cut, read⟩
  · cases checked

end MiniSql
