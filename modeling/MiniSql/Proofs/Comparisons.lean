import Mathlib.Tactic.ByContra
import MiniSql.Proofs.Calls
import MiniSql.Proofs.Reading

namespace MiniSql.Grammar

open MiniSql.Parser

variable {inner : Nested} {next : Parser Expr} {symbols : List String} {s t : List Sign}
  {P Q : Expr → Prop} {n : Nat}

theorem step_declines {left : Expr} {sql : String} {rest : List Token}
    (other : ∀ t ∈ rest.head?, ¬(t.kind = .operator ∧ t.value ∈ symbols)) :
    leftAssociative.step symbols next left sql rest = .ok (none, rest) := by
  cases rest with
  | nil => rfl
  | cons t rest =>
    have noOperator := other t rfl
    cases found : BinaryOp.ofSymbol? t.value with
    | none => simp [leftAssociative.step, found]
    | some op => simp [leftAssociative.step, found, noOperator]

theorem step_takes {left : Expr} {sql : String} {t : Token} {rest : List Token} {op : BinaryOp}
    (same : t.sign = .operator op.symbol) (listed : op.symbol ∈ symbols)
    (found : BinaryOp.ofSymbol? op.symbol = some op) :
    leftAssociative.step symbols next left sql (t :: rest) =
      (next >>= fun right => pure (some (.binary op left right))) sql rest := by
  simp only [Token.sign, Sign.operator, Sign.mk.injEq] at same
  simp [leftAssociative.step, same, found, listed]

/-- An operator and its right operand. -/
theorem reads_operator {op : BinaryOp} (left : Expr) (listed : op.symbol ∈ symbols)
    (found : BinaryOp.ofSymbol? op.symbol = some op) (right : Reads n next t Q) :
    Reads n (leftAssociative.step symbols next left) (.operator op.symbol :: t)
      fun o => ∃ e, o = some e ∧ ∃ r, Q r ∧ e = .binary op left r := by
  intro sql front rest same stops
  obtain ⟨mark, back, rfl, sameMark, sameBack⟩ := List.map_eq_cons_iff.mp same
  obtain ⟨r, run, holds⟩ := right sql back rest sameBack stops
  refine ⟨some (.binary op left r), ?_, _, rfl, r, holds, rfl⟩
  rw [List.cons_append, step_takes sameMark listed found]
  simp only [bind_apply, run, pure_apply]

/-- The symbols are those of one level of operators. -/
def OfLevel (n : Nat) (symbols : List String) : Prop :=
  ∀ symbol ∈ symbols, Sign.operatorLevel symbol = n

theorem OfLevel.other (level : OfLevel n symbols) {rest : List Token} (stops : Stops n rest) :
    ∀ t ∈ rest.head?, ¬(t.kind = .operator ∧ t.value ∈ symbols) := by
  rintro t first ⟨kind, listed⟩
  have above := stops t first
  simp only [Sign.level, Token.sign, kind] at above
  rw [level _ listed] at above
  omega

theorem reads_leftAssociative (level : OfLevel (n + 1) symbols) (reads : Reads n next s P) :
    Reads (n + 1) (leftAssociative symbols next) s P := by
  intro sql front rest same stops
  obtain ⟨a, run, holds⟩ := reads sql front rest same (stops.mono (Nat.le_succ n))
  refine ⟨a, ?_, holds⟩
  have declines : leftAssociative.step symbols next a sql rest = .ok (none, rest) :=
    step_declines (level.other stops)
  simp [leftAssociative, run, grow_stop declines]

/-- Two operands with an operator of the level between them. -/
theorem reads_binary {op : BinaryOp} (level : OfLevel (n + 1) symbols) (listed : op.symbol ∈ symbols)
    (found : BinaryOp.ofSymbol? op.symbol = some op) (left : Reads n next s P) (right : Reads n next t Q) :
    Reads (n + 1) (leftAssociative symbols next) (s ++ .operator op.symbol :: t)
      fun e => ∃ l r, P l ∧ Q r ∧ e = .binary op l r := by
  intro sql front rest same stops
  obtain ⟨front, back, rfl, sameLeft, sameBack⟩ := List.map_eq_append_iff.mp same
  obtain ⟨mark, back, rfl, sameMark, sameRight⟩ := List.map_eq_cons_iff.mp sameBack
  have ended : Stops n (mark :: (back ++ rest)) := by
    refine stops_cons ?_
    rw [sameMark]
    have same : (Sign.operator op.symbol).level = n + 1 := level _ listed
    omega
  obtain ⟨l, runLeft, holdsLeft⟩ := left sql front _ sameLeft ended
  obtain ⟨r, runRight, holdsRight⟩ := right sql back rest sameRight (stops.mono (Nat.le_succ n))
  have taken : leftAssociative.step symbols next l sql (mark :: (back ++ rest)) =
      .ok (some (.binary op l r), rest) := by
    rw [step_takes sameMark listed found]
    simp [runRight]
  have declines : leftAssociative.step symbols next (.binary op l r) sql rest = .ok (none, rest) :=
    step_declines (level.other stops)
  refine ⟨.binary op l r, ?_, l, r, holdsLeft, holdsRight, rfl⟩
  simp only [List.append_assoc, List.cons_append, leftAssociative, bind_apply, runLeft]
  exact grow_once (by simp) taken declines

/-- The parser of the phrases whose operators are at most of a level. -/
def atLevel (inner : Nested) : Nat → Parser Expr
  | 0 => unary inner
  | 1 => multiplicative inner
  | 2 => additive inner
  | 3 => comparison inner
  | 4 => negation inner
  | 5 => leftAssociative ["AND", "&&"] (negation inner)
  | 6 => leftAssociative ["XOR"] (leftAssociative ["AND", "&&"] (negation inner))
  | _ => expression inner

/-- The operators that group from the left at each level. -/
def symbolsOf : Nat → List String
  | 1 => ["*", "/", "DIV", "%", "MOD"]
  | 2 => ["+", "-"]
  | 5 => ["AND", "&&"]
  | 6 => ["XOR"]
  | 7 => ["OR", "||"]
  | _ => []

theorem ofLevel_symbolsOf (n : Nat) : OfLevel n (symbolsOf n) := by
  unfold OfLevel
  match n with
  | 1 | 2 | 5 | 6 | 7 => decide
  | 0 | 3 | 4 | _ + 8 => simp [symbolsOf]

theorem comparisonStep_declines {left : Expr} {sql : String} {rest : List Token} (stops : Stops 3 rest) :
    comparisonStep inner left sql rest = .ok (none, rest) := by
  have level : OfLevel 3 comparisonSymbols := by unfold OfLevel; decide
  have declines : leftAssociative.step comparisonSymbols (additive inner) left sql rest = .ok (none, rest) :=
    step_declines (level.other stops)
  have no : ∀ symbol, Sign.operatorLevel symbol = 3 →
      rest.head?.any (fun t => t.isOperator symbol) = false := by
    intro symbol low
    refine stops.none_passes fun t passes => ?_
    simp only [Token.isOperator, Token.isKind, Bool.and_eq_true, decide_eq_true_eq] at passes
    simp [Sign.level, Token.sign, passes, low]
  have noIs := no "IS" (by decide)
  have noNot := no "NOT" (by decide)
  have noLike := no "LIKE" (by decide)
  have noIn := no "IN" (by decide)
  have noBetween := no "BETWEEN" (by decide)
  simp [comparisonStep, condition, declines, noIs, noNot, noLike, noIn, noBetween]

theorem reads_comparison (reads : Reads 2 (additive inner) s P) : Reads 3 (comparison inner) s P := by
  intro sql front rest same stops
  obtain ⟨a, run, holds⟩ := reads sql front rest same (stops.mono (by decide))
  refine ⟨a, ?_, holds⟩
  simp [comparison, run, grow_stop (comparisonStep_declines stops)]

theorem reads_negation {sign : Sign} (reads : Reads 3 (comparison inner) (sign :: s) P)
    (other : sign ≠ .operator "NOT") : Reads 4 (negation inner) (sign :: s) P := by
  intro sql front rest same stops
  obtain ⟨a, run, holds⟩ := reads sql front rest same (stops.mono (by decide))
  obtain ⟨t, front, rfl, sameFirst, _⟩ := List.map_eq_cons_iff.mp same
  have noNot : t.isOperator "NOT" = false := by
    by_contra passes
    simp only [Token.isOperator, Token.isKind, Bool.not_eq_false, Bool.and_eq_true, decide_eq_true_eq] at passes
    exact other (by rw [← sameFirst, Token.sign, passes.1, passes.2]; rfl)
  refine ⟨a, ?_, holds⟩
  simp only [List.cons_append, negation, negationFrom, noNot] at run ⊢
  exact run

theorem reads_not (reads : Reads 4 (negation inner) s P) :
    Reads 4 (negation inner) (.operator "NOT" :: s) fun e => ∃ a, P a ∧ e = .unary .not a := by
  intro sql front rest same stops
  obtain ⟨t, front, rfl, sameFirst, sameRest⟩ := List.map_eq_cons_iff.mp same
  obtain ⟨a, run, holds⟩ := reads sql front rest sameRest stops
  have isNot : t.isOperator "NOT" = true := by
    simp only [Token.sign, Sign.operator, Sign.mk.injEq] at sameFirst
    simp [Token.isOperator, Token.isKind, sameFirst]
  refine ⟨.unary .not a, ?_, a, holds, rfl⟩
  simp only [negation] at run
  simp [negation, negationFrom, isNot, run, Except.map]

/-- What a tight level reads is read by every looser one. -/
theorem reads_atLevel {m : Nat} (reads : Reads n (atLevel inner n) s P) (loose : n ≤ m) (most : m ≤ 7)
    (starts : n ≤ 3 → ∃ sign more, s = sign :: more ∧ sign ≠ .operator "NOT") :
    Reads m (atLevel inner m) s P := by
  induction loose with
  | refl => exact reads
  | @step m loose ih =>
    have tighter := ih (by omega)
    match m with
    | 0 => exact reads_leftAssociative (ofLevel_symbolsOf 1) tighter
    | 1 => exact reads_leftAssociative (ofLevel_symbolsOf 2) tighter
    | 2 => exact reads_comparison tighter
    | 3 =>
      obtain ⟨sign, more, rfl, other⟩ := starts loose
      exact reads_negation tighter other
    | 4 => exact reads_leftAssociative (ofLevel_symbolsOf 5) tighter
    | 5 => exact reads_leftAssociative (ofLevel_symbolsOf 6) tighter
    | 6 => exact reads_leftAssociative (ofLevel_symbolsOf 7) tighter
    | m + 7 => omega

end MiniSql.Grammar

namespace MiniSql.Grammar

open MiniSql.Parser

variable {inner : Nested} {s t : List Sign} {P Q : Expr → Prop} {left : Expr} {negated : Bool}

/-- A comparison goes on with one step. -/
theorem reads_compared {R : Expr → Prop} (operand : Reads 2 (additive inner) s P)
    (starts : ∃ sign more, t = sign :: more ∧ 2 < sign.level)
    (steps : ∀ a, P a → Reads 2 (comparisonStep inner a) t fun o => ∃ e, o = some e ∧ R e) :
    Reads 3 (comparison inner) (s ++ t) R := by
  obtain ⟨sign, more, rfl, low⟩ := starts
  intro sql front rest same stops
  obtain ⟨front, back, rfl, sameFront, sameBack⟩ := List.map_eq_append_iff.mp same
  have ended : Stops 2 (back ++ rest) := by
    obtain ⟨mark, back, rfl, rfl, _⟩ := List.map_eq_cons_iff.mp sameBack
    exact stops_cons low
  obtain ⟨a, run, holds⟩ := operand sql front (back ++ rest) sameFront ended
  obtain ⟨o, step, e, rfl, final⟩ := steps a holds sql back rest sameBack (stops.mono (by decide))
  have some : back ++ rest ≠ [] := by
    rintro none
    rw [List.append_eq_nil_iff] at none
    simp [none.1] at sameBack
  refine ⟨e, ?_, final⟩
  rw [List.append_assoc]
  simp only [comparison, bind_apply, run]
  exact grow_once some step (comparisonStep_declines stops)

/-- A comparison with `LIKE`, `IN` or `BETWEEN`, perhaps after a `NOT`, ends a sum. -/
theorem condition_starts {word : String} (listed : word ∈ ["LIKE", "IN", "BETWEEN"]) :
    ∃ sign more, notSigns negated ++ .operator word :: t = sign :: more ∧ 2 < sign.level := by
  have levels : ∀ word ∈ ["LIKE", "IN", "BETWEEN"], 2 < (Sign.operator word).level := by decide
  cases negated with
  | false => exact ⟨_, _, rfl, levels word listed⟩
  | true => exact ⟨_, _, rfl, by decide⟩

theorem reads_comparisonOp {op : BinaryOp} (listed : op.symbol ∈ comparisonSymbols)
    (found : BinaryOp.ofSymbol? op.symbol = some op) (right : Reads 2 (additive inner) t Q) :
    Reads 2 (comparisonStep inner left) (.operator op.symbol :: t)
      fun o => ∃ e, o = some e ∧ ∃ r, Q r ∧ e = .binary op left r := by
  intro sql front rest same stops
  obtain ⟨_, taken, e, rfl, known⟩ := reads_operator left listed found right sql front rest same stops
  refine ⟨some e, ?_, e, rfl, known⟩
  simp [comparisonStep, taken]

/-- No comparison symbol comes next. -/
theorem step_word (inner : Nested) (left : Expr) (sql : String) (rest : List Token) {t : Token} {word : String}
    (same : t.sign = .operator word) (other : word ∉ comparisonSymbols) :
    leftAssociative.step comparisonSymbols (additive inner) left sql (t :: rest) = .ok (none, t :: rest) := by
  refine step_declines ?_
  rintro u ⟨⟩ ⟨_, listed⟩
  simp only [Token.sign, Sign.operator, Sign.mk.injEq] at same
  exact other (same.2 ▸ listed)

theorem reads_isNull :
    Reads 2 (comparisonStep inner left) (.operator "IS" :: (notSigns negated ++ [⟨.null, "NULL"⟩]))
      fun o => ∃ e, o = some e ∧ e = .isNull left negated := by
  intro sql front rest same _
  obtain ⟨mark, back, rfl, sameMark, sameBack⟩ := List.map_eq_cons_iff.mp same
  have declines := step_word inner left sql (back ++ rest) sameMark
    (by decide)
  simp only [Token.sign, Sign.operator, Sign.mk.injEq] at sameMark
  refine ⟨some (.isNull left negated), ?_, _, rfl, rfl⟩
  cases negated with
  | true =>
    obtain ⟨noMark, back, rfl, sameNot, sameBack⟩ := List.map_eq_cons_iff.mp sameBack
    obtain ⟨null, rfl, sameNull⟩ := List.map_eq_singleton_iff.mp sameBack
    simp only [Token.sign, Sign.operator, Sign.mk.injEq] at sameNot sameNull
    simp only [List.cons_append, List.nil_append] at declines ⊢
    simp [comparisonStep, declines, Token.isOperator, Token.isKind, sameMark, sameNot, sameNull]
  | false =>
    obtain ⟨null, rfl, sameNull⟩ := List.map_eq_singleton_iff.mp sameBack
    simp only [Token.sign, Sign.mk.injEq] at sameNull
    simp only [List.cons_append, List.nil_append] at declines ⊢
    simp [comparisonStep, declines, Token.isOperator, Token.isKind, sameMark, sameNull]

/-- `LIKE`, `IN` or `BETWEEN`, perhaps after a `NOT`. -/
theorem reads_condition {word : String} {R : Option Expr → Prop} (listed : word ∈ ["LIKE", "IN", "BETWEEN"])
    (reads : Reads 2 (condition inner left negated) (.operator word :: t) R) :
    Reads 2 (comparisonStep inner left) (notSigns negated ++ .operator word :: t) R := by
  intro sql front rest same stops
  have words : ∀ word ∈ ["LIKE", "IN", "BETWEEN"],
      word ∉ comparisonSymbols ∧ word ≠ "IS" ∧ word ≠ "NOT" := by decide
  have other := words word listed
  cases negated with
  | true =>
    obtain ⟨noMark, back, rfl, sameNot, sameBack⟩ := List.map_eq_cons_iff.mp same
    obtain ⟨o, run, holds⟩ := reads sql back rest sameBack stops
    have declines := step_word inner left sql (back ++ rest) sameNot
      (by decide)
    obtain ⟨mark, back, rfl, sameMark, _⟩ := List.map_eq_cons_iff.mp sameBack
    simp only [Token.sign, Sign.operator, Sign.mk.injEq] at sameNot sameMark
    have continues : continuesNot mark = true := by
      simp [continuesNot, Token.isOperator, Token.isKind, sameMark]
      simpa [or_assoc] using listed
    refine ⟨o, ?_, holds⟩
    simp only [List.cons_append] at declines run ⊢
    simp [comparisonStep, declines, Token.isOperator, Token.isKind, sameNot, continues, run]
  | false =>
    obtain ⟨o, run, holds⟩ := reads sql front rest same stops
    obtain ⟨mark, back, rfl, sameMark, _⟩ := List.map_eq_cons_iff.mp same
    have declines := step_word inner left sql (back ++ rest) sameMark
      other.1
    simp only [Token.sign, Sign.operator, Sign.mk.injEq] at sameMark
    refine ⟨o, ?_, holds⟩
    simp only [List.cons_append] at declines run ⊢
    simp [comparisonStep, declines, Token.isOperator, Token.isKind, sameMark, other, run]

theorem reads_like (left : Expr) {op : BinaryOp} (which : op = if negated then .notLike else .like)
    (right : Reads 2 (additive inner) t Q) :
    Reads 2 (condition inner left negated) (.operator "LIKE" :: t)
      fun o => ∃ e, o = some e ∧ ∃ r, Q r ∧ e = .binary op left r := by
  intro sql front rest same stops
  obtain ⟨mark, back, rfl, sameMark, sameBack⟩ := List.map_eq_cons_iff.mp same
  obtain ⟨r, run, holds⟩ := right sql back rest sameBack stops
  simp only [Token.sign, Sign.operator, Sign.mk.injEq] at sameMark
  refine ⟨some (.binary op left r), ?_, _, rfl, r, holds, rfl⟩
  simp [condition, Token.isOperator, Token.isKind, sameMark, run, which]

theorem reads_between {u : List Sign} {R : Expr → Prop} (low : Reads 2 (additive inner) t Q)
    (high : Reads 2 (additive inner) u R) :
    Reads 2 (condition inner left negated) (.operator "BETWEEN" :: (t ++ .operator "AND" :: u))
      fun o => ∃ e, o = some e ∧ ∃ l h, Q l ∧ R h ∧ e = .between left l h negated := by
  intro sql front rest same stops
  obtain ⟨mark, back, rfl, sameMark, sameBack⟩ := List.map_eq_cons_iff.mp same
  obtain ⟨front, back, rfl, sameFront, sameBack⟩ := List.map_eq_append_iff.mp sameBack
  obtain ⟨conjunction, back, rfl, sameAnd, sameBack⟩ := List.map_eq_cons_iff.mp sameBack
  have ended : Stops 2 (conjunction :: (back ++ rest)) := stops_cons (by rw [sameAnd]; decide)
  obtain ⟨l, runLow, holdsLow⟩ := low sql front _ sameFront ended
  obtain ⟨h, runHigh, holdsHigh⟩ := high sql back rest sameBack stops
  have expected : expect .operator "AND" sql (conjunction :: (back ++ rest)) = .ok ((), back ++ rest) :=
    expect_apply sameAnd
  simp only [Token.sign, Sign.operator, Sign.mk.injEq] at sameMark
  refine ⟨some (.between left l h negated), ?_, _, rfl, l, h, holdsLow, holdsHigh, rfl⟩
  simp [condition, Token.isOperator, Token.isKind, sameMark, runLow, expected, runHigh]

/-- What follows `IN` is a SELECT or a list. -/
theorem reads_in {R : Expr → Prop} (reads : Reads 2 (membership inner left negated) t R) :
    Reads 2 (condition inner left negated) (.operator "IN" :: t) fun o => ∃ e, o = some e ∧ R e := by
  intro sql front rest same stops
  obtain ⟨mark, back, rfl, sameMark, sameBack⟩ := List.map_eq_cons_iff.mp same
  obtain ⟨e, run, holds⟩ := reads sql back rest sameBack stops
  simp only [Token.sign, Sign.operator, Sign.mk.injEq] at sameMark
  refine ⟨some e, ?_, e, rfl, holds⟩
  simp [condition, Token.isOperator, Token.isKind, sameMark, run]

theorem reads_inQuery {R : Select → Prop} (balanced : Balanced (.clause .select :: s))
    (reads : TakesAll inner.select (.clause .select :: s) R) :
    Reads 2 (membership inner left negated) (enclosedSigns (.clause .select :: s))
      fun e => ∃ q, R q ∧ e = .inQuery left q negated := by
  intro sql front rest same _
  obtain ⟨opened, t, back, q, rfl, sameOpen, select, run, holds⟩ := takes_query balanced reads sql rest same
  refine ⟨.inQuery left q negated, ?_, q, holds, rfl⟩
  simp [membership, isOpen_sign sameOpen, select, run]

theorem reads_inList {β : Type} {xs : List β} {signs : β → List Sign} {R : β → Expr → Prop} (some : xs ≠ [])
    (each : ∀ x ∈ xs, Reads 7 inner.expr (signs x) (R x))
    (opens : ∀ x ∈ xs, OpensExpr (signs x)) :
    Reads 2 (membership inner left negated) (enclosedSigns (commaSigns (xs.map signs)))
      fun e => ∃ as, List.Forall₂ R xs as ∧ e = .inList left as negated := by
  intro sql front rest same stops
  obtain ⟨opened, back, rfl, sameOpen, sameBack⟩ := List.map_eq_cons_iff.mp same
  obtain ⟨as, run, all⟩ := reads_arguments (n := 2) each opens sql back rest sameBack stops
  obtain ⟨sign, more, starts, opensFirst⟩ := entries_opens opens some
  rw [starts] at sameBack
  obtain ⟨t, back, rfl, rfl, _⟩ := List.map_eq_cons_iff.mp sameBack
  refine ⟨.inList left as negated, ?_, as, all, rfl⟩
  simp only [List.cons_append] at run ⊢
  simp [membership, isOpen_sign sameOpen, opensExpr_other opensFirst, run]
  cases all with
  | nil => exact absurd rfl some
  | cons => rfl

end MiniSql.Grammar
