import MiniSql.Grammar.Expression
import MiniSql.Proofs.Rereading

namespace MiniSql

open MiniSql.Parser

/-- What `inner` reads inside parentheses, `outer` reads there where no more than `m` tokens are taken. A SELECT
takes all tokens there are, so that these have to stay. -/
structure Nested.RereadBy (leeway : Leeway) (m : Nat) (inner outer : Nested) : Prop where
  expr : Rereads leeway m (fun _ => 1) inner.expr outer.expr
  select : Rereads .none m (fun _ => 1) inner.select outer.select

namespace Grammar

variable {leeway : Leeway} {m : Nat} {inner outer : Nested} {sql : String} {t : Token} {tokens left : List Token}

theorem least_le {α : Type} (a : α) : (fun _ : α => 0) a ≤ 1 :=
  Nat.zero_le 1

theorem one_le_one {α : Type} (a : α) : (fun _ : α => 1) a ≤ 1 :=
  Nat.le_refl 1

theorem rereads_number (text : String) : Rereads leeway m (fun _ => 0) (number text) (number text) := by
  have value : Rereads leeway m (fun _ => 0) (number.liftExcept (numberValue text))
      (number.liftExcept (numberValue text)) := by
    unfold number.liftExcept
    split
    · exact .pure rfl
    · intro sql tokens a left run
      cases run
  exact value.bind fun v => .pure rfl

theorem rereads_arguments (more : inner.RereadBy leeway m outer) :
    Rereads leeway m (fun _ => 1) (arguments inner) (arguments outer) := by
  refine Rereads.eat .isClose one_le_one (.pure rfl) ?_
  exact more.expr.entries.andThen one_le_one fun args => Rereads.expect.weaken.bind fun _ => .pure rfl

theorem rereads_subquery (more : inner.RereadBy leeway m outer) (f : Select → Expr) :
    Rereads leeway m (fun _ => 1) (enclosed inner.select >>= fun q => pure (f q))
      (enclosed outer.select >>= fun q => pure (f q)) :=
  (Rereads.enclosed more.select.weaken).andThen one_le_one fun _ => .pure rfl

theorem rereads_functionCall (more : inner.RereadBy leeway m outer) (name : String) :
    Rereads leeway (m + 1) (fun _ => 1) (functionCall inner name) (functionCall outer name) := by
  refine Rereads.expect.enter one_le_one fun _ => (Rereads.nextIs_then (fun t _ => ?_) ?_).weaken
  · exact (rereads_subquery more fun q => .call (Text.toUpper name) [.subquery q] false).rereadsFrom
  · refine (Rereads.mark (.isReserved "DISTINCT")).bind fun distinct => ?_
    refine (rereads_arguments more).andThen one_le_one fun args => ?_
    split
    · exact .fault
    · exact .pure rfl

theorem rereads_named (more : inner.RereadBy leeway m outer) (name : String) :
    Rereads leeway (m + 1) (fun _ => 0) (named inner name) (named outer name) := by
  refine Rereads.nextIs .isOpen least_le (fun t _ => (rereads_functionCall more name).rereadsFrom) ?_
  refine Rereads.eat .isPoint least_le (Rereads.peek .fault least_le fun t => ?_) (.pure rfl)
  dsimp only
  split
  · exact .advance_pure (Nat.le_refl 1)
  · split
    · exact .advance_pure (Nat.le_refl 1)
    · exact .fault

theorem rereads_parenthesized (more : inner.RereadBy leeway m outer) : Rereads leeway m (fun _ => 1) (do
    if ← nextIs opensSelect then
      return .subquery (← enclosed inner.select)
    else
      let e ← inner.expr
      expect .paren ")"
      return e) (do
    if ← nextIs opensSelect then
      return .subquery (← enclosed outer.select)
    else
      let e ← outer.expr
      expect .paren ")"
      return e) := by
  refine Rereads.nextIs_then (fun t _ => (rereads_subquery more .subquery).rereadsFrom) ?_
  exact more.expr.andThen one_le_one fun e => Rereads.expect.weaken.bind fun _ => .pure rfl

/-- A word that is an operand as the name of a function only. -/
theorem primary_word (word : (t.isOperator "MOD" || t.isClause .values) = true) :
    primary inner sql (t :: tokens) =
      if tokens.head?.any isOpen then functionCall inner t.value sql tokens
      else .error (.malformed (.notAnOperand t.raw)) := by
  have kind : t.kind = .operator ∧ t.value = "MOD" ∨ t.kind = .clause .values := by
    simpa [Token.isOperator, Token.isClause, Token.isKind] using word
  unfold primary
  rcases kind with ⟨kind, value⟩ | kind <;> cases opens : tokens.head?.any isOpen <;>
    simp [isOpen, isName, Token.isKind, Token.isOperator, Token.isClause, *]

theorem reread_word (more : inner.RereadBy leeway m outer)
    (word : (t.isOperator "MOD" || t.isClause .values) = true) :
    Reread leeway (m + 1) sql (fun _ => 1) (t :: tokens) (primary inner sql (t :: tokens)) (primary outer) := by
  intro e left run
  rw [primary_word word] at run
  split at run
  · next call =>
    obtain ⟨front, rfl, enough, same⟩ := rereads_functionCall more t.value sql tokens e left run
    obtain ⟨u, front, rfl⟩ := List.exists_cons_of_ne_nil (List.ne_nil_of_length_pos enough)
    refine ⟨t :: u :: front, rfl, Nat.le_add_left 1 _, fun short rest remains => ?_⟩
    rw [List.cons_append, primary_word word, if_pos (show (u :: front ++ rest).head?.any isOpen from call)]
    exact same (Nat.le_of_succ_le short) rest remains.behindToken
  · cases run

theorem rereads_primary (more : inner.RereadBy leeway m outer) :
    Rereads leeway (m + 1) (fun _ => 1) (primary inner) (primary outer) := by
  have literal : ∀ e : Expr, Rereads leeway m (fun _ => 0) (pure e) (pure e) := fun e => .pure rfl
  refine Rereads.peek .fault one_le_one fun t => ?_
  by_cases word : (t.isOperator "MOD" || t.isClause .values) = true
  · exact fun sql left => (reread_word more word).congr one_le_one fun _ => rfl
  · have unused : ∀ p : Parser Expr, (secondIs isOpen >>= fun _ => p) = p := fun _ => rfl
    simp only [word, Bool.false_and, Bool.false_eq_true, if_false, unused]
    repeat' split
    · exact .advance (rereads_number _)
    · exact .advance (literal _)
    · exact .advance (literal _)
    · exact .advance (literal _)
    · exact .advance (rereads_parenthesized more).weaken
    · exact .advance (literal _)
    · exact .advance ((rereads_named more _).mono (fun _ => Nat.le_refl 0) (Nat.le_succ m))
    · exact .fault

theorem followsBinary_continues : Continues followsBinary := by
  refine .of_kind fun t passes => ?_
  simp only [followsBinary, Bool.or_eq_true, decide_eq_true_eq] at passes
  rcases passes with (is | is) | is <;> simp [is]

/-- By the signs in front of the operand. -/
theorem rereads_unary (more : inner.RereadBy leeway m outer) :
    Rereads leeway (m + 1) (fun _ => 1) (unary inner) (unary outer) := by
  intro sql tokens
  show Reread leeway (m + 1) sql (fun _ => 1) tokens (unaryFrom inner sql tokens) (unary outer)
  fun_induction unaryFrom inner sql tokens with
  | case1 =>
    intro a left run
    cases run
  | case2 t minus n rest numeric =>
    -- Both tokens belong to the number.
    refine Reread.cons (q := fun sql tokens => unary outer sql (t :: tokens)) ?_ fun _ _ => rfl
    refine Reread.cons (q := number ("-" ++ n.value)) ?_ fun sql tokens => by simp [unary, unaryFrom, minus, numeric]
    exact (rereads_number _).mono (fun _ => Nat.le_refl 0) (Nat.le_refl _) sql rest
  | case3 t wrap minus n rest notNumeric ih =>
    refine Reread.wrap ih fun after next => ?_
    obtain ⟨after, rfl⟩ := List.head?_eq_some_iff.mp next
    simp [unary, unaryFrom, minus, notNumeric]
  | case4 t wrap minus ih =>
    intro a left run
    cases run
  | case5 t ts notMinus plus ih =>
    have operand := Reread.mono ih (fun _ => Nat.zero_le 1) (Nat.sub_le _ 1)
    refine Reread.cons (q := unary outer) operand fun sql tokens => ?_
    rw [unary, unaryFrom.eq_def]
    simp only [notMinus, plus, if_true, if_false, Bool.false_eq_true]
  | case6 t ts wrap notMinus notPlus bang ih =>
    refine Reread.wrap ih fun after _ => ?_
    rw [unary, unaryFrom.eq_def]
    simp only [notMinus, notPlus, bang, if_true, if_false, Bool.false_eq_true]
  | case7 t ts wrap notMinus notPlus notBang named ih =>
    refine Reread.wrap (h := fun e => Expr.call "BINARY" [e] false) ih fun after next => ?_
    rw [← next] at named
    rw [unary, unaryFrom.eq_def]
    simp only [notMinus, notPlus, notBang, named, if_true, if_false, Bool.false_eq_true]
  | case8 t ts notMinus notPlus notBang notNamed =>
    intro a left run
    obtain ⟨front, split, enough, same⟩ := rereads_primary more sql (t :: ts) a left run
    obtain ⟨_, front, rfl⟩ := List.exists_cons_of_ne_nil (List.ne_nil_of_length_pos enough)
    cases split
    refine ⟨t :: front, rfl, enough, fun short rest remains => ?_⟩
    have unnamed :
        (t.kind = .name && Text.sameName t.value "BINARY" && (front ++ rest).head?.any followsBinary) = false := by
      rw [Bool.not_eq_true, Bool.and_eq_false_iff] at notNamed
      rw [Bool.and_eq_false_iff]
      exact notNamed.imp_right ((remains.behindToken.append front).any_head followsBinary_continues)
    rw [unary, List.cons_append, unaryFrom.eq_def]
    simp only [notMinus, notPlus, notBang, unnamed, if_false, Bool.false_eq_true]
    exact same short rest remains

theorem rereads_step {symbols : List String} {next next' : Parser Expr}
    (operand : Rereads leeway m (fun _ => 1) next next') (left : Expr) :
    Rereads leeway m taken (leftAssociative.step symbols next left) (leftAssociative.step symbols next' left) := by
  refine Rereads.glance (b := none) rfl taken_le ⟨rfl, rfl⟩ (fun t ends => ?_) fun t => ?_
  · have unlisted : ¬ (t.kind = .operator ∧ t.value ∈ symbols) := by
      intro listed
      obtain ⟨c, is⟩ | ⟨is, _⟩ := Token.endsPhrase_cases (leeway.endsPhrase t ends) <;>
        exact absurd (is.symm.trans listed.1) (by simp)
    dsimp only
    split
    · exact if_neg unlisted
    · rfl
  · dsimp only
    cases BinaryOp.ofSymbol? t.value with
    | none => exact .inl ⟨rfl, rfl⟩
    | some op =>
      have part : Rereads leeway m (fun _ => 0) (next >>= fun right => pure (some (Expr.binary op left right)))
          (next' >>= fun right => pure (some (Expr.binary op left right))) :=
        operand.weaken.bind fun right => .pure rfl
      by_cases listed : t.kind = .operator ∧ t.value ∈ symbols
      · simp only [if_pos listed]
        exact .inr (.advance (part.mono (fun _ => Nat.le_refl 0) (Nat.sub_le m 1)))
      · exact .inl ⟨if_neg listed, if_neg listed⟩

theorem rereads_leftAssociative {symbols : List String} {next next' : Parser Expr}
    (operand : Rereads leeway m (fun _ => 1) next next') :
    Rereads leeway m (fun _ => 1) (leftAssociative symbols next) (leftAssociative symbols next') :=
  operand.andThen one_le_one fun first => Rereads.grow (rereads_step operand) (fun _ _ => rfl) first

theorem rereads_additive (more : inner.RereadBy leeway m outer) :
    Rereads leeway (m + 1) (fun _ => 1) (additive inner) (additive outer) :=
  rereads_leftAssociative (rereads_leftAssociative (rereads_unary more))

theorem rereads_membership (more : inner.RereadBy leeway m outer) (operand : Expr) (negated : Bool) :
    Rereads leeway (m + 1) (fun _ => 0) (membership inner operand negated) (membership outer operand negated) := by
  refine Rereads.eat_enter .isOpen least_le (Rereads.nextIs_then (fun t _ => ?_) ?_).weaken .fault
  · exact (rereads_subquery more fun q => .inQuery operand q negated).rereadsFrom
  · refine (rereads_arguments more).andThen one_le_one fun items => ?_
    split
    · exact .fault
    · exact .pure rfl

theorem rereads_condition (more : inner.RereadBy leeway m outer) (left : Expr) (negated : Bool) :
    Rereads leeway (m + 1) taken (condition inner left negated) (condition outer left negated) := by
  have operand := (rereads_additive more).weaken
  refine Rereads.eat (.isOperator "LIKE") taken_le (operand.bind fun right => .pure rfl) ?_
  refine Rereads.eat (.isOperator "IN") taken_le ((rereads_membership more left negated).bind fun e => .pure rfl) ?_
  refine Rereads.eat (.isOperator "BETWEEN") taken_le ?_ (.pure rfl)
  exact operand.bind fun low => Rereads.expect.weaken.bind fun _ => operand.bind fun high => .pure rfl

/-- The token that continues a `NOT` opens a condition. -/
theorem condition_of_continuesNot {operand : Expr} {negated : Bool} {o : Option Expr}
    (continues : continuesNot t = true)
    (run : condition inner operand negated sql (t :: tokens) = .ok (o, left)) : 1 ≤ taken o := by
  have eats : ∀ (test : Token → Bool) (f : Bool → Parser (Option Expr)),
      (eat test >>= f) sql (t :: tokens) = if test t then f true sql tokens else f false sql (t :: tokens) := by
    intro test f
    cases passes : test t <;> simp [passes]
  have gives : ∀ (e : Expr) tokens,
      (pure (some e) : Parser (Option Expr)) sql tokens = .ok (o, left) → 1 ≤ taken o := by
    rintro e tokens ⟨⟩
    exact Nat.le_refl 1
  have behind : ∀ {α : Type} {p : Parser α} {f : α → Parser (Option Expr)},
      (∀ a tokens, f a sql tokens = .ok (o, left) → 1 ≤ taken o) →
        ∀ tokens, (p >>= f) sql tokens = .ok (o, left) → 1 ≤ taken o := by
    intro α p f next tokens run
    obtain ⟨a, middle, _, run⟩ := bind_eq_ok.mp run
    exact next a middle run
  simp only [condition, eats, if_true, if_false, Bool.false_eq_true] at run
  split at run
  · exact behind (fun right => gives _) tokens run
  · split at run
    · exact behind (fun e => gives _) tokens run
    · split at run
      · exact behind (fun low => behind fun _ => behind fun high => gives _) tokens run
      · next notLike notIn notBetween => simp [continuesNot, notLike, notIn, notBetween] at continues

theorem continuesNot_continues : Continues continuesNot :=
  ((Continues.isOperator "LIKE").or (.isOperator "IN")).or (.isOperator "BETWEEN")

theorem rereads_comparisonStep (more : inner.RereadBy leeway m outer) (left : Expr) :
    Rereads leeway (m + 1) taken (comparisonStep inner left) (comparisonStep outer left) := by
  intro sql tokens
  refine (rereads_step (rereads_additive more) left sql tokens).bind fun o after => ?_
  cases o with
  | some e => exact .pure rfl
  | none =>
    refine Rereads.eat (m := m + 1) (.isOperator "IS") taken_le ?_ (Rereads.both (.isOperator "NOT")
      continuesNot_continues (fun o => (taken_le o).trans (Nat.le_succ 1)) ?_ ?_) sql after
    · refine (Rereads.mark (.isOperator "NOT")).bind fun negated => ?_
      exact Rereads.eat (.isKind "NULL" (by simp) (by simp)) least_le (.pure rfl) .fault
    · intro u continues sql after o last run
      obtain ⟨front, split, enough, same⟩ := rereads_condition more left true sql (u :: after) o last run
      have some := condition_of_continuesNot continues run
      exact ⟨front, split, some.trans enough, fun short => same (Nat.le_succ_of_le short)⟩
    · exact rereads_condition more left false

theorem rereads_comparison (more : inner.RereadBy leeway m outer) :
    Rereads leeway (m + 1) (fun _ => 1) (comparison inner) (comparison outer) :=
  (rereads_additive more).andThen one_le_one fun first =>
    Rereads.grow (rereads_comparisonStep more) (fun _ _ => rfl) first

theorem rereads_negation (more : inner.RereadBy leeway m outer) :
    Rereads leeway (m + 1) (fun _ => 1) (negation inner) (negation outer) := by
  intro sql tokens
  show Reread leeway (m + 1) sql (fun _ => 1) tokens (negationFrom inner sql tokens) (negation outer)
  fun_induction negationFrom inner sql tokens with
  | case1 =>
    intro a left run
    cases run
  | case2 t ts isNot ih => exact Reread.wrap ih fun after _ => by rw [negation, negationFrom, if_pos isNot]
  | case3 t ts notNot =>
    refine (rereads_comparison more sql (t :: ts)).congr one_le_one fun rest => ?_
    rw [negation, negationFrom, if_neg notNot]
    rfl

theorem rereads_expression (more : inner.RereadBy leeway m outer) :
    Rereads leeway (m + 1) (fun _ => 1) (expression inner) (expression outer) :=
  rereads_leftAssociative (rereads_leftAssociative (rereads_leftAssociative (rereads_negation more)))

end Grammar

end MiniSql
