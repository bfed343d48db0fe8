import MiniSql.Proofs.Lists

namespace MiniSql

open MiniSql.Parser

namespace Grammar

variable {inner : Nested} {s : List Sign} {P : Expr → Prop} {n : Nat}

theorem stops_closing {t : Token} {rest : List Token} (same : t.sign = .closing) (below : n < 11) :
    Stops n (t :: rest) := by
  refine stops_cons ?_
  rw [same]
  exact below

theorem isClose_sign {t : Token} (same : t.sign = .closing) : isClose t = true := by
  simp only [Token.sign, Sign.closing, Sign.mk.injEq] at same
  simp [isClose, Token.isKind, same]

theorem isOpen_sign {t : Token} (same : t.sign = .opening) : isOpen t = true := by
  simp only [Token.sign, Sign.opening, Sign.mk.injEq] at same
  simp [isOpen, Token.isKind, same]

theorem opensSelect_iff (t : Token) : opensSelect t = true ↔ t.sign.kind = .clause .select := by
  simp [opensSelect, Token.isClause, Token.sign]

/-- No expression starts like a SELECT or like the end of a list. -/
theorem opensExpr_other {t : Token} (opens : t.sign.opensExpr = true) :
    opensSelect t = false ∧ isClose t = false ∧ t.isReserved "DISTINCT" = false := by
  refine ⟨?_, ?_, ?_⟩
  · by_cases select : t.kind = .clause .select
    · simp [Sign.opensExpr, Token.sign, select] at opens
    · simp [opensSelect, Token.isClause, select]
  · by_cases paren : t.kind = .paren
    · simp only [Sign.opensExpr, Token.sign, paren, decide_eq_true_eq] at opens
      simp [isClose, Token.isKind, opens]
    · simp [isClose, Token.isKind, paren]
  · by_cases reserved : t.kind = .reserved
    · simp [Sign.opensExpr, Token.sign, reserved] at opens
    · simp [Token.isReserved, Token.isKind, reserved]

theorem primary_open {sql : String} {t : Token} {rest : List Token} (same : t.sign = .opening) :
    unary inner sql (t :: rest) =
      (do
        if ← nextIs opensSelect then
          return .subquery (← enclosed inner.select)
        else
          let e ← inner.expr
          expect .paren ")"
          return e : Parser Expr) sql rest := by
  have opens := isOpen_sign same
  simp only [Token.sign, Sign.opening, Sign.mk.injEq] at same
  rw [unary_primary (by simp [same]) (by simp [same])]
  simp [primary, same, opens]

theorem reads_paren {sign : Sign} (opens : sign.opensExpr = true) (reads : Reads 7 inner.expr (sign :: s) P) :
    Reads 0 (unary inner) (enclosedSigns (sign :: s)) P := by
  intro sql front rest same _
  obtain ⟨opened, back, rfl, sameOpen, sameBack⟩ := List.map_eq_cons_iff.mp same
  obtain ⟨front, back, rfl, sameFront, sameBack⟩ := List.map_eq_append_iff.mp sameBack
  obtain ⟨closes, rfl, sameClose⟩ := List.map_eq_singleton_iff.mp sameBack
  obtain ⟨e, run, holds⟩ := reads sql front (closes :: rest) sameFront (stops_closing sameClose (by decide))
  refine ⟨e, ?_, holds⟩
  obtain ⟨t, front, rfl, rfl, _⟩ := List.map_eq_cons_iff.mp sameFront
  rw [List.cons_append, primary_open sameOpen]
  simp only [List.cons_append, List.append_assoc, List.nil_append] at run ⊢
  simp [opensExpr_other opens, run, expect_apply sameClose]

/-- A SELECT between parentheses begins with the parenthesis and its keyword. -/
theorem takes_query {Q : Select → Prop} (balanced : Balanced (.clause .select :: s))
    (reads : TakesAll inner.select (.clause .select :: s) Q) (sql : String) {front : List Token} (rest : List Token)
    (same : front.map Token.sign = enclosedSigns (.clause .select :: s)) :
    ∃ opened t back q, front = opened :: t :: back ∧ opened.sign = .opening ∧ opensSelect t = true ∧
      enclosed inner.select sql (t :: (back ++ rest)) = .ok (q, rest) ∧ Q q := by
  obtain ⟨opened, back, rfl, sameOpen, sameBack⟩ := List.map_eq_cons_iff.mp same
  obtain ⟨q, run, holds⟩ := takes_enclosed balanced reads sql back rest sameBack
  obtain ⟨t, back, rfl, sameFirst, _⟩ := List.map_eq_cons_iff.mp sameBack
  have select : opensSelect t = true := by rw [opensSelect_iff, sameFirst]; rfl
  exact ⟨opened, t, back, q, rfl, sameOpen, select, run, holds⟩

theorem reads_subquery {Q : Select → Prop} (balanced : Balanced (.clause .select :: s))
    (reads : TakesAll inner.select (.clause .select :: s) Q) :
    Reads 0 (unary inner) (enclosedSigns (.clause .select :: s)) fun e => ∃ q, Q q ∧ e = .subquery q := by
  intro sql front rest same _
  obtain ⟨opened, t, back, q, rfl, sameOpen, select, run, holds⟩ := takes_query balanced reads sql rest same
  refine ⟨.subquery q, ?_, q, holds, rfl⟩
  rw [List.cons_append, primary_open sameOpen]
  simp [select, run]

theorem unary_function {function sql : String} {t opened : Token} {rest : List Token}
    (same : t.sign = functionSign function) (sameOpen : opened.sign = .opening) :
    unary inner sql (t :: opened :: rest) = functionCall inner function sql (opened :: rest) := by
  have opens := isOpen_sign sameOpen
  simp only [Token.sign, Sign.opening, Sign.mk.injEq] at sameOpen
  unfold functionSign at same
  split at same
  · next mod =>
    simp only [Token.sign, Sign.operator, Sign.mk.injEq] at same
    rw [unary_primary (by simp [same]) (by simp [same])]
    simp [primary, same, sameOpen, mod, isOpen, Token.isOperator, Token.isKind]
  · split at same
    · next values =>
      simp only [Token.sign, Sign.clause, Sign.mk.injEq] at same
      rw [unary_primary (by simp [same]) (by simp [same])]
      simp [primary, same, sameOpen, values, isOpen, Token.isOperator, Token.isClause, Token.isKind,
        Clause.keyword]
    · simp only [Token.sign, Sign.name, Sign.mk.injEq] at same
      rw [unary_named same.1 (by simp [followsBinary, sameOpen])]
      simp [named, same, opens]

section Arguments

variable {β : Type} {xs : List β} {signs : β → List Sign} {R : β → Expr → Prop}

/-- The entries of a list start like expressions. -/
theorem entries_opens (opens : ∀ x ∈ xs, OpensExpr (signs x))
    (some : xs ≠ []) : OpensExpr (commaSigns (xs.map signs)) := by
  obtain ⟨x, xs, rfl⟩ := List.exists_cons_of_ne_nil some
  rw [commaSigns_cons]
  exact (opens x (by simp)).append _

theorem reads_arguments (each : ∀ x ∈ xs, Reads 7 inner.expr (signs x) (R x))
    (opens : ∀ x ∈ xs, OpensExpr (signs x)) :
    Reads n (arguments inner) (commaSigns (xs.map signs) ++ [.closing]) (List.Forall₂ R xs) := by
  intro sql front rest same _
  obtain ⟨front, back, rfl, sameFront, sameBack⟩ := List.map_eq_append_iff.mp same
  obtain ⟨closes, rfl, sameClose⟩ := List.map_eq_singleton_iff.mp sameBack
  cases xs with
  | nil =>
    rw [List.map_nil, commaSigns, List.map_eq_nil_iff] at sameFront
    subst sameFront
    refine ⟨[], ?_, .nil⟩
    simp [arguments, isClose_sign sameClose]
  | cons x xs =>
    obtain ⟨as, run, all⟩ := reads_entries (by simp) (fun y listed => (each y listed).mono (by decide))
      sql front (closes :: rest) sameFront (stops_closing sameClose (by decide))
    refine ⟨as, ?_, all⟩
    obtain ⟨sign, more, starts, opensFirst⟩ := entries_opens opens (by simp)
    rw [starts] at sameFront
    obtain ⟨t, front, rfl, rfl, _⟩ := List.map_eq_cons_iff.mp sameFront
    simp only [List.cons_append, List.append_assoc, List.nil_append] at run ⊢
    simp [arguments, opensExpr_other opensFirst, run, expect_apply sameClose]

/-- A call with enough arguments is accepted. -/
theorem call_enough {function : String} {as : List Expr} (sql : String) (rest : List Token) (distinct : Bool)
    (enough : xs = [] → leastArguments? function = none) :
    List.Forall₂ R xs as →
    (match as, leastArguments? function with
      | [], some least => fault (.tooFewArguments function least)
      | _, _ => pure (.call function as distinct) : Parser Expr) sql rest =
        .ok (.call function as distinct, rest) := by
  intro all
  cases all with
  | nil => simp [enough rfl]
  | cons => rfl

/-- The arguments of a function that is called by the upper case of its name. -/
theorem reads_functionCall {function : String} {distinct : Bool} (upper : Text.toUpper function = function)
    (enough : xs = [] → leastArguments? function = none)
    (each : ∀ x ∈ xs, Reads 7 inner.expr (signs x) (R x))
    (opens : ∀ x ∈ xs, OpensExpr (signs x)) :
    Reads n (functionCall inner function)
      (enclosedSigns ((if distinct then [.reserved "DISTINCT"] else []) ++ commaSigns (xs.map signs)))
      fun e => ∃ as, List.Forall₂ R xs as ∧ e = .call function as distinct := by
  intro sql front rest same stops
  rw [enclosedSigns, List.append_assoc] at same
  obtain ⟨opened, back, rfl, sameOpen, sameBack⟩ := List.map_eq_cons_iff.mp same
  obtain ⟨marks, back, rfl, sameMarks, sameBack⟩ := List.map_eq_append_iff.mp sameBack
  obtain ⟨as, run, all⟩ := reads_arguments (n := n) each opens sql back rest sameBack stops
  have finished := call_enough sql rest distinct enough all
  refine ⟨.call function as distinct, ?_, as, all, rfl⟩
  cases distinct with
  | true =>
    obtain ⟨mark, rfl, sameMark⟩ := List.map_eq_singleton_iff.mp sameMarks
    simp only [Token.sign, Sign.reserved, Sign.mk.injEq] at sameMark
    simp [functionCall, upper, expect_apply sameOpen, opensSelect, Token.isClause, Token.isReserved, Token.isKind,
      sameMark, run]
    exact finished
  | false =>
    simp only [Bool.false_eq_true, if_false, List.map_eq_nil_iff] at sameMarks
    subst sameMarks
    obtain ⟨t, back, rfl, other⟩ : ∃ t more, back = t :: more ∧ opensSelect t = false ∧
        t.isReserved "DISTINCT" = false := by
      cases xs with
      | nil =>
        obtain ⟨t, back, rfl, sameClose, _⟩ := List.map_eq_cons_iff.mp sameBack
        simp only [Token.sign, Sign.closing, Sign.mk.injEq] at sameClose
        exact ⟨t, back, rfl, by simp [opensSelect, Token.isClause, sameClose],
          by simp [Token.isReserved, Token.isKind, sameClose]⟩
      | cons x xs =>
        obtain ⟨sign, more, starts, opensFirst⟩ := entries_opens opens (by simp)
        rw [starts] at sameBack
        obtain ⟨t, back, rfl, rfl, _⟩ := List.map_eq_cons_iff.mp sameBack
        obtain ⟨noSelect, _, noDistinct⟩ := opensExpr_other opensFirst
        exact ⟨t, back, rfl, noSelect, noDistinct⟩
    simp only [List.cons_append, List.nil_append] at run ⊢
    simp [functionCall, upper, expect_apply sameOpen, other, run]
    exact finished

theorem reads_call {function : String} {distinct : Bool} (upper : Text.toUpper function = function)
    (enough : xs = [] → leastArguments? function = none)
    (each : ∀ x ∈ xs, Reads 7 inner.expr (signs x) (R x))
    (opens : ∀ x ∈ xs, OpensExpr (signs x)) :
    Reads 0 (unary inner) (functionSign function ::
      enclosedSigns ((if distinct then [.reserved "DISTINCT"] else []) ++ commaSigns (xs.map signs)))
      fun e => ∃ as, List.Forall₂ R xs as ∧ e = .call function as distinct := by
  intro sql front rest same stops
  obtain ⟨t, back, rfl, sameName, sameBack⟩ := List.map_eq_cons_iff.mp same
  obtain ⟨e, run, holds⟩ := reads_functionCall upper enough each opens sql back rest sameBack stops
  obtain ⟨opened, back, rfl, sameOpen, _⟩ := List.map_eq_cons_iff.mp sameBack
  refine ⟨e, ?_, holds⟩
  rw [List.cons_append, List.cons_append, unary_function sameName sameOpen]
  exact run

end Arguments

end Grammar

end MiniSql
