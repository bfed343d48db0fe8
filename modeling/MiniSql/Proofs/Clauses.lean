import MiniSql.Grammar.Statement
import MiniSql.Proofs.Sources

namespace MiniSql.Grammar

open MiniSql.Parser

section
variable {inner : Nested} {s t : List Sign} {n : Nat} {P : Expr → Prop}

theorem expectClause_apply {c : Clause} {sql : String} {t : Token} {rest : List Token}
    (same : t.sign = .clause c) : expectClause c sql (t :: rest) = .ok ((), rest) := by
  simp only [Token.sign, Sign.clause, Sign.mk.injEq] at same
  simp [expectClause, Token.isClause, same]

/-- An expression after the keyword of its clause. -/
theorem reads_clauseExpression {c : Clause} (reads : Reads 7 (expression inner) s P) :
    Reads 7 (clauseExpression inner) (.clause c :: s) P := by
  intro sql front rest same stops
  obtain ⟨t, back, rfl, _, sameBack⟩ := List.map_eq_cons_iff.mp same
  obtain ⟨e, run, holds⟩ := reads sql back rest sameBack stops
  exact ⟨e, by simp [clauseExpression, run], holds⟩

theorem reads_orderKey {descending : Bool} (reads : Reads 7 (expression inner) s P) :
    Reads n (orderKey inner) (s ++ [.reserved (if descending then "DESC" else "ASC")])
      fun k => ∃ e, P e ∧ k = ⟨e, descending⟩ := by
  intro sql front rest same _
  obtain ⟨front, back, rfl, sameFront, sameBack⟩ := List.map_eq_append_iff.mp same
  obtain ⟨mark, rfl, sameMark⟩ := List.map_eq_singleton_iff.mp sameBack
  have ended : Stops 7 (mark :: rest) := by
    refine stops_cons ?_
    rw [sameMark]
    cases descending <;> decide
  obtain ⟨e, run, holds⟩ := reads sql front (mark :: rest) sameFront ended
  simp only [Token.sign, Sign.reserved, Sign.mk.injEq] at sameMark
  refine ⟨⟨e, descending⟩, ?_, e, holds, rfl⟩
  rw [List.append_assoc, List.singleton_append]
  cases descending <;> simp [orderKey, run, Token.isReserved, Token.isKind, sameMark]

theorem reads_orderBy {β : Type} {xs : List β} {signs : β → List Sign} {R : β → OrderKey → Prop} (some : xs ≠ [])
    (each : ∀ x ∈ xs, Reads 8 (orderKey inner) (signs x) (R x)) :
    Reads 9 (orderBy inner) (.clause .orderBy :: commaSigns (xs.map signs)) (List.Forall₂ R xs) := by
  intro sql front rest same stops
  obtain ⟨t, back, rfl, sameKeyword, sameBack⟩ := List.map_eq_cons_iff.mp same
  obtain ⟨ks, run, all⟩ := reads_entries some each sql back rest sameBack stops
  refine ⟨ks, ?_, all⟩
  simp [orderBy, expectClause_apply sameKeyword, run]

theorem rowCount_apply {n : Nat} {sql : String} {t : Token} {rest : List Token} (same : t.sign = countSign n)
    (small : n < UInt64.size) : rowCount sql (t :: rest) = .ok (n, rest) := by
  have digits : (Nat.repr n).toList.all Char.isDigit = true := by
    rw [Nat.toList_repr, List.all_eq_true]
    exact (digits_toDigits n).2
  have value : Numeral.digitsValue (Nat.repr n).toList = n := by
    rw [Nat.toList_repr]
    exact Nat.ofDigitChars_ten_toDigits
  simp only [Token.sign, countSign, Sign.mk.injEq] at same
  simp only [rowCount, bind_apply, peek_apply, List.head?_cons, same, Nat.toString_eq_repr, digits, value, small]
  simp

theorem reads_limit {l : Limit} (small : l.offset < UInt64.size ∧ l.count < UInt64.size) :
    Reads 9 limit l.signs fun m => m = l := by
  intro sql front rest same stops
  obtain ⟨keyword, back, rfl, sameKeyword, sameBack⟩ := List.map_eq_cons_iff.mp same
  refine ⟨l, ?_, rfl⟩
  split at sameBack
  · obtain ⟨first, back, rfl, sameOffset, sameBack⟩ := List.map_eq_cons_iff.mp sameBack
    obtain ⟨comma, back, rfl, sameComma, sameBack⟩ := List.map_eq_cons_iff.mp sameBack
    obtain ⟨second, rfl, sameCount⟩ := List.map_eq_singleton_iff.mp sameBack
    simp only [Token.sign, Sign.comma, Sign.mk.injEq] at sameComma
    simp [limit, expectClause_apply sameKeyword, rowCount_apply sameOffset small.1, rowCount_apply sameCount small.2,
      isComma, Token.isKind, sameComma]
  · next none =>
    obtain ⟨first, rfl, sameCount⟩ := List.map_eq_singleton_iff.mp sameBack
    have noComma : rest.head?.any isComma = false := by
      refine stops.none_passes fun t passes => ?_
      simp only [isComma, Token.isKind, Bool.and_eq_true, decide_eq_true_eq] at passes
      simp [Sign.level, Token.sign, passes]
    have noOffset := Stops.noReserved stops "OFFSET" (by decide)
    have zero : l.offset = 0 := by omega
    simp [limit, expectClause_apply sameKeyword, rowCount_apply sameCount small.2, noComma, noOffset, ← zero]

theorem reads_assignment {c : ColumnRef} (reads : Reads 7 (expression inner) s P) :
    Reads 7 (assignment inner) (c.signs ++ .operator "=" :: s) fun a => ∃ e, P e ∧ a = ⟨c, e⟩ := by
  obtain ⟨table, name⟩ := c
  intro sql front rest same stops
  cases table with
  | none =>
    obtain ⟨t, back, rfl, sameName, sameBack⟩ := List.map_eq_cons_iff.mp same
    obtain ⟨equals, back, rfl, sameEquals, sameBack⟩ := List.map_eq_cons_iff.mp sameBack
    obtain ⟨e, run, holds⟩ := reads sql back rest sameBack stops
    have expected : expect .operator "=" sql (equals :: (back ++ rest)) = .ok ((), back ++ rest) :=
      expect_apply sameEquals
    simp only [Token.sign, Sign.name, Sign.operator, Sign.mk.injEq] at sameName sameEquals
    refine ⟨_, ?_, e, holds, rfl⟩
    simp [assignment, expectName, isName, isPoint, Token.isKind, sameName, sameEquals, expected, run]
  | some table =>
    obtain ⟨t, back, rfl, sameTable, sameBack⟩ := List.map_eq_cons_iff.mp same
    obtain ⟨point, back, rfl, samePoint, sameBack⟩ := List.map_eq_cons_iff.mp sameBack
    obtain ⟨u, back, rfl, sameName, sameBack⟩ := List.map_eq_cons_iff.mp sameBack
    obtain ⟨equals, back, rfl, sameEquals, sameBack⟩ := List.map_eq_cons_iff.mp sameBack
    obtain ⟨e, run, holds⟩ := reads sql back rest sameBack stops
    have expected : expect .operator "=" sql (equals :: (back ++ rest)) = .ok ((), back ++ rest) :=
      expect_apply sameEquals
    simp only [Token.sign, Sign.name, Sign.point, Sign.operator, Sign.mk.injEq] at sameTable samePoint sameName sameEquals
    refine ⟨_, ?_, e, holds, rfl⟩
    simp [assignment, expectName, isName, isPoint, Token.isKind, sameTable, samePoint, sameName, expected, run]

theorem reads_assignments {β : Type} {xs : List β} {signs : β → List Sign} {R : β → Assignment → Prop} (some : xs ≠ [])
    (each : ∀ x ∈ xs, Reads 8 (assignment inner) (signs x) (R x)) :
    Reads 9 (assignments inner) (.clause .assign :: commaSigns (xs.map signs)) (List.Forall₂ R xs) := by
  intro sql front rest same stops
  obtain ⟨t, back, rfl, sameKeyword, sameBack⟩ := List.map_eq_cons_iff.mp same
  obtain ⟨as, run, all⟩ := reads_entries some each sql back rest sameBack stops
  simp only [Token.sign, Sign.clause, Sign.mk.injEq] at sameKeyword
  refine ⟨as, ?_, all⟩
  simp [assignments, Token.isClause, sameKeyword, run]

theorem withText_apply {α : Type} {p : Parser α} {sql : String} {tokens rest : List Token} {a : α}
    (run : p sql tokens = .ok (a, rest)) : ∃ text, withText p sql tokens = .ok ((a, text), rest) := by
  exact ⟨_, by simp [withText, run]; rfl⟩

/-- An entry of a select list, with an alias unless it is a star. -/
theorem reads_item (aliasName : Option String) (reads : Reads 7 (expression inner) s P)
    (starred : ∀ e, P e → (∃ table, e = .star table) → aliasName = none) :
    Reads 8 (item inner) (s ++ (aliasName.map aliasSigns).getD [])
      fun i => ∃ e text, P e ∧ i = ⟨e, aliasName, text⟩ := by
  intro sql front rest same stops
  obtain ⟨front, back, rfl, sameFront, sameBack⟩ := List.map_eq_append_iff.mp same
  have ended : Stops 7 (back ++ rest) := by
    cases aliasName with
    | none =>
      simp only [Option.map_none, Option.getD_none, List.map_eq_nil_iff] at sameBack
      subst sameBack
      exact stops.mono (by decide)
    | some aliasName =>
      obtain ⟨mark, back, rfl, sameMark, _⟩ := List.map_eq_cons_iff.mp sameBack
      exact stops_cons (by rw [sameMark]; decide)
  obtain ⟨e, run, holds⟩ := reads sql front (back ++ rest) sameFront ended
  obtain ⟨text, read⟩ := withText_apply run
  have aliased : alias? sql (back ++ rest) = .ok (aliasName, rest) := by
    cases aliasName with
    | none =>
      obtain ⟨_, run, rfl⟩ := reads_noAlias sql back rest (by simpa using sameBack) stops
      exact run
    | some aliasName =>
      obtain ⟨_, run, rfl⟩ := reads_alias aliasName sql back rest sameBack stops
      exact run
  refine ⟨⟨e, aliasName, text⟩, ?_, e, text, holds, rfl⟩
  rw [List.append_assoc]
  by_cases star : ∃ table, e = .star table
  · obtain ⟨table, rfl⟩ := star
    have none := starred _ holds ⟨table, rfl⟩
    subst none
    simp only [Option.map_none, Option.getD_none, List.map_eq_nil_iff] at sameBack
    subst sameBack
    simp only [List.nil_append] at read
    simp [item, read]
  · cases e with
    | star table => exact absurd ⟨table, rfl⟩ star
    | _ => simp [item, read, aliased]

end

section
variable {α : Type} {o : ClauseOrder} {body : Clause → α → Parser α} {i j : Nat} {c : Clause}
  {s t : List Sign} {R : α → α → Prop}

/-- From any clause up to rank `i`, the rest of the statement is read to its end. -/
def ClausesRead (o : ClauseOrder) (body : Clause → α → Parser α) (i : Nat) (signs : List Sign)
    (R : α → α → Prop) : Prop :=
  ∀ reached ≤ i, ∀ a sql tokens, tokens.map Token.sign = signs → ∀ most, tokens.length ≤ most →
    ∃ last b, growWithin (clauseStep o body) most (reached, a) sql tokens = .ok ((last, b), []) ∧ R a b

theorem clausesRead_nil : ClausesRead o body i [] fun a b => b = a := by
  intro reached _ a sql tokens same most _
  obtain rfl := List.map_eq_nil_iff.mp same
  exact ⟨reached, a, growWithin_stop rfl most, rfl⟩

theorem clauseStep_apply (reached : Nat) {a b : α} {sql : String} {t : Token} {tokens rest : List Token}
    (opens : t.clause? = some c) (place : o.lookup c = some j) (later : reached < j)
    (run : body c a sql (t :: tokens) = .ok (b, rest)) :
    clauseStep o body (reached, a) sql (t :: tokens) = .ok (some (j, b), rest) := by
  simp [clauseStep, opens, place, later, run]

theorem clausesRead_cons {Q : α → α → Prop} (place : o.lookup c = some j) (later : i < j)
    (reads : ∀ a, Reads 10 (body c a) (.clause c :: s) (Q a)) (ends : Reads.Ends 10 10 t)
    (others : ClausesRead o body j t R) :
    ClausesRead o body i (.clause c :: s ++ t) fun a b => ∃ m, Q a m ∧ R m b := by
  intro reached below a sql tokens same most enough
  obtain ⟨front, back, rfl, sameFront, sameBack⟩ := List.map_eq_append_iff.mp same
  have ended : Stops 10 (back ++ []) := ends.stops sameBack (by simp [Stops])
  rw [List.append_nil] at ended
  obtain ⟨m, run, holds⟩ := reads a sql front back sameFront ended
  obtain ⟨t, front, rfl, sameKeyword, _⟩ := List.map_eq_cons_iff.mp sameFront
  obtain ⟨most, rfl⟩ : ∃ left, most = left + 1 := ⟨most - 1, by simp at enough; omega⟩
  have opens : t.clause? = some c := by
    simp only [Token.sign, Sign.clause, Sign.mk.injEq] at sameKeyword
    simp [Token.clause?, sameKeyword]
  have step := clauseStep_apply (o := o) reached opens place (by omega) run
  obtain ⟨last, b, runs, final⟩ := others j (Nat.le_refl _) m sql back sameBack most
    (by simp at enough; omega)
  exact ⟨last, b, (growWithin_step step).trans runs, m, holds, final⟩

/-- An optional clause gives a field its value; the field stays blank without the clause. -/
def PartRead (body : Clause → α → Parser α) (c : Clause) (set : β → α → α) (same : β → β → Prop)
    (blank value : β) (signs : List Sign) : Prop :=
  (signs = [] ∧ value = blank) ∨
    ∃ more, signs = .clause c :: more ∧
      ∀ a, Reads 10 (body c a) signs fun b => ∃ v, same value v ∧ b = set v a

variable {β : Type} {set : β → α → α} {same : β → β → Prop} {blank value : β}

theorem PartRead.absent : PartRead body c set same blank blank [] :=
  .inl ⟨rfl, rfl⟩

theorem PartRead.present {p : Parser γ} {f : γ → β} {known : γ → Prop}
    (reads : Reads 10 p (.clause c :: s) known) (holds : ∀ v, known v → same value (f v))
    (runs : ∀ a, body c a = p >>= fun v => pure (set (f v) a)) :
    PartRead body c set same blank value (.clause c :: s) := by
  refine .inr ⟨s, rfl, fun a => ?_⟩
  rw [runs a]
  intro sql front rest same stops
  obtain ⟨v, run, is⟩ := reads sql front rest same stops
  exact ⟨set (f v) a, by simp [run], f v, holds v is, rfl⟩

theorem PartRead.ends (part : PartRead body c set same blank value s) (ends : Reads.Ends 10 10 t) :
    Reads.Ends 10 10 (s ++ t) := by
  rcases part with ⟨rfl, _⟩ | ⟨more, rfl, _⟩
  · exact ends
  · exact (by decide : 10 < 11)

theorem PartRead.clauses (part : PartRead body c set same blank value s) (place : o.lookup c = some j)
    (later : i < j) (refl : same blank blank) (ends : Reads.Ends 10 10 t)
    (others : ClausesRead o body j t R) :
    ClausesRead o body i (s ++ t)
      fun a b => set blank a = a → ∃ v, same value v ∧ R (set v a) b := by
  intro reached below a sql tokens sameSigns most enough
  rcases part with ⟨rfl, rfl⟩ | ⟨more, rfl, reads⟩
  · obtain ⟨last, b, run, final⟩ := others reached (by omega) a sql tokens sameSigns most enough
    exact ⟨last, b, run, fun isBlank => ⟨value, refl, by rwa [isBlank]⟩⟩
  · obtain ⟨last, b, run, m, ⟨v, known, rfl⟩, final⟩ :=
      clausesRead_cons place later reads ends others reached below a sql tokens sameSigns most enough
    exact ⟨last, b, run, fun _ => ⟨v, known, final⟩⟩

/-- The clauses after the first one, to the end of the statement. -/
theorem ClausesRead.takesAll {a : α} (reads : ClausesRead o body 1 s R) :
    TakesAll (clauses o body a) s (R a) := by
  intro sql tokens same
  obtain ⟨last, b, run, holds⟩ := reads 1 (Nat.le_refl _) a sql tokens same tokens.length (Nat.le_refl _)
  exact ⟨b, by simp [clauses, grow, run], holds⟩

end

end MiniSql.Grammar
