import MiniSql.Proofs.NumberLiteral
import MiniSql.Proofs.Reading
import MiniSql.Proofs.Signs

namespace MiniSql.Grammar

open MiniSql.Parser

variable {inner : Nested} {s : List Sign} {P : Expr → Prop}

/-- The first token of an operand that neither carries a sign nor is a `BINARY`. -/
theorem unary_primary {sql : String} {t : Token} {rest : List Token}
    (plain : t.kind = .operator → t.value ∉ ["-", "+", "!"])
    (noBinary : t.kind = .name → rest.head?.any followsBinary = false) :
    unary inner sql (t :: rest) = primary inner sql (t :: rest) := by
  have noSign : ∀ symbol ∈ ["-", "+", "!"], t.isOperator symbol = false := by
    intro symbol listed
    by_cases kind : t.kind = .operator
    · have other := plain kind
      have different : t.value ≠ symbol := fun same => other (same ▸ listed)
      simp [Token.isOperator, Token.isKind, different]
    · simp [Token.isOperator, Token.isKind, kind]
  have minus := noSign "-" (by simp)
  have plus := noSign "+" (by simp)
  have bang := noSign "!" (by simp)
  rw [unary, unaryFrom.eq_def]
  by_cases name : t.kind = .name
  · simp [minus, plus, bang, noBinary name]
  · simp [minus, plus, bang, name]

/-- One token that is an operand by itself. -/
theorem reads_single {sign : Sign} {e : Expr} (plain : sign.kind = .operator → sign.value ∉ ["-", "+", "!"])
    (noName : sign.kind ≠ .name)
    (run : ∀ sql t rest, t.sign = sign → primary inner sql (t :: rest) = .ok (e, rest)) (holds : P e) :
    Reads 0 (unary inner) [sign] P := by
  intro sql front rest same _
  obtain ⟨t, rfl, rfl⟩ := List.map_eq_singleton_iff.mp same
  have read : unary inner sql (t :: rest) = primary inner sql (t :: rest) :=
    unary_primary plain fun name => absurd name noName
  exact ⟨e, read.trans (run sql t rest rfl), holds⟩

theorem reads_string (text : String) :
    Reads 0 (unary inner) [⟨.string, text⟩] fun e => e = .literal (.str text) := by
  refine reads_single (by simp) (by simp) (fun sql t rest same => ?_) rfl
  simp only [Token.sign, Sign.mk.injEq] at same
  simp [primary, same]

theorem reads_null (text : String) :
    Reads 0 (unary inner) [⟨.null, text⟩] fun e => e = .literal .null := by
  refine reads_single (by simp) (by simp) (fun sql t rest same => ?_) rfl
  simp only [Token.sign, Sign.mk.injEq] at same
  simp [primary, same]

theorem reads_boolean (b : Bool) :
    Reads 0 (unary inner) [⟨.boolean, if b then "TRUE" else "FALSE"⟩] fun e => e = .literal (.bool b) := by
  refine reads_single (by simp) (by simp) (fun sql t rest same => ?_) rfl
  simp only [Token.sign, Sign.mk.injEq] at same
  cases b <;> simp [primary, same]

theorem reads_star : Reads 0 (unary inner) [.operator "*"] fun e => e = .star none := by
  refine reads_single (by simp [Sign.operator]) (by simp [Sign.operator]) (fun sql t rest same => ?_) rfl
  simp only [Token.sign, Sign.operator, Sign.mk.injEq] at same
  simp [primary, same, isOpen, Token.isOperator, Token.isKind]

theorem number_apply {text : String} {v : Value} (value : numberValue text = .ok v) {sql : String}
    {tokens : List Token} : number text sql tokens = .ok (.literal v, tokens) := by
  simp [number, number.liftExcept, value]

theorem reads_numeric {text : String} {v : Value} (value : numberValue text = .ok v) :
    Reads 0 (unary inner) [⟨.numeric, text⟩] fun e => e = .literal v := by
  refine reads_single (by simp) (by simp) (fun sql t rest same => ?_) rfl
  simp only [Token.sign, Sign.mk.injEq] at same
  simp [primary, same, number_apply value]

/-- A number takes the minus before it. -/
theorem reads_minusNumeric {size : String} {v : Value} (value : numberValue ("-" ++ size) = .ok v) :
    Reads 0 (unary inner) [.operator "-", ⟨.numeric, size⟩] fun e => e = .literal v := by
  intro sql front rest same _
  obtain ⟨minus, back, rfl, sameMinus, sameBack⟩ := List.map_eq_cons_iff.mp same
  obtain ⟨t, rfl, sameSize⟩ := List.map_eq_singleton_iff.mp sameBack
  simp only [Token.sign, Sign.operator, Sign.mk.injEq] at sameMinus sameSize
  refine ⟨.literal v, ?_, rfl⟩
  have read : number ("-" ++ size) sql rest = .ok (.literal v, rest) := number_apply value
  simpa [unary, unaryFrom, Token.isOperator, Token.isKind, sameMinus, sameSize] using read

theorem reads_number {text : String} {v : Value} (signed : SignedText text)
    (value : numberValue text = .ok v) :
    Reads 0 (unary inner) (numberSigns text) fun e => e = .literal v := by
  cases signed with
  | plain written =>
    rw [numberSigns_plain written]
    exact reads_numeric value
  | negative written =>
    rw [numberSigns_negative]
    exact reads_minusNumeric value

/-- A minus that no number follows. -/
theorem reads_negate {sign : Sign} (reads : Reads 0 (unary inner) (sign :: s) P)
    (noNumber : sign.kind ≠ .numeric) :
    Reads 0 (unary inner) (.operator "-" :: sign :: s) fun e => ∃ a, P a ∧ e = .unary .negate a := by
  intro sql front rest same stops
  obtain ⟨minus, back, rfl, sameMinus, sameBack⟩ := List.map_eq_cons_iff.mp same
  obtain ⟨a, run, holds⟩ := reads sql back rest sameBack stops
  obtain ⟨t, back, rfl, rfl, _⟩ := List.map_eq_cons_iff.mp sameBack
  simp only [Token.sign, Sign.operator, Sign.mk.injEq] at sameMinus
  have other : t.kind ≠ .numeric := noNumber
  refine ⟨.unary .negate a, ?_, a, holds, rfl⟩
  simp only [unary, List.cons_append] at run
  simp [unary, unaryFrom, Token.isOperator, Token.isKind, sameMinus, other, run, Except.map]

/-- After a complete operand comes nothing that a `BINARY` could stand before. -/
theorem Stops.noBinary {rest : List Token} (stops : Stops 0 rest) : rest.head?.any followsBinary = false := by
  refine stops.none_passes fun t passes => ?_
  simp only [followsBinary, Bool.or_eq_true, decide_eq_true_eq] at passes
  rcases passes with (kind | kind) | kind <;> simp [Sign.level, Token.sign, kind]

theorem Stops.noOpen {rest : List Token} (stops : Stops 0 rest) : rest.head?.any isOpen = false := by
  refine stops.none_passes fun t passes => ?_
  simp only [isOpen, Token.isKind, Bool.and_eq_true, decide_eq_true_eq] at passes
  simp [Sign.level, Token.sign, passes]

theorem Stops.noPoint {rest : List Token} (stops : Stops 0 rest) : rest.head?.any isPoint = false := by
  refine stops.none_passes fun t passes => ?_
  simp only [isPoint, Token.isKind, Bool.and_eq_true, decide_eq_true_eq] at passes
  simp [Sign.level, Token.sign, passes]

/-- An operand that starts with a name. -/
theorem unary_named {sql : String} {t : Token} {rest : List Token} (name : t.kind = .name)
    (noBinary : rest.head?.any followsBinary = false) :
    unary inner sql (t :: rest) = named inner t.value sql rest := by
  rw [unary_primary (by simp [name]) fun _ => noBinary]
  simp [primary, name, isOpen, isName, Token.isOperator, Token.isClause, Token.isKind]

theorem reads_column (c : ColumnRef) : Reads 0 (unary inner) c.signs fun e => e = .column c := by
  obtain ⟨table, name⟩ := c
  intro sql front rest same stops
  cases table with
  | none =>
    obtain ⟨t, rfl, sameName⟩ := List.map_eq_singleton_iff.mp same
    simp only [Token.sign, Sign.name, Sign.mk.injEq] at sameName
    refine ⟨_, ?_, rfl⟩
    rw [List.singleton_append, unary_named sameName.1 (Stops.noBinary stops)]
    simp [named, Stops.noOpen stops, Stops.noPoint stops, sameName]
  | some table =>
    obtain ⟨t, back, rfl, sameTable, sameBack⟩ := List.map_eq_cons_iff.mp same
    obtain ⟨point, back, rfl, samePoint, sameBack⟩ := List.map_eq_cons_iff.mp sameBack
    obtain ⟨u, rfl, sameName⟩ := List.map_eq_singleton_iff.mp sameBack
    simp only [Token.sign, Sign.name, Sign.point, Sign.mk.injEq] at sameTable samePoint sameName
    refine ⟨_, ?_, rfl⟩
    rw [List.cons_append, unary_named sameTable.1 (by simp [followsBinary, samePoint])]
    simp [named, isOpen, isPoint, isName, Token.isKind, samePoint, sameName, sameTable]

theorem reads_tableStar (table : String) :
    Reads 0 (unary inner) [.name table, .point, .operator "*"] fun e => e = .star (some table) := by
  intro sql front rest same stops
  obtain ⟨t, back, rfl, sameTable, sameBack⟩ := List.map_eq_cons_iff.mp same
  obtain ⟨point, back, rfl, samePoint, sameBack⟩ := List.map_eq_cons_iff.mp sameBack
  obtain ⟨u, rfl, sameStar⟩ := List.map_eq_singleton_iff.mp sameBack
  simp only [Token.sign, Sign.name, Sign.point, Sign.operator, Sign.mk.injEq] at sameTable samePoint sameStar
  refine ⟨_, ?_, rfl⟩
  rw [List.cons_append, unary_named sameTable.1 (by simp [followsBinary, samePoint])]
  simp [named, isOpen, isPoint, isName, Token.isOperator, Token.isKind, samePoint, sameStar, sameTable]

end MiniSql.Grammar
