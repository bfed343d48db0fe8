import Mathlib.Data.List.TakeWhile
import MiniSql.Proofs.Gaps
import MiniSql.Proofs.Words

namespace MiniSql.Lexer

theorem skipGap_suffix (cs : List Char) : skipGap .blank cs <:+ cs := by
  obtain ⟨gap, split, _⟩ := skipGap_takes .blank cs
  exact ⟨gap, split.symm⟩

theorem skipNumber_suffix (pointSeen : Bool) (cs : List Char) : skipNumber pointSeen cs <:+ cs := by
  fun_induction skipNumber pointSeen cs with
  | case1 | case3 | case7 | case8 | case10 => exact List.suffix_rfl
  | case2 _ _ _ ih | case4 _ _ _ _ _ _ ih | case5 _ _ _ _ _ _ _ _ ih => exact ih.trans (List.suffix_cons _ _)
  | case6 _ c s _ _ _ _ _ _ ih => exact ih.trans (List.suffix_append [c, s] _)
  | case9 => exact List.nil_suffix

theorem skipNumber_digit {c : Char} (digit : c.isDigit = true) (pointSeen : Bool) (cs : List Char) :
    skipNumber pointSeen (c :: cs) = skipNumber pointSeen cs := by
  have noPoint : c ≠ '.' := by
    rintro rfl
    cases digit
  rw [skipNumber.eq_def]
  cases cs <;> simp [digit, skipNumber]

theorem readQuoted_suffix {quote : Char} {escapes : Bool} {cs value rest : List Char}
    (read : readQuoted quote escapes cs = some (value, rest)) : rest <:+ cs := by
  fun_induction readQuoted quote escapes cs generalizing value with
  | case1 | case3 => cases read
  | case2 =>
    cases read
    exact List.nil_suffix
  | case5 =>
    cases read
    exact List.suffix_cons _ _
  | case4 _ ih | case6 _ _ _ _ _ ih =>
    obtain ⟨⟨inside, _⟩, found, same⟩ := Option.map_eq_some_iff.mp read
    cases same
    exact (ih found).trans (List.suffix_append [_, _] _)
  | case7 _ _ _ _ _ ih =>
    obtain ⟨⟨inside, _⟩, found, same⟩ := Option.map_eq_some_iff.mp read
    cases same
    exact (ih found).trans (List.suffix_cons _ _)

theorem afterWords?_suffix {words : List String} {cs rest : List Char}
    (read : afterWords? words cs = some rest) : rest <:+ cs := by
  induction words generalizing cs with
  | nil =>
    cases read
    exact List.suffix_rfl
  | cons word words ih =>
    simp only [afterWords?, Option.ite_none_right_eq_some] at read
    exact (ih read.2).trans ((List.dropWhile_suffix _).trans (skipGap_suffix cs))

theorem startsWord_part {c : Char} (starts : startsWord c = true) : isWordPart c = true := by
  simp only [startsWord, Bool.or_eq_true, decide_eq_true_eq] at starts
  simp only [isWordPart, Text.isAlphanumeric, Bool.or_eq_true, decide_eq_true_eq]
  tauto

/-- A word stands alone, or it opens a keyword of several words. -/
theorem readWord_cases (cs : List Char) :
    (readWord cs).rest = cs.dropWhile isWordPart ∨
      ∃ entry ∈ continuations, entry.1 = Text.toUpper (String.ofList (cs.takeWhile isWordPart)) ∧
        afterWords? entry.2.1 (cs.dropWhile isWordPart) = some (readWord cs).rest := by
  unfold readWord
  simp only
  split
  · next c rest longer =>
    obtain ⟨entry, listed, found⟩ := List.exists_of_findSome?_eq_some longer
    simp only [Option.ite_none_right_eq_some, Option.map_eq_some_iff, Prod.mk.injEq] at found
    obtain ⟨first, _, after, _, rfl⟩ := found
    exact .inr ⟨entry, listed, first, after⟩
  · split <;> exact .inl rfl

theorem readWord_after (cs : List Char) : (readWord cs).rest <:+ cs.dropWhile isWordPart := by
  rcases readWord_cases cs with alone | ⟨_, _, _, after⟩
  · simp only [alone, List.suffix_refl]
  · exact afterWords?_suffix after

theorem dropWhile_word {c : Char} (starts : startsWord c = true) (cs : List Char) :
    (c :: cs).dropWhile isWordPart <:+ cs := by
  rw [List.dropWhile_cons_of_pos (startsWord_part starts)]
  exact List.dropWhile_suffix _

/-- The symbols of more than one character. -/
def longSymbols : List (List Char) :=
  [['<', '=', '>'], ['<', '='], ['>', '='], ['!', '='], ['<', '>'], ['&', '&'], ['|', '|']]

/-- The kind of a symbol of one character. -/
def shortSymbol? (c : Char) : Option TokenKind :=
  if c ∈ ['=', '<', '>', '+', '-', '*', '/', '%', '!'] then some .operator
  else if c ∈ ['(', ')'] then some .paren
  else if c ∈ [',', ';', '.'] then some .separator
  else none

/-- The longest symbol is taken. -/
theorem symbol?_eq (c : Char) (cs : List Char) :
    symbol? (c :: cs) =
      match longSymbols.find? (· <+: c :: cs) with
      | some symbol => some (.operator, symbol.length)
      | none => (shortSymbol? c).map fun kind => (kind, 1) := by
  unfold symbol?
  split
  case h_8 c' cs' h1 h2 h3 h4 h5 h6 h7 same =>
    cases same
    have none : longSymbols.find? (· <+: c :: cs) = none := by
      simp only [List.find?_eq_none, longSymbols, List.forall_mem_cons, decide_eq_true_eq]
      refine ⟨?_, ?_, ?_, ?_, ?_, ?_, ?_, by simp⟩
      all_goals
        rintro ⟨more, same⟩
        cases same
        simp_all
    rw [none]
    simp only [shortSymbol?]
    split
    · rfl
    · split
      · rfl
      · split <;> rfl
  case h_2 more noMore same =>
    cases same
    have shorter : ¬ ['<', '=', '>'] <+: '<' :: '=' :: more := by
      rintro ⟨rest, same⟩
      exact noMore rest (by simpa using same.symm)
    simp [longSymbols, List.find?, shorter]
  all_goals
    next same => cases same <;> simp [longSymbols, List.find?]

theorem symbol?_size {cs : List Char} {kind : TokenKind} {size : Nat} (read : symbol? cs = some (kind, size)) :
    0 < size ∧ size ≤ cs.length := by
  cases cs with
  | nil => cases read
  | cons c cs =>
    rw [symbol?_eq] at read
    split at read
    · next symbol found =>
      simp only [Option.some.injEq, Prod.mk.injEq] at read
      have nonempty : ∀ symbol ∈ longSymbols, 0 < symbol.length := by decide
      have starts : symbol <+: c :: cs := by simpa using List.find?_some found
      exact read.2 ▸ ⟨nonempty symbol (List.mem_of_find?_eq_some found), starts.length_le⟩
    · simp only [Option.map_eq_some_iff, Prod.mk.injEq] at read
      obtain ⟨_, _, _, rfl⟩ := read
      simp

/-- How a lexeme is read of a text whose first character is `c`. -/
inductive Reads (c : Char) (cs : List Char) : Lexeme → Prop
  | number {rest} : c.isDigit ∨ c = '.' ∧ startsDigit cs → skipNumber false (c :: cs) = rest →
      Reads c cs ⟨.numeric, String.ofList (Text.upTo rest (c :: cs)), rest⟩
  | string {value rest} : c = '\'' ∨ c = '"' → readQuoted c true cs = some (value, rest) →
      Reads c cs ⟨.string, String.ofList value, rest⟩
  | name {value rest} : c = '`' → readQuoted c false cs = some (value, rest) →
      Reads c cs ⟨.name, String.ofList value, rest⟩
  | word : startsWord c → Reads c cs (readWord (c :: cs))
  | symbol {kind size} : c.isDigit = false → (c = '.' → startsDigit cs = false) →
      c ∉ ['\'', '"', '`'] → startsWord c = false → symbol? (c :: cs) = some (kind, size) →
      Reads c cs ⟨kind, String.ofList ((c :: cs).take size), (c :: cs).drop size⟩

theorem readLexeme_eq_ok {offset : Nat} {c : Char} {cs : List Char} {lexeme : Lexeme} :
    readLexeme offset c cs = .ok lexeme ↔ Reads c cs lexeme := by
  constructor
  · intro read
    unfold readLexeme at read
    simp only at read
    split at read
    · next number =>
      cases read
      exact .number (by simpa using number) rfl
    · next noNumber =>
      split at read
      · next quote =>
        split at read
        · next found =>
          cases read
          exact .string quote found
        · cases read
      · next noString =>
        split at read
        · next tick =>
          split at read
          · next found =>
            cases read
            exact .name tick found
          · cases read
        · next noName =>
          split at read
          · next starts =>
            obtain rfl := Except.ok.inj read
            exact .word starts
          · next noWord =>
            split at read
            · next found =>
              cases read
              simp only [Bool.or_eq_true, not_or] at noNumber
              exact .symbol (by simpa using noNumber.1) (by simpa using noNumber.2) (by simp_all)
                (by simpa using noWord) found
            · cases read
  · intro read
    cases read with
    | number number taken => simp [readLexeme, number, taken]
    | string quote found =>
      rcases quote with rfl | rfl <;> simp [readLexeme, found]
    | name tick found =>
      subst tick
      simp [readLexeme, found]
    | word starts =>
      obtain ⟨noDigit, noPoint, noQuote, noQuotes, noTick⟩ := startsWord_other starts
      simp [readLexeme, noDigit, noPoint, noQuote, noQuotes, noTick, starts]
    | symbol noDigit noNumber noQuote noWord found =>
      simp only [List.mem_cons, List.not_mem_nil, or_false, not_or] at noQuote
      have noNumber : (c.isDigit || c = '.' && startsDigit cs) = false := by simpa [noDigit] using noNumber
      simp [readLexeme, noNumber, noQuote, noWord, found]

theorem Reads.unique {c : Char} {cs : List Char} {lexeme lexeme' : Lexeme} (reads : Reads c cs lexeme)
    (reads' : Reads c cs lexeme') : lexeme = lexeme' := by
  have read : readLexeme 0 c cs = .ok lexeme := readLexeme_eq_ok.mpr reads
  have read' : readLexeme 0 c cs = .ok lexeme' := readLexeme_eq_ok.mpr reads'
  exact Except.ok.inj (read.symm.trans read')

/-- A lexeme takes at least its first character. -/
theorem Reads.suffix {c : Char} {cs : List Char} {lexeme : Lexeme} (read : Reads c cs lexeme) :
    lexeme.rest <:+ cs := by
  cases read with
  | number number taken =>
    subst taken
    rcases number with digit | ⟨rfl, digit⟩
    · rw [skipNumber_digit digit]
      exact skipNumber_suffix _ _
    · rw [skipNumber, digit]
      exact skipNumber_suffix _ _
  | string _ found => exact readQuoted_suffix found
  | name _ found => exact readQuoted_suffix found
  | word starts => exact (readWord_after (c :: cs)).trans (dropWhile_word starts cs)
  | @symbol kind size _ _ _ _ found =>
    obtain ⟨more, rfl⟩ := Nat.exists_eq_add_of_le' (symbol?_size found).1
    exact List.drop_suffix more cs

end MiniSql.Lexer
