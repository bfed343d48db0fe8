import MiniSql.Proofs.DoubleOrder
import MiniSql.Proofs.KeyedTables
import MiniSql.Proofs.Precedence
import MiniSql.Proofs.Rendering
import MiniSql.Proofs.Respacing

namespace MiniSql

namespace Lexer

theorem keywordKind?_notNumeric (upper : String) : keywordKind? upper ≠ some .numeric := by
  unfold keywordKind?
  split
  · exact nofun
  · split_ifs <;> exact nofun

theorem readWord_notNumeric (cs : List Char) : (readWord cs).kind ≠ .numeric := by
  unfold readWord
  simp only
  split
  · exact nofun
  · split
    · next found =>
      rintro rfl
      exact keywordKind?_notNumeric _ found
    · exact nofun

theorem symbol?_notNumeric (cs : List Char) (size : Nat) : symbol? cs ≠ some (.numeric, size) := by
  cases cs with
  | nil => exact nofun
  | cons c cs =>
    rw [symbol?_eq]
    split
    · exact nofun
    · unfold shortSymbol?
      split_ifs <;> exact nofun

theorem Reads.numeric {c : Char} {cs rest : List Char} {value : String} (reads : Reads c cs ⟨.numeric, value, rest⟩) :
    (c.isDigit = true ∨ c = '.' ∧ startsDigit cs = true) ∧ skipNumber false (c :: cs) = rest := by
  generalize read : (⟨.numeric, value, rest⟩ : Lexeme) = lexeme at reads
  cases reads with
  | number starts skips =>
    cases read
    exact ⟨starts, skips⟩
  | string | name => cases read
  | word => exact absurd (congrArg Lexeme.kind read).symm (readWord_notNumeric _)
  | symbol _ _ _ _ found =>
    cases read
    exact absurd found (symbol?_notNumeric _ _)

/-- In a text that is one number no character ends a string or escapes another. -/
theorem skipNumber_plain {pointSeen : Bool} {cs : List Char} (whole : skipNumber pointSeen cs = []) :
    ∀ c ∈ cs, c ≠ '\'' ∧ c ≠ '\\' := by
  have digits : ∀ c : Char, c.isDigit = true → c ≠ '\'' ∧ c ≠ '\\' := by
    intro c digit
    constructor <;> (rintro rfl; simp at digit)
  have powers : ∀ c : Char, c = 'e' ∨ c = 'E' → c ≠ '\'' ∧ c ≠ '\\' := by
    rintro c (rfl | rfl) <;> decide
  have signs : ∀ c : Char, c = '+' ∨ c = '-' → c ≠ '\'' ∧ c ≠ '\\' := by
    rintro c (rfl | rfl) <;> decide
  fun_induction skipNumber pointSeen cs with
  | case1 => simp
  | case2 _ cs _ ih => exact List.forall_mem_cons.mpr ⟨by decide, ih whole⟩
  | case4 _ c s cs _ digit ih => exact List.forall_mem_cons.mpr ⟨digits c digit, ih whole⟩
  | case5 _ c s cs _ _ power digit ih => exact List.forall_mem_cons.mpr ⟨powers c power, ih whole⟩
  | case6 _ c s cs _ _ power _ both ih =>
    exact List.forall_mem_cons.mpr ⟨powers c power, List.forall_mem_cons.mpr ⟨signs s both.1, ih whole⟩⟩
  | case9 _ c _ digit => exact List.forall_mem_singleton.mpr (digits c digit)
  | case3 | case7 | case8 | case10 => cases whole

/-- The text is one number from its first character to the last. -/
def IsNumber (t : String) : Prop :=
  ∃ c front, t.toList = c :: front ∧ (c.isDigit = true ∨ c = '.' ∧ startsDigit front = true) ∧
    skipNumber false (c :: front) = []

theorem isNumber_of_scanned {t : String} (one : Token.ofText t = .ok [⟨.numeric, t, t, 0⟩]) : IsNumber t := by
  have scanned := ofText_eq_ok.mp one
  generalize split : t.toList = cs at scanned
  cases scanned with
  | @token _ gap c front rest _ _ isGap stands reads raw starts more =>
    have whole : t.toList = c :: front := by rw [show t = String.ofList (c :: front) from raw, String.toList_ofList]
    have sizes := congrArg List.length (split.symm.trans whole)
    simp only [List.length_append, List.length_cons] at sizes
    obtain rfl : rest = [] := List.length_eq_zero_iff.mp (by omega)
    rw [List.append_nil] at reads
    exact ⟨c, front, whole, reads.numeric⟩

/-- What is one number by itself is the same number before a blank. -/
theorem IsNumber.isLexeme {t : String} (number : IsNumber t) :
    IsLexeme (fun rest => ∀ c ∈ rest.head?, Text.isBlank c = true) t ⟨.numeric, t⟩ := by
  obtain ⟨c, front, split, starts, skips⟩ := number
  refine ⟨c, front, split, fun rest blank => ⟨?_, fun offset => ?_⟩⟩
  · have solid : Text.isBlank c = false ∧ c ≠ '#' ∧ c ≠ '-' ∧ c ≠ '/' := by
      rcases starts with digit | ⟨rfl, _⟩
      · refine ⟨isDigit_solid digit, ?_, ?_, ?_⟩ <;> (rintro rfl; simp at digit)
      · decide
    exact skipGap_solid solid.1 solid.2.1 (fun dash => absurd dash solid.2.2.1) fun slash => absurd slash solid.2.2.2
  · have starts' : c.isDigit = true ∨ c = '.' ∧ startsDigit (front ++ rest) = true := by
      refine starts.imp_right fun ⟨point, digit⟩ => ⟨point, ?_⟩
      obtain ⟨d, more, rfl, digit⟩ := startsDigit_eq_true digit
      exact digit
    have alone : skipNumber false (c :: front ++ []) = [] := by rwa [List.append_nil]
    have skips' : skipNumber false (c :: front ++ rest) = rest :=
      skipNumber_curtailed alone (curtails_of_blank [] blank)
    have reads := Reads.number starts' skips'
    rw [← List.cons_append, Text.upTo_append, ← split, String.ofList_toList] at reads
    exact readLexeme_eq_ok.mpr reads

theorem IsNumber.plain {t : String} (number : IsNumber t) : ∀ c ∈ t.toList, c ≠ '\'' ∧ c ≠ '\\' := by
  obtain ⟨c, front, split, _, skips⟩ := number
  exact split ▸ skipNumber_plain skips

theorem IsNumber.solid {t : String} (number : IsNumber t) :
    ∃ c front, t.toList = c :: front ∧ Text.isBlank c = false ∧ c ≠ '-' ∧ c ≠ '+' := by
  obtain ⟨c, front, split, starts, _⟩ := number
  refine ⟨c, front, split, ?_⟩
  rcases starts with digit | ⟨rfl, _⟩
  · refine ⟨isDigit_solid digit, ?_, ?_⟩ <;> (rintro rfl; simp at digit)
  · decide

/-- Before a blank, and at the end, the text gives the signs. -/
def LexesApart (text : String) (signs : List Sign) : Prop :=
  ∀ rest more, (∀ c ∈ rest.head?, Text.isBlank c = true) → Scans rest more → Scans (text.toList ++ rest) (signs ++ more)

theorem LexesApart.scans {text : String} {signs : List Sign} (lexes : LexesApart text signs) : Scans text.toList signs := by
  simpa using lexes [] [] nofun (.done rfl)

theorem IsNumber.lexes {t : String} (number : IsNumber t) : LexesApart t [⟨.numeric, t⟩] :=
  fun _ _ blank scans => number.isLexeme.scans blank scans

/-- A comparison with a string. -/
theorem LexesApart.equal {text string : String} {signs : List Sign} (lexes : LexesApart text signs) :
    Scans (text ++ " = " ++ Value.quoteString string).toList (signs ++ [.operator "=", ⟨.string, string⟩]) := by
  have last : Scans ((Value.quoteString string).toList ++ []) [⟨.string, string⟩] :=
    (isLexeme_string string).scans nofun (.done rfl)
  rw [List.append_nil] at last
  have equal : Scans ('=' :: ' ' :: (Value.quoteString string).toList) [.operator "=", ⟨.string, string⟩] :=
    lexes_op .equal _ _ (by simp [Delimits]) last.space
  have blank : ∀ c ∈ (' ' :: '=' :: ' ' :: (Value.quoteString string).toList).head?, Text.isBlank c = true := by
    rintro _ ⟨⟩
    rfl
  simpa using lexes _ _ blank equal.space

end Lexer

namespace Grammar

end Grammar

/-- The whole text is read as the expression. -/
def Expr.ReadFrom (text : String) (e : Expr) : Prop :=
  ∃ tokens, Token.ofText text = .ok tokens ∧ Parser.runOn Grammar.expression text tokens = .ok (e, [])

theorem Expr.readFrom_tokens (write : Value → List Sign) {e : Expr} {text : String} {tokens : List Token}
    (operations : ∀ n ∈ e.nodes, n.IsOperation write) (cut : Token.ofText text = .ok tokens)
    (signs : tokens.map Token.sign = e.minimalSigns write) : Expr.ReadFrom text e := by
  have fits : (e.minimalSigns write).length ≤ tokens.length := by rw [← signs, List.length_map]
  obtain ⟨_, read, rfl⟩ := (e.readsMinimally operations).whole fits text tokens [] signs nofun
  rw [List.append_nil] at read
  exact ⟨tokens, cut, read⟩

theorem Expr.readFrom_of_signs (write : Value → List Sign) {e : Expr} {text : String}
    (operations : ∀ n ∈ e.nodes, n.IsOperation write) (scans : Lexer.Scans text.toList (e.minimalSigns write)) :
    Expr.ReadFrom text e := by
  obtain ⟨_, cut, signs⟩ := scans.ofText
  exact Expr.readFrom_tokens write operations cut signs

namespace Expr
variable {v : Value} {number : List Sign} {text : String}

theorem readFrom_number (written : v.WrittenAs number) (lexes : Lexer.LexesApart text number) :
    Expr.ReadFrom text (.literal v) := by
  refine readFrom_of_signs (fun _ => number) ?_ lexes.scans
  simpa [Expr.nodes, Node.IsOperation] using written

end Expr

end MiniSql
