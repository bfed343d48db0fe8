import MiniSql.Proofs.Scanning
import MiniSql.Value

namespace MiniSql.Lexer

/-- How a character is written between quotes: a quote twice, and so a backslash where it escapes. -/
def doubled (quote : Char) (escapes : Bool) (c : Char) : List Char :=
  if c = quote ∨ escapes = true ∧ c = '\\' then [c, c] else [c]

theorem escape_name (cs : List Char) : Text.escape '`' ['`', '`'] cs = cs.flatMap (doubled '`' false) := by
  unfold Text.escape
  congr 1
  funext c
  by_cases same : c = '`' <;> simp [doubled, same]

theorem escape_string (cs : List Char) :
    Text.escape '\'' ['\'', '\''] (Text.escape '\\' ['\\', '\\'] cs) = cs.flatMap (doubled '\'' true) := by
  unfold Text.escape
  rw [List.flatMap_assoc]
  congr 1
  funext c
  by_cases backslash : c = '\\'
  · subst backslash; rfl
  · by_cases same : c = '\'' <;> simp [doubled, backslash, same]

theorem readQuoted_plain {quote c : Char} {escapes : Bool} (other : c ≠ quote)
    (plain : escapes = true → c ≠ '\\') (cs : List Char) :
    readQuoted quote escapes (c :: cs) =
      (readQuoted quote escapes cs).map fun (v, rest) => (c :: v, rest) := by
  have noEscape : (escapes && decide (c = '\\')) = false := by
    cases escapes with
    | false => rfl
    | true => simp [plain rfl]
  cases cs <;> simp [readQuoted, other, noEscape]

theorem readQuoted_closes {quote : Char} (escapes : Bool) {rest : List Char} (single : rest.head? ≠ some quote) :
    readQuoted quote escapes (quote :: rest) = some ([], rest) := by
  cases rest with
  | nil => simp [readQuoted]
  | cons d rest =>
    have other : d ≠ quote := fun same => single (congrArg some same)
    simp [readQuoted, other]

/-- What is written between quotes is read back. -/
theorem readQuoted_doubled {quote : Char} (escapes : Bool) {rest : List Char} (noBackslash : quote ≠ '\\')
    (ends : rest.head? ≠ some quote) (cs : List Char) :
    readQuoted quote escapes (cs.flatMap (doubled quote escapes) ++ quote :: rest) = some (cs, rest) := by
  induction cs with
  | nil => exact readQuoted_closes escapes ends
  | cons c cs ih =>
    rw [List.flatMap_cons, List.append_assoc]
    by_cases same : c = quote
    · subst same
      simp [doubled, readQuoted, ih]
    · by_cases backslash : escapes = true ∧ c = '\\'
      · obtain ⟨rfl, rfl⟩ := backslash
        simp [doubled, readQuoted, same, unescape, ih]
      · have written : doubled quote escapes c = [c] := by simp [doubled, same, backslash]
        rw [written, List.singleton_append,
          readQuoted_plain same fun on is => backslash ⟨on, is⟩, ih]
        rfl

theorem isLexeme_name (name : String) :
    IsLexeme (fun rest => rest.head? ≠ some '`') (Text.quoteName name) (.name name) := by
  refine ⟨'`', name.toList.flatMap (doubled '`' false) ++ ['`'], ?_, fun rest ends => ⟨rfl, fun _ => ?_⟩⟩
  · simp [Text.quoteName, escape_name]
  · have reads := readQuoted_doubled false (by decide) ends name.toList
    simp [readLexeme, reads, Sign.name]

theorem isLexeme_string (text : String) :
    IsLexeme (fun rest => rest.head? ≠ some '\'') (Value.quoteString text) ⟨.string, text⟩ := by
  refine ⟨'\'', text.toList.flatMap (doubled '\'' true) ++ ['\''], ?_, fun rest ends => ⟨rfl, fun _ => ?_⟩⟩
  · simp [Value.quoteString, escape_string]
  · have reads := readQuoted_doubled true (by decide) ends text.toList
    simp [readLexeme, reads]

end MiniSql.Lexer
