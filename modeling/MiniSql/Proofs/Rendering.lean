import Mathlib.Data.List.Forall2
import MiniSql.Proofs.Words
import MiniSql.Proofs.Quoted
import MiniSql.Proofs.Signs

namespace MiniSql.Lexer

/-- A text that adds its signs to those of any text before it. -/
def Trails (text : String) (signs : List Sign) : Prop :=
  ∀ a s, Lexes a s → Lexes (a ++ text) (s ++ signs)

namespace Lexes

variable {a b : String} {s t : List Sign}

theorem empty : Lexes "" [] := fun _ _ _ scans => scans

theorem trails (lexes : Lexes b t) : Trails (" " ++ b) t := by
  intro a s before
  exact (before.space lexes).cast (by simp)

theorem commaSeparated {texts : List String} {signs : List (List Sign)}
    (each : List.Forall₂ Lexes texts signs) : Lexes (commaSeparated texts) (commaSigns signs) := by
  unfold MiniSql.commaSeparated
  induction each with
  | nil => exact empty
  | @cons text sign texts signs first rest ih =>
    cases rest with
    | nil => simpa [commaSigns] using first
    | cons second more =>
      rw [String.intercalate_cons_cons]
      exact first.comma ih

/-- A parenthesis directly after the text. -/
theorem call (before : Lexes a s) (inside : Lexes b t) :
    Lexes (a ++ "(" ++ b ++ ")") (s ++ enclosedSigns t) := by
  intro rest more delimits scans
  have after := inside.enclosed rest more delimits scans
  simpa [enclosedSigns] using before _ _ (by simp [Delimits]) after

theorem minus {c : Char} (starts : b.toList.head? = some c) (noDash : c ≠ '-') (lexes : Lexes b t) :
    Lexes ("-" ++ b) (.operator "-" :: t) := by
  intro rest more delimits scans
  have head : (b.toList ++ rest).head? ≠ some '-' := by
    rw [List.head?_append, starts]
    simpa using noDash
  simpa using isLexeme_minus.scans head (lexes rest more delimits scans)

end Lexes

theorem Trails.empty : Trails "" [] := by
  intro a s lexes
  simpa using lexes

theorem Trails.append {a b : String} {s t : List Sign} (first : Trails a s) (second : Trails b t) :
    Trails (a ++ b) (s ++ t) := by
  intro text signs lexes
  have both := second _ _ (first text signs lexes)
  rwa [String.append_assoc, List.append_assoc] at both

theorem lexes_star : Lexes "*" [.operator "*"] := by
  refine IsLexeme.lexes ⟨'*', [], rfl, fun rest delimits => ?_⟩
  rcases delimits.elim with rfl | ⟨c, more, rfl, listed⟩
  · exact ⟨rfl, fun _ => rfl⟩
  · simp only [List.mem_cons, List.not_mem_nil, or_false] at listed
    rcases listed with rfl | rfl | rfl | rfl <;> exact ⟨rfl, fun _ => rfl⟩

theorem lexes_op (op : BinaryOp) : Lexes op.symbol op.signs := by
  have word : ∀ w, isKeyword w .operator = true → Lexes w [.operator w] := fun w => lexes_keyword
  cases op with
  | or => exact word "OR" (by decide)
  | xor => exact word "XOR" (by decide)
  | and => exact word "AND" (by decide)
  | like => exact word "LIKE" (by decide)
  | notLike => exact (word "NOT" (by decide)).space (word "LIKE" (by decide))
  | intDivide => exact word "DIV" (by decide)
  | multiply => exact lexes_star
  | _ =>
    refine IsLexeme.lexes ⟨_, _, rfl, fun rest delimits => ?_⟩
    rcases delimits.elim with rfl | ⟨c, more, rfl, listed⟩
    · exact ⟨rfl, fun _ => rfl⟩
    · simp only [List.mem_cons, List.not_mem_nil, or_false] at listed
      rcases listed with rfl | rfl | rfl | rfl <;> exact ⟨rfl, fun _ => rfl⟩

theorem lexes_name (name : String) : Lexes (Text.quoteName name) [.name name] := by
  refine IsLexeme.lexes ((isLexeme_name name).mono fun rest delimits tick => ?_)
  have listed := delimits _ tick
  simp at listed

theorem lexes_qualified (table : String) {text : String} {sign : Sign} (starts : startsDigit text.toList = false)
    (some : text ≠ "") (lexes : Lexes text [sign]) :
    Lexes (Text.quoteName table ++ "." ++ text) [.name table, .point, sign] := by
  intro rest more delimits scans
  have noDigit : startsDigit (text.toList ++ rest) = false := by
    cases chars : text.toList with
    | nil => exact absurd (String.toList_eq_nil_iff.mp chars) some
    | cons c cs => rwa [chars] at starts
  have after := isLexeme_point.scans noDigit (lexes rest more delimits scans)
  simpa using (isLexeme_name table).scans (by simp) after

theorem lexes_column (c : ColumnRef) : Lexes c.render c.signs := by
  obtain ⟨table, name⟩ := c
  cases table with
  | none => exact lexes_name name
  | some table =>
    exact lexes_qualified table (by simp [Text.quoteName, startsDigit]) (by simp [Text.quoteName]) (lexes_name name)

theorem lexes_word {word : String} (opens : word.toList.head?.any opensWord = true)
    (parts : word.toList.all isWordPart = true) (plain : keywordKind? (Text.toUpper word) = none) :
    Lexes word [.name word] :=
  ((isLexeme_plain opens parts plain).mono fun _ => Delimits.endsWord).lexes

theorem lexes_infinite {x : Float} (infinite : Dyadic.ofFloat? x = none) :
    Lexes (DoubleFormat.literal.write x) (infiniteSigns x) := by
  have inf : Lexes "inf" [.name "inf"] := lexes_word (by decide) (by decide) (by decide)
  simp only [DoubleFormat.write, infinite, infiniteSigns]
  split_ifs
  · exact lexes_word (by decide) (by decide) (by decide)
  · exact inf.minus (c := 'i') (by decide) (by decide)
  · exact inf

theorem lexes_literal (v : Value) : Lexes v.toLiteral v.signs := by
  cases v with
  | null => exact lexes_keyword (by decide)
  | bool b => cases b <;> exact lexes_keyword (by decide)
  | int i => exact (signedText_int i.toInt).lexes
  | float x =>
    simp only [Value.signs]
    split_ifs with finite
    · exact (signedText_float finite).lexes
    · exact lexes_infinite (Option.not_isSome_iff_eq_none.mp finite)
  | str s =>
    refine IsLexeme.lexes ((isLexeme_string s).mono fun rest delimits quote => ?_)
    have listed := delimits _ quote
    simp at listed

theorem lexes_function {function : String} (callable : isCallable function = true) :
    Lexes function [functionSign function] := by
  by_cases mod : function = "MOD"
  · subst mod
    exact lexes_keyword (by decide)
  · by_cases values : function = "VALUES"
    · subst values
      exact lexes_keyword (by decide)
    · have sign : functionSign function = .name function := by simp [functionSign, mod, values]
      obtain ⟨upper, free⟩ : isUpperWord function = true ∧ keywordKind? function = none := by
        simpa [isCallable_iff, mod, values] using callable
      simp only [isUpperWord, Bool.and_eq_true, decide_eq_true_eq] at upper
      obtain ⟨⟨opens, parts⟩, same⟩ := upper
      rw [sign]
      exact lexes_word opens parts (same.symm ▸ free)

end MiniSql.Lexer
