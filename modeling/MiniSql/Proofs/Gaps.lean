import MiniSql.Proofs.Scanning

namespace MiniSql.Lexer

/-- A comment that goes on to the end of its line, without that end. Two dashes open one only before
a blank, a control character or nothing. -/
inductive IsLineComment : List Char → Prop
  | hash {line} : '\n' ∉ line → IsLineComment ('#' :: line)
  | dashes {line} : (∀ c ∈ line.head?, Text.isBlank c ∨ Text.isControl c) → '\n' ∉ line →
      IsLineComment ('-' :: '-' :: line)

/-- Nothing in the text closes a block comment. -/
def NoClosing (cs : List Char) : Prop :=
  ¬ ['*', '/'] <:+: cs

instance (cs : List Char) : Decidable (NoClosing cs) :=
  inferInstanceAs (Decidable (¬ ['*', '/'] <:+: cs))

/-- Blanks and comments, one after another. Only where the input `ends` may the last comment be left
open. -/
inductive IsGap (ends : Prop) : List Char → Prop
  | nil : IsGap ends []
  | blank {c gap} : Text.isBlank c → IsGap ends gap → IsGap ends (c :: gap)
  | line {comment gap} : IsLineComment comment → IsGap ends gap → IsGap ends (comment ++ '\n' :: gap)
  | block {inside gap} : NoClosing inside → IsGap ends gap →
      IsGap ends ('/' :: '*' :: (inside ++ '*' :: '/' :: gap))
  | openLine {comment} : ends → IsLineComment comment → IsGap ends comment
  | openBlock {inside} : ends → NoClosing inside → IsGap ends ('/' :: '*' :: inside)

theorem IsGap.mono {ends ends' : Prop} {gap : List Char} (isGap : IsGap ends gap) (weaker : ends → ends') :
    IsGap ends' gap := by
  induction isGap with
  | nil => exact .nil
  | blank blank _ ih => exact .blank blank ih
  | line comment _ ih => exact .line comment ih
  | block open' _ ih => exact .block open' ih
  | openLine last comment => exact .openLine (weaker last) comment
  | openBlock last inside => exact .openBlock (weaker last) inside

theorem noClosing_nil : NoClosing [] := by
  simp [NoClosing]

theorem noClosing_cons {c : Char} {cs : List Char} :
    NoClosing (c :: cs) ↔ NoClosing cs ∧ ¬ (c = '*' ∧ cs.head? = some '/') := by
  unfold NoClosing
  rw [List.infix_cons_iff, not_or, and_comm]
  refine and_congr_right fun _ => not_congr ?_
  cases cs with
  | nil => simp
  | cons d cs => simp [List.cons_prefix_cons, eq_comm]

/-- What a part of a gap takes from the front of a text, and what it leaves. -/
def TakesGap : Gap → List Char → List Char → Prop
  | .blank, cs, rest => ∃ gap, cs = gap ++ rest ∧ IsGap (rest = []) gap
  | .line, cs, rest => ∃ line, '\n' ∉ line ∧
      ((∃ gap, cs = line ++ '\n' :: (gap ++ rest) ∧ IsGap (rest = []) gap) ∨ cs = line ∧ rest = [])
  | .block, cs, rest => ∃ inside, NoClosing inside ∧
      ((∃ gap, cs = inside ++ '*' :: '/' :: (gap ++ rest) ∧ IsGap (rest = []) gap) ∨ cs = inside ∧ rest = [])

variable {cs rest : List Char}

theorem TakesGap.lineComment (start : List Char) (takes : TakesGap .line cs rest)
    (comment : ∀ line, '\n' ∉ line → (∀ c ∈ line.head?, cs.head? = some c) → IsLineComment (start ++ line)) :
    TakesGap .blank (start ++ cs) rest := by
  obtain ⟨line, oneLine, ⟨gap, rfl, isGap⟩ | ⟨rfl, rfl⟩⟩ := takes
  · refine ⟨start ++ line ++ '\n' :: gap, by simp, .line (comment line oneLine fun c first => ?_) isGap⟩
    cases line with
    | nil => cases first
    | cons d line => simpa using first
  · exact ⟨start ++ cs, by simp, .openLine rfl (comment cs oneLine fun c first => first)⟩

/-- What is skipped is a gap. -/
theorem skipGap_takes (gap : Gap) (cs : List Char) : TakesGap gap cs (skipGap gap cs) := by
  fun_induction skipGap gap cs with
  | case1 gap =>
    cases gap with
    | blank => exact ⟨[], rfl, .nil⟩
    | line => exact ⟨[], by simp, .inr ⟨rfl, rfl⟩⟩
    | block => exact ⟨[], noClosing_nil, .inr ⟨rfl, rfl⟩⟩
  | case2 c cs ih =>
    by_cases newline : c = '\n'
    · rw [if_pos newline] at ih ⊢
      obtain ⟨gap, split, isGap⟩ := ih
      exact ⟨[], by simp, .inl ⟨gap, by rw [newline, List.nil_append, ← split], isGap⟩⟩
    · rw [if_neg newline] at ih ⊢
      obtain ⟨line, oneLine, taken⟩ := ih
      refine ⟨c :: line, by simpa [eq_comm] using ⟨newline, oneLine⟩, ?_⟩
      exact taken.imp (Exists.imp fun _ => And.imp_left (congrArg (c :: ·))) (And.imp_left (congrArg (c :: ·)))
  | case3 cs ih =>
    obtain ⟨gap, split, isGap⟩ := ih
    exact ⟨[], noClosing_nil, .inl ⟨gap, by rw [List.nil_append, ← split], isGap⟩⟩
  | case4 c cs notClosing ih =>
    obtain ⟨inside, still, taken⟩ := ih
    refine ⟨c :: inside, noClosing_cons.mpr ⟨still, ?_⟩, ?_⟩
    · rintro ⟨rfl, first⟩
      obtain ⟨more, rfl⟩ : ∃ more, cs = '/' :: more := by
        cases inside with
        | nil => cases first
        | cons d inside =>
          cases first
          rcases taken with ⟨gap, split, _⟩ | ⟨split, _⟩ <;> exact ⟨_, split⟩
      exact notClosing more rfl rfl
    · exact taken.imp (Exists.imp fun _ => And.imp_left (congrArg (c :: ·))) (And.imp_left (congrArg (c :: ·)))
  | case5 cs ih => exact ih.lineComment ['#'] fun line oneLine _ => .hash oneLine
  | case6 cs opens ih =>
    refine ih.lineComment ['-', '-'] fun line oneLine first => .dashes (fun c isFirst => ?_) oneLine
    obtain ⟨more, rfl⟩ := List.head?_eq_some_iff.mp (first c isFirst)
    simpa [opensComment] using opens
  | case7 cs opens => exact ⟨[], rfl, .nil⟩
  | case8 cs ih =>
    obtain ⟨inside, still, ⟨gap, split, isGap⟩ | ⟨split, ended⟩⟩ := ih
    · refine ⟨'/' :: '*' :: (inside ++ '*' :: '/' :: gap), ?_, .block still isGap⟩
      have whole := congrArg ('/' :: '*' :: ·) split
      simpa using whole
    · exact ⟨'/' :: '*' :: inside, by rw [ended, List.append_nil, split], .openBlock ended still⟩
  | case9 c cs _ _ _ blank ih =>
    obtain ⟨gap, split, isGap⟩ := ih
    exact ⟨c :: gap, congrArg (c :: ·) split, .blank blank isGap⟩
  | case10 c cs => exact ⟨[], rfl, .nil⟩

theorem skipGap_blank {c : Char} (blank : Text.isBlank c = true) (cs : List Char) :
    skipGap .blank (c :: cs) = skipGap .blank cs := by
  have noHash : c ≠ '#' := by rintro rfl; exact absurd blank (by decide)
  have noDash : c ≠ '-' := by rintro rfl; exact absurd blank (by decide)
  have noSlash : c ≠ '/' := by rintro rfl; exact absurd blank (by decide)
  rw [skipGap.eq_def]
  split <;> simp_all

theorem skipGap_line {line : List Char} (oneLine : '\n' ∉ line) (rest : List Char) :
    skipGap .line (line ++ rest) = skipGap .line rest := by
  induction line with
  | nil => rfl
  | cons c line ih =>
    rw [List.mem_cons, not_or] at oneLine
    rw [List.cons_append, skipGap, if_neg (Ne.symm oneLine.1), ih oneLine.2]

theorem skipGap_newline (rest : List Char) : skipGap .line ('\n' :: rest) = skipGap .blank rest := by
  rw [skipGap, if_pos rfl]

theorem skipGap_inside {c : Char} {cs : List Char} (apart : ¬ (c = '*' ∧ cs.head? = some '/')) :
    skipGap .block (c :: cs) = skipGap .block cs := by
  rw [skipGap.eq_def]
  split <;> simp_all

theorem skipGap_block {inside : List Char} (still : NoClosing inside) (rest : List Char) :
    skipGap .block (inside ++ '*' :: '/' :: rest) = skipGap .blank rest := by
  induction inside with
  | nil => rfl
  | cons c inside ih =>
    obtain ⟨still, apart⟩ := noClosing_cons.mp still
    rw [List.cons_append, skipGap_inside, ih still]
    cases inside with
    | nil => simp
    | cons d inside => exact apart

theorem skipGap_openBlock {inside : List Char} (still : NoClosing inside) : skipGap .block inside = [] := by
  induction inside with
  | nil => rfl
  | cons c inside ih =>
    obtain ⟨still, apart⟩ := noClosing_cons.mp still
    rw [skipGap_inside apart, ih still]

theorem IsLineComment.skips {comment : List Char} (isComment : IsLineComment comment) (rest : List Char)
    (ended : rest = [] ∨ rest.head? = some '\n') :
    skipGap .blank (comment ++ rest) = skipGap .line rest := by
  cases isComment with
  | hash oneLine => exact skipGap_line oneLine rest
  | @dashes line opens oneLine =>
    have isOpen : opensComment (line ++ rest) = true := by
      cases line with
      | nil =>
        rcases ended with rfl | newline
        · rfl
        · obtain ⟨more, rfl⟩ := List.head?_eq_some_iff.mp newline
          rfl
      | cons c line => simpa [opensComment] using opens c rfl
    show skipGap .blank ('-' :: '-' :: (line ++ rest)) = _
    rw [skipGap, if_pos isOpen, skipGap_line oneLine]

/-- A gap is skipped before anything, or at the end if its last comment is left open. -/
theorem IsGap.skips {ends : Prop} {gap : List Char} (isGap : IsGap ends gap) {rest : List Char}
    (last : ends → rest = []) : skipGap .blank (gap ++ rest) = skipGap .blank rest := by
  induction isGap with
  | nil => rfl
  | blank blank _ ih => rw [List.cons_append, skipGap_blank blank, ih]
  | @line comment gap isComment _ ih =>
    rw [List.append_assoc, isComment.skips _ (.inr rfl), List.cons_append, skipGap_newline, ih]
  | @block inside gap still _ ih =>
    show skipGap .blank ('/' :: '*' :: (inside ++ '*' :: '/' :: gap ++ rest)) = _
    rw [skipGap, List.append_assoc, List.cons_append, List.cons_append, skipGap_block still, ih]
  | openLine isEnd isComment =>
    rw [last isEnd, isComment.skips [] (.inl rfl)]
    rfl
  | @openBlock inside isEnd still =>
    rw [last isEnd, List.append_nil]
    exact skipGap_openBlock still

end MiniSql.Lexer
