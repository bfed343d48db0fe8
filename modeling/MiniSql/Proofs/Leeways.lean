import MiniSql.Grammar.Parser

namespace MiniSql

/-- Whether a phrase never goes on with the token: the token opens a clause, or is a semicolon. -/
def Token.endsPhrase (t : Token) : Bool :=
  t.clause?.isSome || t.isKind .separator ";"

theorem Token.endsPhrase_cases {t : Token} (ends : t.endsPhrase) :
    (∃ c, t.kind = .clause c) ∨ t.kind = .separator ∧ t.value = ";" := by
  simp only [Token.endsPhrase, Token.isKind, Bool.or_eq_true, Bool.and_eq_true, decide_eq_true_eq] at ends
  refine ends.imp_left fun clause => ?_
  unfold Token.clause? at clause
  split at clause
  · next c is => exact ⟨c, is⟩
  · cases clause

namespace Parser

variable {tokens left rest : List Token} {t : Token} {test other : Token → Bool}

/-- The tokens begin with the end of a phrase, if there are any. -/
def Closed (tokens : List Token) : Prop :=
  ∀ t ∈ tokens.head?, t.endsPhrase

/-- No token that ends a phrase passes the test. -/
def Continues (test : Token → Bool) : Prop :=
  ∀ t : Token, t.endsPhrase → test t = false

namespace Continues

theorem of_kind (only : ∀ t, test t → t.kind ≠ .separator ∧ ∀ c, t.kind ≠ .clause c) : Continues test := by
  intro t ends
  refine Bool.eq_false_iff.mpr fun passes => ?_
  obtain ⟨c, is⟩ | ⟨is, _⟩ := Token.endsPhrase_cases ends
  · exact (only t passes).2 c is
  · exact (only t passes).1 is

theorem isKind {kind : TokenKind} (value : String) (inside : kind ≠ .separator) (noClause : ∀ c, kind ≠ .clause c) :
    Continues fun t => t.isKind kind value := by
  refine of_kind fun t passes => ?_
  simp only [Token.isKind, Bool.and_eq_true, decide_eq_true_eq] at passes
  exact passes.1 ▸ ⟨inside, noClause⟩

theorem isReserved (value : String) : Continues fun t => t.isReserved value :=
  isKind value (by simp) (by simp)

theorem isOperator (value : String) : Continues fun t => t.isOperator value :=
  isKind value (by simp) (by simp)

theorem isOpen : Continues Parser.isOpen :=
  isKind "(" (by simp) (by simp)

theorem isClose : Continues Parser.isClose :=
  isKind ")" (by simp) (by simp)

theorem isName : Continues Parser.isName := by
  refine of_kind fun t passes => ?_
  simp only [Parser.isName, decide_eq_true_eq] at passes
  simp [passes]

/-- The separators inside a phrase. -/
theorem separator {value : String} (other : value ≠ ";") : Continues fun t => t.isKind .separator value := by
  intro t ends
  refine Bool.eq_false_iff.mpr fun passes => ?_
  simp only [Token.isKind, Bool.and_eq_true, decide_eq_true_eq] at passes
  obtain ⟨c, is⟩ | ⟨_, is⟩ := Token.endsPhrase_cases ends
  · exact absurd (is.symm.trans passes.1) (by simp)
  · exact other (passes.2.symm.trans is)

theorem isComma : Continues Parser.isComma :=
  separator (by decide)

theorem isPoint : Continues Parser.isPoint :=
  separator (by decide)

theorem or (one : Continues test) (two : Continues other) : Continues fun t => test t || other t :=
  fun t ends => by simp [one t ends, two t ends]

end Continues

/-- How the tokens behind a part may differ: where all tokens are plain, the last of them may be missing, and there
may be more of them, the first of which ends a phrase. -/
structure Leeway where
  plain : Token → Bool
  ends : Token → Bool
  endsPhrase : ∀ t, ends t = true → t.endsPhrase = true

namespace Leeway

def none : Leeway where
  plain _ := false
  ends _ := false
  endsPhrase _ := Bool.noConfusion

/-- There may be further phrases. -/
def longer : Leeway where
  plain _ := false
  ends := Token.endsPhrase
  endsPhrase _ := id

/-- Tokens may be missing. -/
def shorter (plain : Token → Bool) : Leeway where
  plain := plain
  ends _ := false
  endsPhrase _ := Bool.noConfusion

/-- The same, but for tokens that are missing. -/
def whole (leeway : Leeway) : Leeway :=
  { leeway with plain := fun _ => false }

end Leeway

variable {leeway : Leeway}

/-- What may stand behind a part in place of the `left` of the tokens. -/
def Remains (leeway : Leeway) (tokens left rest : List Token) : Prop :=
  (∃ more, (∀ t ∈ more.head?, leeway.ends t = true) ∧ rest = left ++ more) ∨
    rest <+: left ∧ ∀ t ∈ tokens, leeway.plain t = true

namespace Remains

theorem refl (tokens left : List Token) : Remains leeway tokens left left :=
  .inl ⟨[], nofun, (List.append_nil left).symm⟩

theorem append (remains : Remains leeway tokens left rest) (front : List Token) :
    Remains leeway tokens (front ++ left) (front ++ rest) := by
  refine remains.imp ?_ (And.imp_left (List.prefix_append_right_inj front).mpr)
  rintro ⟨more, ends, rfl⟩
  exact ⟨more, ends, (List.append_assoc ..).symm⟩

theorem behind {front : List Token} (remains : Remains leeway (front ++ tokens) left rest) :
    Remains leeway tokens left rest :=
  remains.imp_right (And.imp_right fun all t member => all t (List.mem_append_right front member))

theorem behindToken (remains : Remains leeway (t :: tokens) left rest) : Remains leeway tokens left rest :=
  remains.imp_right (And.imp_right fun all u member => all u (List.mem_cons_of_mem t member))

theorem head?_cases (remains : Remains leeway tokens left rest) :
    rest.head? = left.head? ∨ ∀ t ∈ rest.head?, leeway.ends t = true := by
  obtain ⟨more, ends, rfl⟩ | ⟨⟨cut, rfl⟩, _⟩ := remains
  · cases left with
    | nil => exact .inr ends
    | cons t left => exact .inl rfl
  · cases rest with
    | nil => exact .inr nofun
    | cons t rest => exact .inl rfl

theorem cons_cases (remains : Remains leeway tokens (t :: left) rest) :
    rest = [] ∨ ∃ rest', rest = t :: rest' ∧ Remains leeway tokens left rest' := by
  obtain ⟨more, ends, rfl⟩ | ⟨before, all⟩ := remains
  · exact .inr ⟨left ++ more, rfl, .inl ⟨more, ends, rfl⟩⟩
  · refine (List.prefix_cons_iff.mp before).imp_right ?_
    rintro ⟨rest', rfl, shorter⟩
    exact ⟨rest', rfl, .inr ⟨shorter, all⟩⟩

theorem any_head (remains : Remains leeway tokens left rest) (continues : Continues test)
    (fails : left.head?.any test = false) : rest.head?.any test = false := by
  obtain same | ends := remains.head?_cases
  · rwa [same]
  · cases rest with
    | nil => rfl
    | cons t rest => exact continues t (leeway.endsPhrase t (ends t rfl))

theorem any_both (remains : Remains leeway tokens left rest) (one : Continues test) (two : Continues other)
    (fails : (left.head?.any test && left.tail.head?.any other) = false) :
    (rest.head?.any test && rest.tail.head?.any other) = false := by
  cases left with
  | nil => rw [remains.any_head one rfl, Bool.false_and]
  | cons t left =>
    obtain rfl | ⟨rest, rfl, behind⟩ := remains.cons_cases
    · rfl
    · rw [Bool.and_eq_false_iff] at fails ⊢
      exact fails.imp_right (behind.any_head two)

/-- Nothing is missing where a token is not plain. -/
theorem whole (remains : Remains leeway tokens left rest) (member : t ∈ tokens) (strange : leeway.plain t = false) :
    Remains leeway.whole tokens left rest :=
  remains.elim .inl fun ⟨_, all⟩ => absurd (all t member) (by simp [strange])

end Remains

end Parser

end MiniSql
