import MiniSql.Proofs.Curtailing

namespace MiniSql

/-- What a token is, wherever it stands. -/
def Token.content (t : Token) : TokenKind × String × String := (t.kind, t.value, t.raw)

namespace Lexer

variable {rest rest' : List Char} {tokens tokens' : List Token}

theorem reads_dash {cs : List Char} {lexeme : Lexeme} (reads : Reads '-' cs lexeme) :
    lexeme = ⟨.operator, "-", cs⟩ := by
  cases reads with
  | number number => simp at number
  | string quote => simp at quote
  | name tick => simp at tick
  | word starts => exact absurd starts (by decide)
  | symbol _ _ _ _ found =>
    cases found
    rfl

/-- What opens no gap. -/
theorem solid_cons {c : Char} {cs : List Char} (stands : skipGap .blank (c :: cs) = c :: cs) :
    Text.isBlank c = false ∧ c ≠ '#' ∧ (c = '/' → cs.head? ≠ some '*') ∧
      (c = '-' → cs.head? = some '-' → opensComment cs.tail = false) := by
  have shorter : ∀ gap before more, cs = before ++ more → skipGap .blank (c :: cs) ≠ skipGap gap more := by
    rintro gap before more rfl same
    have size := skipGap_length gap more
    rw [← same, stands, List.length_cons, List.length_append] at size
    omega
  refine ⟨?_, ?_, ?_, ?_⟩
  · cases blank : Text.isBlank c with
    | false => rfl
    | true => exact absurd (skipGap_blank blank cs) (shorter _ [] cs rfl)
  · rintro rfl
    exact shorter .line [] cs rfl rfl
  · rintro rfl first
    obtain ⟨more, rfl⟩ := List.head?_eq_some_iff.mp first
    exact shorter .block ['*'] more rfl rfl
  · rintro rfl first
    obtain ⟨more, rfl⟩ := List.head?_eq_some_iff.mp first
    cases opens : opensComment more with
    | false => exact opens
    | true => exact absurd (by rw [skipGap, if_pos opens]) (shorter .line ['-'] more rfl)

/-- A lexeme opens no gap before less text, unless two dashes do. -/
theorem Reads.stands {c : Char} {front : List Char} {lexeme : Lexeme} (reads : Reads c (front ++ rest) lexeme)
    (ends : lexeme.rest = rest) (stands : skipGap .blank (c :: (front ++ rest)) = c :: (front ++ rest))
    (curtails : Curtails rest rest')
    (dashes : c = '-' → rest'.head? = some '-' → opensComment rest'.tail = false) :
    skipGap .blank (c :: (front ++ rest')) = c :: (front ++ rest') := by
  obtain ⟨solid, noHash, noBlock, _⟩ := solid_cons stands
  by_cases dash : c = '-'
  · subst dash
    obtain rfl : front = [] := List.append_left_eq_self.mp ((congrArg Lexeme.rest (reads_dash reads)).symm.trans ends)
    rw [List.nil_append]
    by_cases first : rest'.head? = some '-'
    · have apart := dashes rfl first
      obtain ⟨more, rfl⟩ := List.head?_eq_some_iff.mp first
      rw [List.tail_cons] at apart
      rw [skipGap, apart]
      rfl
    · exact skipGap_solid solid noHash (fun _ => first) fun slash => absurd slash (by decide)
  · refine skipGap_solid solid noHash (fun same => absurd same dash) fun slash first => noBlock slash ?_
    exact (curtails.append front).head first (by decide)

/-- The second text consists of the lexemes of the first one, after other gaps. The second tokens are
those of the second text, which starts at byte `offset`. -/
inductive Respaced : Nat → List Char → List Char → List Token → List Token → Prop
  | done {offset cs cs'} : IsGap True cs' → Respaced offset cs cs' [] []
  | token {offset gap gap' c front rest rest' tokens tokens'} {t t' : Token} : IsGap False gap → IsGap False gap' →
      skipGap .blank (c :: (front ++ rest)) = c :: (front ++ rest) →
      skipGap .blank (c :: (front ++ rest')) = c :: (front ++ rest') →
      Reads c (front ++ rest) ⟨t.kind, t.value, rest⟩ → t.raw = String.ofList (c :: front) →
      t'.content = t.content → t'.offset = offset + Text.byteLength gap' →
      Curtails rest rest' → Respaced t'.finish rest rest' tokens tokens' →
      Respaced offset (gap ++ c :: (front ++ rest)) (gap' ++ c :: (front ++ rest')) (t :: tokens) (t' :: tokens')

/-- A word in upper case that no keyword of several words opens with. -/
def GoesOn (word : String) : Prop :=
  (word.toList.all fun c => c.toLower.toNat < 128 && c.toLower.toUpper = c) = true ∧
    ∀ entry ∈ continuations, entry.1 ≠ word

theorem continuations_goOn : ∀ entry ∈ continuations, ∀ word ∈ entry.2.1, GoesOn word := by
  unfold GoesOn
  decide

/-- A word that goes on a keyword stands alone where it is read as a lexeme. -/
theorem readWord_goesOn {cs : List Char} {word : String} (goesOn : GoesOn word)
    (same : Text.sameName (String.ofList (cs.takeWhile isWordPart)) word = true) :
    (readWord cs).rest = cs.dropWhile isWordPart := by
  rcases readWord_cases cs with alone | ⟨entry, listed, first, _⟩
  · exact alone
  · rw [toUpper_of_sameName same goesOn.1] at first
    exact absurd first (goesOn.2 entry listed)

/-- Words that do not follow in a text do not follow where it is spaced otherwise. -/
theorem Respaced.afterWords? {offset : Nat} {cs cs' : List Char} (respaced : Respaced offset cs cs' tokens tokens')
    {words : List String} (goOn : ∀ word ∈ words, GoesOn word) (missing : afterWords? words cs = none) :
    afterWords? words cs' = none := by
  induction words generalizing offset cs cs' tokens tokens' with
  | nil => cases missing
  | cons word words ih =>
    cases respaced with
    | done isGap =>
      have skips := isGap.skips fun _ => rfl
      rw [List.append_nil, skipGap] at skips
      simp [Lexer.afterWords?, skips]
    | @token _ gap gap' c front rest rest' _ _ t t' isGap isGap' stands stands' reads _ _ _ curtails respaced =>
      have starts : skipGap .blank (gap ++ c :: (front ++ rest)) = c :: (front ++ rest) :=
        (isGap.skips False.elim).trans stands
      have starts' : skipGap .blank (gap' ++ c :: (front ++ rest')) = c :: (front ++ rest') :=
        (isGap'.skips False.elim).trans stands'
      simp only [Lexer.afterWords?, starts, starts', List.head?_cons, Option.any_some] at missing ⊢
      by_cases isWord : startsWord c = true
      · have read := congrArg Lexeme.rest (reads.unique (.word isWord))
        obtain ⟨back, dropped⟩ := readWord_after (c :: (front ++ rest))
        rw [← read] at dropped
        obtain ⟨taken, dropped'⟩ := word_curtailed (c :: front) dropped.symm curtails
        rw [List.cons_append, List.cons_append] at taken
        rw [List.cons_append] at dropped'
        rw [taken, dropped']
        rw [← dropped] at missing
        by_cases same : Text.sameName (String.ofList ((c :: (front ++ rest)).takeWhile isWordPart)) word = true
        · have alone := readWord_goesOn (goOn word (List.mem_cons_self ..)) same
          rw [← read, ← dropped] at alone
          obtain rfl : back = [] := List.self_eq_append_left.mp alone
          simp only [isWord, same, Bool.and_self, if_true, List.nil_append] at missing ⊢
          exact ih respaced (fun word listed => goOn word (.tail _ listed)) missing
        · simp [same]
      · simp [isWord]

/-- A text that is spaced otherwise has the same tokens. -/
theorem Respaced.scanned {offset : Nat} {cs cs' : List Char} (respaced : Respaced offset cs cs' tokens tokens') :
    Scanned offset cs' tokens' ∧ tokens'.map Token.content = tokens.map Token.content := by
  induction respaced with
  | done isGap => exact ⟨.done isGap, rfl⟩
  | @token offset gap gap' c front rest rest' tokens tokens' t t' isGap isGap' stands stands' reads raw same starts
      curtails respaced ih =>
    have noWords : ∀ entry ∈ continuations, Lexer.afterWords? entry.2.1 rest = none →
        Lexer.afterWords? entry.2.1 rest' = none :=
      fun entry listed => respaced.afterWords? (continuations_goOn entry listed)
    have reads' := reads.curtailed rfl curtails noWords
    simp only [Token.content, Prod.mk.injEq] at same
    obtain ⟨kind, value, sameRaw⟩ := same
    refine ⟨.token isGap' stands' ?_ (sameRaw.trans raw) starts ih.1, ?_⟩
    · rwa [kind, value]
    · rw [List.map_cons, List.map_cons, ih.2, Token.content, kind, value, sameRaw]
      rfl

/-- Blanks and closed comments, a blank first. -/
def IsSeparator (text : String) : Prop :=
  IsGap False text.toList ∧ ∃ c ∈ text.toList.head?, Text.isBlank c = true

/-- The text of tokens with what follows each. -/
def spaced (parts : List (Token × String)) : String :=
  String.join (parts.map fun part => part.1.raw ++ part.2)

theorem spaced_cons (part : Token × String) (parts : List (Token × String)) :
    (spaced (part :: parts)).toList = part.1.raw.toList ++ (part.2.toList ++ (spaced parts).toList) := by
  simp [spaced, String.join_cons]

/-- A text can be spaced otherwise by separators. -/
theorem Scanned.respaced {offset : Nat} {cs gap : List Char} {parts : List (Token × String)}
    (scanned : Scanned offset cs (parts.map Prod.fst)) (isGap : IsGap False gap)
    (between : ∀ part ∈ parts.dropLast, IsSeparator part.2)
    (last : ∀ part ∈ parts.getLast?, part.2 = "" ∨ IsSeparator part.2) (offset' : Nat) :
    ∃ tokens, Respaced offset' cs (gap ++ (spaced parts).toList) (parts.map Prod.fst) tokens := by
  induction parts generalizing offset offset' cs gap with
  | nil => exact ⟨[], .done (by simpa [spaced] using isGap.mono False.elim)⟩
  | cons part parts ih =>
    obtain ⟨t, after⟩ := part
    have follows : IsGap False after.toList ∧
        ∀ c ∈ (after.toList ++ (spaced parts).toList).head?, Text.isBlank c = true := by
      have separator : IsSeparator after ∨ after = "" ∧ parts = [] := by
        cases parts with
        | nil => exact (last _ rfl).symm.imp_right fun nothing => ⟨nothing, rfl⟩
        | cons part parts => exact .inl (between _ (List.mem_cons_self ..))
      rcases separator with ⟨isGap, first⟩ | ⟨rfl, rfl⟩
      · obtain ⟨b, starts, blank⟩ := first
        refine ⟨isGap, fun c first => ?_⟩
        rw [List.head?_append, starts] at first
        exact Option.some.inj first ▸ blank
      · exact ⟨.nil, by simp [spaced]⟩
    cases scanned with
    | @token _ gap' c front rest _ _ isGap' stands reads raw starts scanned =>
      have curtails := curtails_of_blank rest follows.2
      have stands' := reads.stands rfl stands curtails fun _ dash =>
        absurd (follows.2 _ dash) (by decide)
      let t' : Token := { t with offset := offset' + Text.byteLength gap }
      have between' : ∀ part ∈ parts.dropLast, IsSeparator part.2 := by
        intro part listed
        refine between part ?_
        cases parts with
        | nil => cases listed
        | cons => exact .tail _ listed
      have last' : ∀ part ∈ parts.getLast?, part.2 = "" ∨ IsSeparator part.2 :=
        fun part isLast => last part (List.mem_getLast?_cons isLast)
      obtain ⟨tokens, respaced⟩ := ih scanned follows.1 between' last' t'.finish
      have text : (spaced ((t, after) :: parts)).toList =
          c :: (front ++ (after.toList ++ (spaced parts).toList)) := by
        rw [spaced_cons, raw, String.toList_ofList, List.cons_append]
      rw [text]
      exact ⟨t' :: tokens, .token isGap' isGap stands stands' reads raw rfl rfl curtails respaced⟩

/-- The tokens of a text do not depend on how much separates them. -/
theorem ofText_respaced {sql before : String} {parts : List (Token × String)}
    (scanned : Token.ofText sql = .ok (parts.map Prod.fst)) (first : before = "" ∨ IsSeparator before)
    (between : ∀ part ∈ parts.dropLast, IsSeparator part.2)
    (last : ∀ part ∈ parts.getLast?, part.2 = "" ∨ IsSeparator part.2) :
    ∃ tokens, Token.ofText (before ++ spaced parts) = .ok tokens ∧
      tokens.map Token.content = parts.map fun part => part.1.content := by
  have isGap : IsGap False before.toList := by
    rcases first with rfl | separator
    · exact .nil
    · exact separator.1
  obtain ⟨tokens, respaced⟩ := (ofText_eq_ok.mp scanned).respaced isGap between last 0
  obtain ⟨scanned', same⟩ := respaced.scanned
  refine ⟨tokens, ofText_eq_ok.mpr ?_, same.trans List.map_map⟩
  rwa [String.toList_append]

/-- The tokens of `1--2 ON/**/DUPLICATE`, and what each is to be followed by. -/
def dashes : List (Token × String) :=
  [(⟨.numeric, "1", "1", 0⟩, " "), (⟨.operator, "-", "-", 1⟩, "\n/*-*/"), (⟨.operator, "-", "-", 2⟩, " "),
    (⟨.numeric, "2", "2", 3⟩, "\t"), (⟨.reserved, "ON", "ON", 5⟩, " #x\n"),
    (⟨.reserved, "DUPLICATE", "DUPLICATE", 11⟩, "")]

/-- Neither the dashes nor the words become another token when they are moved apart. -/
theorem dashes_respaced : Token.ofText "1--2 ON/**/DUPLICATE" = .ok (dashes.map Prod.fst) ∧
    ∃ tokens, Token.ofText " 1 -\n/*-*/- 2\tON #x\nDUPLICATE" = .ok tokens ∧
      tokens.map Token.content = dashes.map fun part => part.1.content := by
  have scanned : Token.ofText "1--2 ON/**/DUPLICATE" = .ok (dashes.map Prod.fst) := by decide +kernel
  have space : IsSeparator " " := ⟨.blank rfl .nil, _, rfl, rfl⟩
  have block : IsSeparator "\n/*-*/" := ⟨.blank rfl (@IsGap.block False ['-'] [] (by decide) .nil), _, rfl, rfl⟩
  have tab : IsSeparator "\t" := ⟨.blank rfl .nil, _, rfl, rfl⟩
  have line : IsSeparator " #x\n" :=
    ⟨.blank rfl (@IsGap.line False ['#', 'x'] [] (.hash (by decide)) .nil), _, rfl, rfl⟩
  have between : ∀ part ∈ dashes.dropLast, IsSeparator part.2 := by
    simp [dashes, space, block, tab, line]
  exact ⟨scanned, ofText_respaced scanned (.inr space) between (by simp [dashes])⟩

end Lexer

end MiniSql
