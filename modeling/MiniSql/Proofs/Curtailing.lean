import MiniSql.Proofs.Covering
import MiniSql.Proofs.Quoted

namespace MiniSql.Lexer

/-- What the second text starts with, up to its first blank, the first one starts with too. -/
def Curtails (rest rest' : List Char) : Prop :=
  ∀ front, (∀ c ∈ front, Text.isBlank c = false) → front <+: rest' → front <+: rest

variable {rest rest' : List Char}

theorem curtails_of_blank (rest : List Char) (blank : ∀ c ∈ rest'.head?, Text.isBlank c = true) :
    Curtails rest rest' := by
  intro front solid starts
  cases front with
  | nil => exact List.nil_prefix
  | cons c front =>
    obtain ⟨more, rfl⟩ := starts
    exact absurd (blank c rfl) (by simp [solid c])

theorem curtails_append (part rest : List Char) : Curtails (part ++ rest) part :=
  fun _ _ starts => starts.trans (List.prefix_append part rest)

theorem Curtails.append (curtails : Curtails rest rest') (before : List Char) :
    Curtails (before ++ rest) (before ++ rest') := by
  induction before with
  | nil => exact curtails
  | cons b before ih =>
    intro front solid starts
    cases front with
    | nil => exact List.nil_prefix
    | cons c front =>
      rw [List.cons_append, List.cons_prefix_cons] at starts ⊢
      exact ⟨starts.1, ih front (fun c listed => solid c (.tail _ listed)) starts.2⟩

theorem Curtails.head {c : Char} (curtails : Curtails rest rest') (first : rest'.head? = some c)
    (solid : Text.isBlank c = false) : rest.head? = some c := by
  obtain ⟨more, rfl⟩ := List.head?_eq_some_iff.mp first
  obtain ⟨more, rfl⟩ := curtails [c] (by simpa using solid) (by simp)
  rfl

theorem isDigit_solid {c : Char} (digit : c.isDigit = true) : Text.isBlank c = false := by
  have bounds : 48 ≤ c.toNat ∧ c.toNat ≤ 57 := Char.isDigit_iff_toNat.mp digit
  simp [Text.isBlank, Text.inRanges]
  omega

theorem isBlank_codes {c : Char} (blank : Text.isBlank c = true) :
    c.toNat ∈ [9, 10, 11, 12, 13, 32, 133, 160, 5760, 8192, 8193, 8194, 8195, 8196, 8197, 8198, 8199, 8200, 8201,
      8202, 8232, 8233, 8239, 8287, 12288] := by
  simp [Text.isBlank, Text.inRanges] at blank
  simp only [List.mem_cons, List.not_mem_nil, or_false]
  omega

theorem isWordPart_solid {c : Char} (part : isWordPart c = true) : Text.isBlank c = false := by
  have blanks : ∀ n ∈ [9, 10, 11, 12, 13, 32, 133, 160, 5760, 8192, 8193, 8194, 8195, 8196, 8197, 8198, 8199, 8200, 8201,
      8202, 8232, 8233, 8239, 8287, 12288], isWordPart (Char.ofNat n) = false := by decide +kernel
  cases blank : Text.isBlank c with
  | false => rfl
  | true =>
    have noPart := blanks _ (isBlank_codes blank)
    rw [Char.ofNat_toNat, part] at noPart
    cases noPart

/-- A part of a number that ends in a digit, with whether a point has been seen before and after it. -/
inductive NumberPart : Bool → List Char → Bool → Prop
  | digit {pointSeen d} : d.isDigit → NumberPart pointSeen [d] pointSeen
  | point {d} : d.isDigit → NumberPart false ['.', d] true
  | power {pointSeen e d} : e = 'e' ∨ e = 'E' → d.isDigit → NumberPart pointSeen [e, d] pointSeen
  | signed {pointSeen e s d} : e = 'e' ∨ e = 'E' → s = '+' ∨ s = '-' → d.isDigit →
      NumberPart pointSeen [e, s, d] pointSeen

variable {pointSeen pointSeen' : Bool} {part : List Char}

theorem NumberPart.skips (isPart : NumberPart pointSeen part pointSeen') (cs : List Char) :
    skipNumber pointSeen (part ++ cs) = skipNumber pointSeen' cs := by
  cases isPart with
  | digit digit => exact skipNumber_digit digit _ cs
  | point digit => simp [skipNumber, startsDigit, digit, skipNumber_digit digit]
  | power power digit => rcases power with rfl | rfl <;> simp [skipNumber, digit, skipNumber_digit digit]
  | signed power sign digit =>
    rcases power with rfl | rfl <;> rcases sign with rfl | rfl <;>
      simp [skipNumber, startsDigit, digit, skipNumber_digit digit]

theorem NumberPart.solid (isPart : NumberPart pointSeen part pointSeen') : ∀ c ∈ part, Text.isBlank c = false := by
  cases isPart with
  | digit digit => simp [isDigit_solid digit]
  | point digit => simp [isDigit_solid digit]; decide
  | power power digit => rcases power with rfl | rfl <;> simp [isDigit_solid digit] <;> decide
  | signed power sign digit =>
    rcases power with rfl | rfl <;> rcases sign with rfl | rfl <;> simp [isDigit_solid digit] <;> decide

theorem NumberPart.positive (isPart : NumberPart pointSeen part pointSeen') : 0 < part.length := by
  cases isPart <;> simp

theorem startsDigit_eq_true {cs : List Char} (starts : startsDigit cs = true) :
    ∃ d more, cs = d :: more ∧ d.isDigit = true := by
  cases cs with
  | nil => cases starts
  | cons d more => exact ⟨d, more, rfl, starts⟩

/-- A number goes on by a part, or it does not. -/
theorem skipNumber_cases (pointSeen : Bool) (cs : List Char) :
    skipNumber pointSeen cs = cs ∨
      ∃ part pointSeen' more, cs = part ++ more ∧ NumberPart pointSeen part pointSeen' := by
  fun_cases skipNumber pointSeen cs with
  | case1 | case3 | case7 | case8 | case10 => exact .inl rfl
  | case2 cs both =>
    simp only [Bool.and_eq_true, Bool.not_eq_true'] at both
    obtain ⟨rfl, starts⟩ := both
    obtain ⟨d, more, rfl, digit⟩ := startsDigit_eq_true starts
    exact .inr ⟨['.', d], true, more, rfl, .point digit⟩
  | case4 c s cs _ digit => exact .inr ⟨[c], pointSeen, s :: cs, rfl, .digit digit⟩
  | case5 c s cs _ _ power digit => exact .inr ⟨[c, s], pointSeen, cs, rfl, .power power digit⟩
  | case6 c s cs _ _ power _ both =>
    obtain ⟨d, more, rfl, digit⟩ := startsDigit_eq_true both.2
    exact .inr ⟨[c, s, d], pointSeen, more, rfl, .signed power both.1 digit⟩
  | case9 c _ digit => exact .inr ⟨[c], pointSeen, [], rfl, .digit digit⟩

theorem NumberPart.moves (isPart : NumberPart pointSeen part pointSeen') (cs : List Char) :
    (skipNumber pointSeen (part ++ cs)).length < (part ++ cs).length := by
  have size := (skipNumber_suffix pointSeen' cs).length_le
  have positive := isPart.positive
  rw [isPart.skips, List.length_append]
  omega

/-- A number is read in the same way before less text. -/
theorem skipNumber_curtailed {front : List Char} (read : skipNumber pointSeen (front ++ rest) = rest)
    (curtails : Curtails rest rest') : skipNumber pointSeen (front ++ rest') = rest' := by
  induction size : front.length using Nat.strong_induction_on generalizing pointSeen front with
  | _ size ih =>
    rcases skipNumber_cases pointSeen (front ++ rest) with stays | ⟨part, pointSeen', more, split, isPart⟩
    · obtain rfl : front = [] := List.self_eq_append_left.mp (read.symm.trans stays)
      rw [List.nil_append] at read ⊢
      rcases skipNumber_cases pointSeen rest' with stays | ⟨part, pointSeen', more, rfl, isPart⟩
      · exact stays
      · obtain ⟨more, rfl⟩ := curtails part isPart.solid (List.prefix_append _ _)
        have moves := isPart.moves more
        rw [read] at moves
        exact absurd moves (Nat.lt_irrefl _)
    · rw [split, isPart.skips] at read
      obtain ⟨back, rfl⟩ : rest <:+ more := read ▸ skipNumber_suffix pointSeen' more
      obtain rfl : front = part ++ back := List.append_cancel_right (split.trans (List.append_assoc _ _ _).symm)
      have positive := isPart.positive
      rw [List.length_append] at size
      rw [List.append_assoc, isPart.skips]
      exact ih back.length (by omega) read rfl

/-- What stands in quotes is read in the same way before less text. -/
theorem readQuoted_curtailed {quote : Char} {escapes : Bool} {front value : List Char}
    (read : readQuoted quote escapes (front ++ rest) = some (value, rest)) (solid : Text.isBlank quote = false)
    (curtails : Curtails rest rest') : readQuoted quote escapes (front ++ rest') = some (value, rest') := by
  have closes : rest.head? ≠ some quote → readQuoted quote escapes (quote :: rest') = some ([], rest') :=
    fun single => readQuoted_closes escapes fun doubled => single (curtails.head doubled solid)
  generalize text : front ++ rest = cs at read
  fun_induction readQuoted quote escapes cs generalizing front value with
  | case1 | case3 => cases read
  | case2 =>
    cases read
    obtain rfl : front = [quote] := by simpa using text
    exact closes (by simp)
  | case5 d cs other =>
    cases read
    obtain rfl : front = [quote] := List.append_cancel_right text
    exact closes fun same => other (Option.some.inj same)
  | case4 cs ih =>
    obtain ⟨⟨inside, _⟩, found, same⟩ := Option.map_eq_some_iff.mp read
    cases same
    obtain ⟨back, rfl⟩ := readQuoted_suffix found
    obtain rfl : front = quote :: quote :: back := List.append_cancel_right text
    simp [readQuoted, ih rfl found]
  | case6 c d cs noQuote escape ih =>
    obtain ⟨⟨inside, _⟩, found, same⟩ := Option.map_eq_some_iff.mp read
    cases same
    obtain ⟨back, rfl⟩ := readQuoted_suffix found
    obtain rfl : front = c :: d :: back := List.append_cancel_right text
    rw [List.cons_append, List.cons_append, readQuoted, if_neg noQuote, if_pos escape, ih rfl found]
    rfl
  | case7 c d cs noQuote noEscape ih =>
    obtain ⟨⟨inside, _⟩, found, same⟩ := Option.map_eq_some_iff.mp read
    cases same
    obtain ⟨back, split⟩ := readQuoted_suffix found
    obtain rfl : front = c :: back := List.append_cancel_right (text.trans (congrArg (c :: ·) split.symm))
    rw [List.cons_append, readQuoted_plain noQuote (by simpa using noEscape), ih split found]
    rfl

/-- A symbol is as long before less text. -/
theorem symbol?_curtailed {front : List Char} {kind : TokenKind}
    (read : symbol? (front ++ rest) = some (kind, front.length)) (curtails : Curtails rest rest') :
    symbol? (front ++ rest') = some (kind, front.length) := by
  have kept : ∀ symbol ∈ longSymbols, symbol <+: front ++ rest' → symbol <+: front ++ rest := by
    intro symbol listed
    have solid : (longSymbols.all fun symbol => symbol.all fun c => !Text.isBlank c) = true := by decide
    simp only [List.all_eq_true, Bool.not_eq_true'] at solid
    exact curtails.append front symbol (solid symbol listed)
  cases front with
  | nil => exact absurd (symbol?_size read).1 (by simp)
  | cons c front =>
    rw [List.cons_append, symbol?_eq] at read ⊢
    split at read
    · next symbol found =>
      obtain ⟨starts, before, after, split, others⟩ := List.find?_eq_some_iff_append.mp found
      simp only [Option.some.injEq, Prod.mk.injEq] at read
      obtain ⟨rfl, size⟩ := read
      obtain rfl : symbol = c :: front := by
        have taken := List.prefix_iff_eq_take.mp (of_decide_eq_true starts)
        rw [taken, size, ← List.cons_append, List.take_left]
      have found' : longSymbols.find? (· <+: c :: (front ++ rest')) = some (c :: front) := by
        refine List.find?_eq_some_iff_append.mpr ⟨by simp, before, after, split, fun symbol listed => ?_⟩
        have other := others symbol listed
        simp only [Bool.not_eq_true', decide_eq_false_iff_not] at other ⊢
        exact fun starts => other (kept symbol (split ▸ List.mem_append_left _ listed) starts)
      rw [found']
    · next noLong =>
      have noLong' : longSymbols.find? (· <+: c :: (front ++ rest')) = none := by
        simp only [List.find?_eq_none, decide_eq_true_eq] at noLong ⊢
        exact fun symbol listed starts => noLong symbol listed (kept symbol listed starts)
      rw [noLong']
      exact read

theorem EndsWord.curtailed (ends : EndsWord rest) (curtails : Curtails rest rest') : EndsWord rest' := by
  intro c first
  cases part : isWordPart c with
  | false => rfl
  | true => exact part ▸ ends c (curtails.head first (isWordPart_solid part))

theorem endsWord_dropWhile (cs : List Char) : EndsWord (cs.dropWhile isWordPart) := by
  intro c first
  have found := List.head?_dropWhile_not isWordPart cs
  rwa [first] at found

theorem startsWord_stands {c : Char} (starts : startsWord c = true) (cs : List Char) :
    skipGap .blank (c :: cs) = c :: cs := by
  have other : c ≠ '#' ∧ c ≠ '-' ∧ c ≠ '/' := by
    refine ⟨?_, ?_, ?_⟩ <;> (rintro rfl; revert starts; decide)
  exact skipGap_solid (isWordPart_solid (startsWord_part starts)) other.1 (fun dash => absurd dash other.2.1)
    fun slash => absurd slash other.2.2

/-- A word is read in the same way before less text. -/
theorem word_curtailed (front : List Char) {back : List Char}
    (dropped : (front ++ rest).dropWhile isWordPart = back ++ rest) (curtails : Curtails rest rest') :
    (front ++ rest').takeWhile isWordPart = (front ++ rest).takeWhile isWordPart ∧
      (front ++ rest').dropWhile isWordPart = back ++ rest' := by
  have parts : ((front ++ rest).takeWhile isWordPart).all isWordPart := List.all_takeWhile
  have ends : EndsWord (back ++ rest') := (dropped ▸ endsWord_dropWhile (front ++ rest)).curtailed (curtails.append back)
  have split : front ++ rest = (front ++ rest).takeWhile isWordPart ++ back ++ rest := by
    rw [List.append_assoc, ← dropped, List.takeWhile_append_dropWhile]
  have split' : front ++ rest' = (front ++ rest).takeWhile isWordPart ++ (back ++ rest') := by
    rw [← List.append_assoc, ← List.append_cancel_right split]
  have read := takeWhile_word parts ends
  rwa [← split'] at read

/-- The words that are found are found before less text. -/
theorem afterWords?_curtailed {words : List String} {front : List Char}
    (read : afterWords? words (front ++ rest) = some rest) (curtails : Curtails rest rest') :
    afterWords? words (front ++ rest') = some rest' := by
  induction words generalizing front with
  | nil =>
    obtain rfl : front = [] := List.self_eq_append_left.mp (Option.some.inj read).symm
    rfl
  | cons word words ih =>
    simp only [afterWords?, Option.ite_none_right_eq_some, Bool.and_eq_true] at read ⊢
    obtain ⟨⟨first, same⟩, read⟩ := read
    obtain ⟨back, dropped⟩ := afterWords?_suffix read
    obtain ⟨gap, split, isGap⟩ := skipGap_takes .blank (front ++ rest)
    obtain ⟨c, opens, starts⟩ := (Option.any_eq_true _ _).mp first
    obtain ⟨body, isWord⟩ := List.head?_eq_some_iff.mp opens
    rw [isWord] at split isGap same read dropped
    obtain ⟨before, rfl⟩ : rest <:+ body := (afterWords?_suffix read).trans (dropWhile_word starts body)
    obtain rfl : front = gap ++ c :: before := List.append_cancel_right (by simpa using split)
    have skips : skipGap .blank (gap ++ c :: before ++ rest') = c :: (before ++ rest') := by
      rw [List.append_assoc, isGap.skips fun ended => absurd ended (List.cons_ne_nil _ _)]
      exact startsWord_stands starts _
    obtain ⟨taken, dropped'⟩ := word_curtailed (c :: before) dropped.symm curtails
    rw [← dropped] at read
    rw [List.cons_append] at taken dropped'
    simp only [skips, taken, dropped']
    exact ⟨⟨starts, same⟩, ih read⟩

/-- What a word is that stands alone. -/
def singleWord (word : String) (rest : List Char) : Lexeme :=
  match keywordKind? (Text.toUpper word) with
  | some kind => ⟨kind, Text.toUpper word, rest⟩
  | none => ⟨.name, word, rest⟩

theorem singleWord_rest (word : String) (rest : List Char) : (singleWord word rest).rest = rest := by
  unfold singleWord
  split <;> rfl

theorem singleWord_before (word : String) (rest rest' : List Char) :
    singleWord word rest' = { singleWord word rest with rest := rest' } := by
  unfold singleWord
  split <;> rfl

/-- With keys that differ, only the first entry of a key counts. -/
theorem findSome?_eq_bind {entries : List (String × List String × Clause)} (distinct : (entries.map Prod.fst).Nodup)
    (key : String) (f : String × List String × Clause → Option α) :
    (entries.findSome? fun entry => if entry.1 = key then f entry else none) =
      (entries.find? fun entry => entry.1 = key).bind f := by
  induction entries with
  | nil => rfl
  | cons entry entries ih =>
    obtain ⟨apart, distinct⟩ := List.nodup_cons.mp distinct
    by_cases same : entry.1 = key
    · have none : (entries.find? fun entry => entry.1 = key) = none := by
        refine List.find?_eq_none.mpr fun other listed found => apart ?_
        exact List.mem_map.mpr ⟨other, listed, (of_decide_eq_true found).trans same.symm⟩
      have others := ih distinct
      rw [none, Option.bind_none] at others
      simp only [List.findSome?_cons, List.find?_cons, same, decide_true, Option.bind_some, others]
      cases f entry <;> rfl
    · simp [same, ih distinct]

/-- At most one keyword of several words may open with a word. -/
theorem readWord_eq (cs : List Char) :
    readWord cs =
      match (continuations.find? fun entry => entry.1 = Text.toUpper (String.ofList (cs.takeWhile isWordPart))).bind
        fun entry => (afterWords? entry.2.1 (cs.dropWhile isWordPart)).map (entry.2.2, ·) with
      | some (c, rest) => ⟨.clause c, c.keyword, rest⟩
      | none => singleWord (String.ofList (cs.takeWhile isWordPart)) (cs.dropWhile isWordPart) := by
  unfold readWord
  generalize String.ofList (cs.takeWhile isWordPart) = word, cs.dropWhile isWordPart = rest
  have same : (continuations.findSome? fun entry =>
        if entry.1 = Text.toUpper word then (afterWords? entry.2.1 rest).map (entry.2.2, ·) else none) =
      (continuations.find? fun entry => entry.1 = Text.toUpper word).bind fun entry =>
        (afterWords? entry.2.1 rest).map (entry.2.2, ·) := by
    rw [findSome?_eq_bind (by decide)]
  simp only [same]
  rfl

/-- A word is read in the same way before less text, if that adds no words to it. -/
theorem readWord_curtailed {front : List Char} (read : (readWord (front ++ rest)).rest = rest)
    (curtails : Curtails rest rest')
    (noWords : ∀ entry ∈ continuations, afterWords? entry.2.1 rest = none → afterWords? entry.2.1 rest' = none) :
    readWord (front ++ rest') = { readWord (front ++ rest) with rest := rest' } := by
  have after := readWord_after (front ++ rest)
  rw [read] at after
  obtain ⟨back, dropped⟩ := after
  obtain ⟨taken, dropped'⟩ := word_curtailed front dropped.symm curtails
  rw [readWord_eq, ← dropped] at read
  rw [readWord_eq, readWord_eq, taken, dropped', ← dropped]
  generalize String.ofList ((front ++ rest).takeWhile isWordPart) = word at read ⊢
  cases known : continuations.find? fun entry => entry.1 = Text.toUpper word with
  | none =>
    rw [known] at read
    simp only [Option.bind_none, singleWord_rest] at read ⊢
    obtain rfl : back = [] := List.append_left_eq_self.mp read
    exact singleWord_before word rest rest'
  | some entry =>
    rw [known] at read
    simp only [Option.bind_some] at read ⊢
    cases found : afterWords? entry.2.1 (back ++ rest) with
    | none =>
      simp only [found, Option.map_none, singleWord_rest] at read ⊢
      obtain rfl : back = [] := List.append_left_eq_self.mp read
      rw [List.nil_append, noWords entry (List.mem_of_find?_eq_some known) found]
      exact singleWord_before word rest rest'
    | some after =>
      simp only [found, Option.map_some] at read ⊢
      subst read
      rw [afterWords?_curtailed found curtails]
      rfl

theorem startsDigit_curtailed {front : List Char} (starts : startsDigit (front ++ rest') = true)
    (curtails : Curtails rest rest') : startsDigit (front ++ rest) = true := by
  obtain ⟨d, more, same, digit⟩ := startsDigit_eq_true starts
  have first := (curtails.append front).head (List.head?_eq_some_iff.mpr ⟨more, same⟩) (isDigit_solid digit)
  obtain ⟨more, same⟩ := List.head?_eq_some_iff.mp first
  rw [same]
  exact digit

/-- A lexeme is read in the same way before less text, if that adds no words to it. -/
theorem Reads.curtailed {c : Char} {front : List Char} {lexeme : Lexeme} (reads : Reads c (front ++ rest) lexeme)
    (ends : lexeme.rest = rest) (curtails : Curtails rest rest')
    (noWords : ∀ entry ∈ continuations, afterWords? entry.2.1 rest = none → afterWords? entry.2.1 rest' = none) :
    Reads c (front ++ rest') { lexeme with rest := rest' } := by
  cases reads with
  | number number taken =>
    simp only at ends ⊢
    subst ends
    have number' : c.isDigit ∨ c = '.' ∧ startsDigit (front ++ rest') := by
      refine number.imp_right fun ⟨point, starts⟩ => ⟨point, ?_⟩
      cases front with
      | cons d front => exact starts
      | nil =>
        obtain ⟨d, more, same, digit⟩ := startsDigit_eq_true starts
        rw [List.nil_append] at same taken
        rw [same, point] at taken
        have skips := (NumberPart.point digit).skips more
        have size := (skipNumber_suffix true more).length_le
        rw [← skips, List.cons_append, List.cons_append, List.nil_append, taken, List.length_cons] at size
        omega
    have taken' : skipNumber false (c :: front ++ rest') = rest' := skipNumber_curtailed taken curtails
    have same := Reads.number number' taken'
    rw [← List.cons_append, Text.upTo_append] at same ⊢
    exact same
  | string quote found =>
    subst ends
    refine .string quote (readQuoted_curtailed found ?_ curtails)
    rcases quote with rfl | rfl <;> decide
  | name tick found =>
    subst ends
    exact .name tick (readQuoted_curtailed found (tick ▸ by decide) curtails)
  | word starts =>
    have ends : (readWord (c :: front ++ rest)).rest = rest := ends
    have same := readWord_curtailed ends curtails noWords
    rw [List.cons_append, List.cons_append] at same
    exact same ▸ .word starts
  | @symbol kind size noDigit noNumber noQuote noWord found =>
    simp only at ends ⊢
    have whole := List.take_append_drop size (c :: front ++ rest)
    rw [List.cons_append, ends, ← List.cons_append] at whole
    have taken := List.append_cancel_right whole
    have size_eq : size = (c :: front).length := by
      have bound := (symbol?_size found).2
      have length := congrArg List.length taken
      rw [List.cons_append, List.length_take, Nat.min_eq_left bound] at length
      exact length
    subst size_eq
    have found' : symbol? (c :: front ++ rest') = some (kind, (c :: front).length) := symbol?_curtailed found curtails
    have noNumber' : c = '.' → startsDigit (front ++ rest') = false := fun point =>
      Bool.eq_false_iff.mpr fun starts => absurd (startsDigit_curtailed starts curtails) (by simp [noNumber point])
    have same := Reads.symbol noDigit noNumber' noQuote noWord found'
    rw [← List.cons_append, List.take_left, List.drop_left] at same
    rw [← List.cons_append, List.take_left]
    exact same

end MiniSql.Lexer
