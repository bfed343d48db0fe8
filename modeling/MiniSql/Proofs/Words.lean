import Mathlib.Data.List.Basic
import Mathlib.Data.List.TakeWhile
import Mathlib.Tactic.ByContra
import MiniSql.Proofs.Nodes
import MiniSql.Proofs.Scanning

namespace MiniSql.Lexer

/-- No word goes on at the start of the text. -/
def EndsWord (rest : List Char) : Prop :=
  ∀ c ∈ rest.head?, isWordPart c = false

theorem Delimits.endsWord {rest : List Char} (delimits : Delimits rest) : EndsWord rest := by
  intro c first
  have listed := delimits c first
  simp only [List.mem_cons, List.not_mem_nil, or_false] at listed
  rcases listed with rfl | rfl | rfl | rfl <;> rfl

theorem takeWhile_word {word rest : List Char} (parts : word.all isWordPart) (ends : EndsWord rest) :
    (word ++ rest).takeWhile isWordPart = word ∧ (word ++ rest).dropWhile isWordPart = rest := by
  induction word with
  | nil =>
    cases rest with
    | nil => exact ⟨rfl, rfl⟩
    | cons c rest => simp [ends c rfl]
  | cons c word ih =>
    simp only [List.all_cons, Bool.and_eq_true] at parts
    simp [parts.1, ih parts.2]

/-- A character that opens words and no other lexeme. -/
def opensWord (c : Char) : Bool :=
  startsWord c && !Text.isBlank c && !c.isDigit && c ∉ ['#', '-', '/', '.', '\'', '"', '`']

/-- The text is a single word in upper case. -/
def isUpperWord (text : String) : Bool :=
  text.toList.head?.any opensWord && text.toList.all isWordPart && Text.toUpper text = text

theorem isUpperWord_starts {text : String} (upper : isUpperWord text = true) :
    ∃ c, text.toList.head? = some c ∧ opensWord c = true := by
  simp only [isUpperWord, Bool.and_eq_true] at upper
  exact (Option.any_eq_true _ _).mp upper.1.1

theorem isLexeme_word {fit : List Char → Prop} {text : String} {sign : Sign}
    (opens : text.toList.head?.any opensWord)
    (reads : ∀ rest, fit rest → readWord (text.toList ++ rest) = ⟨sign.kind, sign.value, rest⟩) :
    IsLexeme fit text sign := by
  unfold IsLexeme
  cases chars : text.toList with
  | nil => simp [chars] at opens
  | cons c front =>
    refine ⟨c, front, rfl, fun rest fits => ?_⟩
    have found := reads rest fits
    rw [chars, List.cons_append] at found
    simp only [chars, List.head?_cons, Option.any_some, opensWord, Bool.and_eq_true, Bool.not_eq_true',
      decide_eq_true_eq, List.mem_cons, List.not_mem_nil, or_false, not_or] at opens
    obtain ⟨⟨⟨starts, solid⟩, noDigit⟩, noHash, noDash, noSlash, noPoint, noQuote, noQuotes, noTick⟩ :=
      opens
    have stays : skipGap .blank (c :: (front ++ rest)) = c :: (front ++ rest) :=
      skipGap_solid solid noHash (fun dash => absurd dash noDash)
      (fun slash => absurd slash noSlash)
    refine ⟨stays, fun offset => ?_⟩
    simp [readLexeme, noDigit, noPoint, noQuote, noQuotes, noTick, starts, found]

/-- No clause keyword of several words starts with the word. -/
theorem noLonger {upper : String} (single : ∀ entry ∈ continuations, entry.1 ≠ upper) (rest : List Char) :
    (continuations.findSome? fun x =>
      if x.1 = upper then (afterWords? x.2.1 rest).map (x.2.2, ·) else none) = none := by
  rw [List.findSome?_eq_none_iff]
  intro entry listed
  rw [if_neg (single entry listed)]

/-- Before a text that ends words, a word is read by itself unless it may open a longer keyword. -/
theorem readWord_single {word : String} {rest : List Char} (upper : isUpperWord word = true)
    (single : ∀ entry ∈ continuations, entry.1 ≠ word) (ends : EndsWord rest) :
    readWord (word.toList ++ rest) =
      match keywordKind? word with
      | some kind => ⟨kind, word, rest⟩
      | none => ⟨.name, word, rest⟩ := by
  simp only [isUpperWord, Bool.and_eq_true, decide_eq_true_eq] at upper
  obtain ⟨⟨_, parts⟩, same⟩ := upper
  obtain ⟨taken, dropped⟩ := takeWhile_word parts ends
  cases known : keywordKind? word <;>
    simp only [readWord, taken, dropped, String.ofList_toList, same, noLonger single, known]

theorem isLexeme_keyword {word : String} {kind : TokenKind} (upper : isUpperWord word = true)
    (single : ∀ entry ∈ continuations, entry.1 ≠ word) (known : keywordKind? word = some kind) :
    IsLexeme EndsWord word ⟨kind, word⟩ := by
  have opens := upper
  simp only [isUpperWord, Bool.and_eq_true] at opens
  exact isLexeme_word opens.1.1 fun rest ends => by rw [readWord_single upper single ends, known]

/-- A word of which no keyword is made is a name. -/
theorem readWord_plain {word : String} {rest : List Char} (parts : word.toList.all isWordPart = true)
    (plain : keywordKind? (Text.toUpper word) = none) (ends : EndsWord rest) :
    readWord (word.toList ++ rest) = ⟨.name, word, rest⟩ := by
  have single : ∀ entry ∈ continuations, entry.1 ≠ Text.toUpper word := by
    intro entry listed same
    have known : ∀ entry ∈ continuations, keywordKind? entry.1 ≠ none := by decide
    exact known entry listed (same ▸ plain)
  obtain ⟨taken, dropped⟩ := takeWhile_word parts ends
  simp only [readWord, taken, dropped, String.ofList_toList, noLonger single, plain]

theorem isLexeme_plain {word : String} (opens : word.toList.head?.any opensWord = true)
    (parts : word.toList.all isWordPart = true) (plain : keywordKind? (Text.toUpper word) = none) :
    IsLexeme EndsWord word (.name word) :=
  isLexeme_word opens fun _ ends => readWord_plain parts plain ends

theorem afterWords?_cons {word : String} {words : List String} {rest : List Char}
    (upper : isUpperWord word = true) (ends : EndsWord rest) :
    afterWords? (word :: words) (' ' :: (word.toList ++ rest)) = afterWords? words rest := by
  simp only [isUpperWord, Bool.and_eq_true, decide_eq_true_eq] at upper
  obtain ⟨⟨opens, parts⟩, _⟩ := upper
  obtain ⟨taken, dropped⟩ := takeWhile_word parts ends
  cases chars : word.toList with
  | nil => simp [chars] at opens
  | cons c front =>
    rw [chars] at taken dropped opens
    simp only [List.head?_cons, Option.any_some, opensWord, Bool.and_eq_true, Bool.not_eq_true',
      decide_eq_true_eq, List.mem_cons, List.not_mem_nil, or_false, not_or] at opens
    obtain ⟨⟨⟨starts, solid⟩, _⟩, noHash, noDash, noSlash, _⟩ := opens
    have stays : skipGap .blank (c :: (front ++ rest)) = c :: (front ++ rest) :=
      skipGap_solid solid noHash (fun dash => absurd dash noDash)
      (fun slash => absurd slash noSlash)
    have blank : Text.isBlank ' ' = true := rfl
    have skips : skipGap .blank (' ' :: (c :: front ++ rest)) = c :: front ++ rest := by
      simp [skipGap, blank, stays]
    have same : Text.sameName (String.ofList (c :: front)) word = true := by
      simp [Text.sameName, chars]
    simp only [afterWords?, skips, taken, dropped, same, Bool.and_true]
    simp [starts]

/-- A clause keyword of two words. -/
theorem isLexeme_twoWords (first second : String) {c : Clause} (upper : isUpperWord first = true)
    (upperSecond : isUpperWord second = true) (text : c.keyword = first ++ " " ++ second)
    (listed : (first, [second], c) ∈ continuations) :
    IsLexeme EndsWord c.keyword (.clause c) := by
  simp only [isUpperWord, Bool.and_eq_true, decide_eq_true_eq] at upper
  obtain ⟨⟨opens, parts⟩, same⟩ := upper
  have chars : c.keyword.toList = first.toList ++ ' ' :: second.toList := by simp [text]
  refine isLexeme_word ?_ fun rest ends => ?_
  · rw [chars, List.head?_append]
    cases front : first.toList.head? <;> simp_all
  · have space : EndsWord (' ' :: (second.toList ++ rest)) := by simp [EndsWord]; rfl
    obtain ⟨taken, dropped⟩ := takeWhile_word parts space
    have after : afterWords? [second] (' ' :: (second.toList ++ rest)) = some rest :=
      afterWords?_cons upperSecond ends
    have longer : ∀ gap after, afterWords? [second] gap = some after →
        (continuations.findSome? fun p =>
          if p.1 = first then (afterWords? p.2.1 gap).map (p.2.2, ·) else none) = some (c, after) := by
      intro gap after found
      simp only [continuations, List.mem_cons, Prod.mk.injEq, List.cons.injEq] at listed
      rcases listed with ⟨rfl, ⟨rfl, _⟩, rfl⟩ | ⟨rfl, ⟨rfl, _⟩, rfl⟩ | ⟨_, ⟨_, more⟩, _⟩ | none
      · simp [continuations, found]
      · simp [continuations, found]
      · simp at more
      · simp at none
    rw [chars, List.append_assoc, List.cons_append]
    simp only [readWord, taken, dropped, String.ofList_toList, same, longer _ _ after]
    rfl

theorem isLexeme_groupBy : IsLexeme EndsWord Clause.groupBy.keyword (.clause .groupBy) :=
  isLexeme_twoWords "GROUP" "BY" (by decide) (by decide) rfl (by decide)

theorem isLexeme_orderBy : IsLexeme EndsWord Clause.orderBy.keyword (.clause .orderBy) :=
  isLexeme_twoWords "ORDER" "BY" (by decide) (by decide) rfl (by decide)

/-- What follows a join is no `DUPLICATE KEY UPDATE`. -/
def NoDuplicate (rest : List Char) : Prop :=
  EndsWord rest ∧ afterWords? ["DUPLICATE", "KEY", "UPDATE"] rest = none

theorem isLexeme_on : IsLexeme NoDuplicate "ON" (.reserved "ON") := by
  refine isLexeme_word (by decide) fun rest ends => ?_
  have parts : "ON".toList.all isWordPart := by decide
  obtain ⟨taken, dropped⟩ := takeWhile_word parts ends.1
  have same : Text.toUpper "ON" = "ON" := by decide
  have reserved : keywordKind? "ON" = some .reserved := by decide
  simp only [readWord, taken, dropped, String.ofList_toList, same, continuations, List.findSome?_cons,
    ends.2, reserved]
  rfl

/-- The text is a keyword of one word. -/
def isKeyword (word : String) (kind : TokenKind) : Bool :=
  isUpperWord word && continuations.all (·.1 ≠ word) && keywordKind? word = some kind

theorem lexes_keyword {word : String} {kind : TokenKind} (known : isKeyword word kind = true) :
    Lexes word [⟨kind, word⟩] := by
  simp only [isKeyword, Bool.and_eq_true, List.all_eq_true, decide_eq_true_eq] at known
  obtain ⟨⟨upper, single⟩, kind⟩ := known
  exact ((isLexeme_keyword upper single kind).mono fun _ => Delimits.endsWord).lexes

theorem upperChar_ascii {c : Char} (ascii : c.toLower.toNat < 128) : Text.upperChar c = [c.toLower.toUpper] := by
  have same : ∀ n < 128, (Char.ofNat n).toUpper = (Char.ofNat n).toLower.toUpper := by decide
  have low : c.toNat < 128 := by
    by_contra high
    have noUpper : ¬(c.val ≥ 'A'.val ∧ c.val ≤ 'Z'.val) := by
      rintro ⟨_, small⟩
      have bound : c.toNat ≤ 90 := small
      omega
    have same : c.toLower = c := dif_neg noUpper
    exact high (same ▸ ascii)
  have upper := same c.toNat low
  rw [Char.ofNat_toNat] at upper
  rw [Text.upperChar, if_pos low, upper]

/-- A word that is the same as an ASCII word in upper case has this as its upper case. -/
theorem toUpper_of_sameName {a b : String} (same : Text.sameName a b = true)
    (ascii : b.toList.all fun c => c.toLower.toNat < 128 && c.toLower.toUpper = c) : Text.toUpper a = b := by
  simp only [Text.sameName, beq_iff_eq] at same
  rw [Text.toUpper, ← String.toList_inj, String.toList_ofList]
  generalize a.toList = cs at same
  generalize b.toList = ds at same ascii
  induction cs generalizing ds with
  | nil =>
    cases ds with
    | nil => rfl
    | cons d ds => simp at same
  | cons c cs ih =>
    cases ds with
    | nil => simp at same
    | cons d ds =>
      simp only [List.map_cons, List.cons.injEq] at same
      simp only [List.all_cons, Bool.and_eq_true, decide_eq_true_eq] at ascii
      obtain ⟨⟨small, back⟩, others⟩ := ascii
      rw [List.flatMap_cons, upperChar_ascii (same.1 ▸ small), same.1, back, ih ds same.2 others]
      rfl

theorem startsWord_other {c : Char} (starts : startsWord c = true) :
    c.isDigit = false ∧ c ≠ '.' ∧ c ≠ '\'' ∧ c ≠ '"' ∧ c ≠ '`' := by
  refine ⟨?_, ?_, ?_, ?_, ?_⟩
  · by_contra digit
    rw [Bool.not_eq_false, Char.isDigit_iff_toNat] at digit
    have high : c.toNat ≤ 57 := digit.2
    have noLetter : Text.isAlphabetic c = false := by
      rw [Text.isAlphabetic, Text.alphabeticRanges, Text.inRanges, if_pos (by omega)]
    have noMark : c ≠ '_' := by
      rintro rfl
      exact absurd high (by decide)
    simp [startsWord, noLetter, noMark] at starts
  all_goals
    rintro rfl
    revert starts
    decide

/-- Where a sign follows that is no reserved word, no `DUPLICATE` is read. -/
theorem Scans.noDuplicate {cs : List Char} {sign : Sign} {signs : List Sign}
    (scans : Scans cs (sign :: signs)) (free : sign.kind ≠ .reserved) (words : List String) :
    afterWords? ("DUPLICATE" :: words) cs = none := by
  cases scans with
  | @lexeme _ c body _ rest _ starts reads _ _ =>
    simp only [afterWords?, starts, List.head?_cons, Option.any_some]
    by_contra found
    split at found
    · next both =>
      simp only [Bool.and_eq_true] at both
      obtain ⟨opens, same⟩ := both
      obtain ⟨noDigit, noPoint, noQuote, noQuotes, noTick⟩ := startsWord_other opens
      have read := reads 0
      have upper := toUpper_of_sameName same (by decide)
      have reserved : (readWord (c :: body)).kind = .reserved := by
        have known : keywordKind? "DUPLICATE" = some .reserved := by decide
        have single : ∀ entry ∈ continuations, entry.1 ≠ "DUPLICATE" := by decide
        simp only [readWord, upper, noLonger single, known]
      have word : readWord (c :: body) = ⟨sign.kind, sign.value, rest⟩ := by
        simpa [readLexeme, noDigit, noPoint, noQuote, noQuotes, noTick, opens] using read
      exact free (by rw [word] at reserved; exact reserved)
    · exact found rfl

/-- What the lexer asks about the characters of unquoted ASCII identifiers. -/
theorem ascii_word : ∀ n < 128,
    ((Char.ofNat n).isUpper || Char.ofNat n = '_' → opensWord (Char.ofNat n) = true) ∧
    ((Char.ofNat n).isUpper || (Char.ofNat n).isDigit || Char.ofNat n = '_' || Char.ofNat n = '$' →
      isWordPart (Char.ofNat n) = true ∧ Text.upperChar (Char.ofNat n) = [Char.ofNat n]) := by
  decide

theorem upper_ascii {c : Char} (upper : c.isUpper = true) : c.toNat < 128 := by
  have bound : c.toNat ≤ 90 := (of_decide_eq_true upper).2
  omega

theorem opensWord_plain {c : Char} (plain : (c.isUpper || c = '_') = true) : opensWord c = true := by
  have ascii : c.toNat < 128 := by
    simp only [Bool.or_eq_true, decide_eq_true_eq] at plain
    rcases plain with upper | rfl
    · exact upper_ascii upper
    · decide
  have known := (ascii_word c.toNat ascii).1
  rw [Char.ofNat_toNat] at known
  exact known plain

theorem ascii_plain {c : Char} (plain : (c.isUpper || c.isDigit || c = '_' || c = '$') = true) : c.toNat < 128 := by
  simp only [Bool.or_eq_true, decide_eq_true_eq] at plain
  rcases plain with ((upper | digit) | rfl) | rfl
  · exact upper_ascii upper
  · have bound : c.toNat ≤ 57 := (Char.isDigit_iff_toNat.mp digit).2
    omega
  · decide
  · decide

theorem isWordPart_plain {c : Char} (plain : (c.isUpper || c.isDigit || c = '_' || c = '$') = true) :
    isWordPart c = true ∧ Text.upperChar c = [c] := by
  have known := (ascii_word c.toNat (ascii_plain plain)).2
  rw [Char.ofNat_toNat] at known
  exact known plain

theorem isUpperWord_plain {name : String} (plain : isPlainName name = true) : isUpperWord name = true := by
  simp only [isPlainName, Bool.and_eq_true, List.all_eq_true] at plain
  obtain ⟨⟨first, each⟩, _⟩ := plain
  have opens : name.toList.head?.any opensWord = true := by
    cases head : name.toList.head? with
    | none => simp [head] at first
    | some c =>
      rw [head, Option.any_some] at first
      exact opensWord_plain first
  have parts : name.toList.all isWordPart = true :=
    List.all_eq_true.mpr fun c listed => (isWordPart_plain (each c listed)).1
  have same : name.toList.flatMap Text.upperChar = name.toList := by
    have single := List.flatMap_congr fun c listed => (isWordPart_plain (each c listed)).2
    rw [single, List.flatMap_singleton']
  simp [isUpperWord, opens, parts, Text.toUpper, same]

/-- Upper case takes the characters of an ASCII identifier to those of a plain name. -/
theorem upper_word : ∀ n < 128, isWordPart (Char.ofNat n) = true →
    ∃ u, Text.upperChar (Char.ofNat n) = [u] ∧ (u.isUpper || u.isDigit || u = '_' || u = '$') = true ∧
      (startsWord (Char.ofNat n) = true → (u.isUpper || u = '_') = true) := by
  have found : ∀ n < 128, isWordPart (Char.ofNat n) = true → (Text.upperChar (Char.ofNat n)).length = 1 ∧
      (Text.upperChar (Char.ofNat n)).all (fun u => (u.isUpper || u.isDigit || u = '_' || u = '$') &&
        (!startsWord (Char.ofNat n) || u.isUpper || u = '_')) = true := by decide
  intro n small part
  obtain ⟨single, each⟩ := found n small part
  obtain ⟨u, same⟩ := List.length_eq_one_iff.mp single
  have known := List.all_eq_true.mp each u (same ▸ List.mem_singleton_self u)
  simp only [Bool.and_eq_true, Bool.or_eq_true, Bool.not_eq_true'] at known
  refine ⟨u, same, by simpa using known.1, fun starts => ?_⟩
  simpa [starts] using known.2

theorem keywordKind?_name (upper : String) : keywordKind? upper ≠ some .name := by
  unfold keywordKind?
  split
  · simp
  · repeat' split
    all_goals simp

/-- What is read of a word that is a name to its end. -/
theorem readWord_name {cs : List Char} {word : String} (read : readWord cs = ⟨.name, word, []⟩) :
    (∀ c ∈ cs, isWordPart c = true) ∧ keywordKind? (Text.toUpper (String.ofList cs)) = none := by
  unfold readWord at read
  simp only at read
  split at read
  · simp at read
  · split at read
    · next kind known =>
      simp only [Lexeme.mk.injEq] at read
      exact absurd (read.1 ▸ known) (keywordKind?_name _)
    · next none =>
      simp only [Lexeme.mk.injEq, true_and, List.dropWhile_eq_nil_iff] at read
      have all := List.takeWhile_eq_self_iff.mpr read.2
      rw [all] at none
      exact ⟨read.2, none⟩

/-- A plain name is the upper case of an ASCII identifier that the lexer reads as a name. -/
theorem isPlainName_iff {name : String} : isPlainName name = true ↔
    ∃ word : String, word.toList.head?.any startsWord = true ∧ (∀ c ∈ word.toList, c.toNat < 128) ∧
      readWord word.toList = ⟨.name, word, []⟩ ∧ Text.toUpper word = name := by
  constructor
  · intro plain
    have upper := isUpperWord_plain plain
    simp only [isPlainName, Bool.and_eq_true, List.all_eq_true, decide_eq_true_eq] at plain
    obtain ⟨⟨_, each⟩, free⟩ := plain
    simp only [isUpperWord, Bool.and_eq_true, decide_eq_true_eq] at upper
    obtain ⟨⟨opens, parts⟩, same⟩ := upper
    have read : readWord (name.toList ++ []) = ⟨.name, name, []⟩ :=
      readWord_plain parts (same.symm ▸ free) (by simp [EndsWord])
    rw [List.append_nil] at read
    obtain ⟨c, head, opens⟩ := (Option.any_eq_true _ _).mp opens
    simp only [opensWord, Bool.and_eq_true] at opens
    exact ⟨name, by simp [head, opens.1.1.1], fun c listed => ascii_plain (each c listed), read, same⟩
  · rintro ⟨word, opens, ascii, read, rfl⟩
    obtain ⟨parts, free⟩ := readWord_name read
    rw [String.ofList_toList] at free
    have chars : ∀ c ∈ word.toList, ∃ u, Text.upperChar c = [u] ∧
        (u.isUpper || u.isDigit || u = '_' || u = '$') = true ∧
        (startsWord c = true → (u.isUpper || u = '_') = true) := by
      intro c listed
      have known := upper_word c.toNat (ascii c listed)
      rw [Char.ofNat_toNat] at known
      exact known (parts c listed)
    have whole : (Text.toUpper word).toList = word.toList.flatMap Text.upperChar := by
      rw [Text.toUpper, String.toList_ofList]
    simp only [isPlainName, Bool.and_eq_true, decide_eq_true_eq, whole, free, and_true]
    constructor
    · cases letters : word.toList with
      | nil => simp [letters] at opens
      | cons c cs =>
        rw [letters, List.head?_cons, Option.any_some] at opens
        obtain ⟨u, same, _, starts⟩ := chars c (by simp [letters])
        simpa [same] using starts opens
    · rw [List.all_eq_true]
      intro u listed
      obtain ⟨c, listed, inside⟩ := List.mem_flatMap.mp listed
      obtain ⟨v, same, plain, _⟩ := chars c listed
      rw [same, List.mem_singleton] at inside
      exact inside ▸ plain

end MiniSql.Lexer

namespace MiniSql

/-- Written as it is, the name of the function is read as this name, or as one of the two keywords that
are called. -/
def isCallable (function : String) : Bool :=
  Lexer.isUpperWord function && Lexer.keywordKind? function = none || function ∈ ["MOD", "VALUES"]

theorem isCallable_iff {function : String} : isCallable function = true ↔
    Lexer.isUpperWord function = true ∧ Lexer.keywordKind? function = none ∨ function = "MOD" ∨ function = "VALUES" := by
  simp [isCallable]

/-- The function that is called, where there is one, has a name that can be written as it is. -/
def Node.isCallable : Node → Bool
  | .expr (.call function _ _) => MiniSql.isCallable function
  | _ => true

theorem Node.isCallable_plain {n : Node} (plain : n.isPlain = true) : n.isCallable = true := by
  unfold Node.isCallable
  split
  · next function _ _ =>
    simp only [Node.isPlain, Bool.or_eq_true, decide_eq_true_eq, List.mem_cons, List.not_mem_nil,
      or_false] at plain
    refine isCallable_iff.mpr (plain.imp_left fun plain => ⟨Lexer.isUpperWord_plain plain, ?_⟩)
    exact of_decide_eq_true (Bool.and_eq_true_iff.mp plain).2
  · rfl

theorem isUpperWord_callable {function : String} (callable : isCallable function = true) :
    Lexer.isUpperWord function = true := by
  rcases isCallable_iff.mp callable with ⟨upper, _⟩ | rfl | rfl
  · exact upper
  · decide
  · decide

theorem toUpper_callable {function : String} (callable : isCallable function = true) :
    Text.toUpper function = function := by
  have upper := isUpperWord_callable callable
  simp only [Lexer.isUpperWord, Bool.and_eq_true, decide_eq_true_eq] at upper
  exact upper.2

end MiniSql
