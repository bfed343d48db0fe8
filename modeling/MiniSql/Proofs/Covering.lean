import Mathlib.Data.String.Basic
import MiniSql.Proofs.Lexemes
import MiniSql.Proofs.ParserRun

namespace MiniSql

namespace Text

theorem byteLength_toList (text : String) : byteLength text.toList = text.utf8ByteSize := by
  have count : ∀ cs, byteLength cs = String.utf8Len cs := by
    intro cs
    induction cs with
    | nil => rfl
    | cons c cs ih => rw [byteLength, String.utf8Len_cons, ih, Nat.add_comm]
  rw [count, ← String.utf8ByteSize_ofList, String.ofList_toList]

theorem byteLength_of_ofList {text : String} {cs : List Char} (same : text = String.ofList cs) :
    byteLength cs = text.utf8ByteSize := by
  rw [← byteLength_toList, same, String.toList_ofList]

theorem byteLength_append (front back : List Char) : byteLength (front ++ back) = byteLength front + byteLength back := by
  induction front with
  | nil => simp [byteLength]
  | cons c front ih => rw [List.cons_append, byteLength, byteLength, ih, Nat.add_assoc]

@[simp] theorem upTo_append {α : Type} (front rest : List α) : upTo rest (front ++ rest) = front := by
  simp [upTo]

/-- The part stands in the text from byte `first` up to, but not including, byte `last`. -/
def Spans (text : String) (first last : Nat) (part : String) : Prop :=
  ∃ before after, text = before ++ part ++ after ∧ before.utf8ByteSize = first ∧
    first + part.utf8ByteSize = last

theorem spans_ofList {text : String} {before part after : List Char} (split : text.toList = before ++ part ++ after) :
    Spans text (byteLength before) (byteLength before + byteLength part) (String.ofList part) := by
  refine ⟨String.ofList before, String.ofList after, ?_, ?_, ?_⟩
  · rw [← String.ofList_append, ← String.ofList_append, ← split, String.ofList_toList]
  · rw [byteLength_of_ofList rfl]
  · rw [byteLength_of_ofList rfl, byteLength_of_ofList rfl]

end Text

namespace Lexer

/-- The tokens of a text that starts at byte `offset`: lexemes with gaps between them, each read where
it stands. -/
inductive Scanned : Nat → List Char → List Token → Prop
  | done {offset cs} : IsGap True cs → Scanned offset cs []
  | token {offset gap c front rest tokens} {t : Token} : IsGap False gap →
      skipGap .blank (c :: (front ++ rest)) = c :: (front ++ rest) →
      Reads c (front ++ rest) ⟨t.kind, t.value, rest⟩ → t.raw = String.ofList (c :: front) →
      t.offset = offset + Text.byteLength gap → Scanned t.finish rest tokens →
      Scanned offset (gap ++ c :: (front ++ rest)) (t :: tokens)

/-- Every run of the scanner that meets no fault is of this form. -/
theorem scanFrom_scanned {most offset : Nat} {cs : List Char} {tokens : List Token} (enough : cs.length ≤ most)
    (scanned : scanFrom offset cs most = (tokens, none)) : Scanned offset cs tokens := by
  induction most generalizing offset cs tokens with
  | zero =>
    cases scanned
    exact List.length_eq_zero_iff.mp (Nat.le_zero.mp enough) ▸ .done .nil
  | succ most ih =>
    obtain ⟨gap, split, isGap⟩ := skipGap_takes .blank cs
    rw [scanFrom] at scanned
    split at scanned
    · next ended =>
      cases scanned
      rw [ended, List.append_nil] at split
      exact .done (split ▸ isGap.mono fun _ => trivial)
    · next c body starts =>
      have solid : skipGap .blank (c :: body) = c :: body := by
        have skips := isGap.skips fun ended => ended
        rw [starts, ← starts, ← split, starts] at skips
        exact skips.symm
      rw [starts] at split isGap
      simp only at scanned
      split at scanned
      · cases scanned
      · next kind value rest read =>
        have reads := readLexeme_eq_ok.mp read
        obtain ⟨front, rfl⟩ := reads.suffix
        simp only [Prod.mk.injEq] at scanned
        obtain ⟨rfl, noFault⟩ := scanned
        have shorter := congrArg List.length split
        simp only [List.length_append, List.length_cons] at shorter
        have more := ih (by omega) (Prod.ext rfl noFault)
        have taken : Text.upTo rest (c :: (front ++ rest)) = c :: front := Text.upTo_append (c :: front) rest
        have before : Text.upTo (c :: (front ++ rest)) cs = gap := by rw [split, Text.upTo_append]
        rw [taken, before] at more ⊢
        subst split
        refine .token (isGap.mono fun ended => List.cons_ne_nil _ _ ended) solid reads rfl rfl ?_
        rwa [Token.finish, ← Text.byteLength_of_ofList rfl]

theorem Scanned.scanFrom {offset : Nat} {cs : List Char} {tokens : List Token} (scanned : Scanned offset cs tokens) :
    ∀ most, cs.length ≤ most → scanFrom offset cs most = (tokens, none) := by
  induction scanned with
  | @done offset cs isGap =>
    intro most _
    have ended : skipGap .blank cs = [] := by
      have skips := isGap.skips fun _ => rfl
      rwa [List.append_nil, skipGap] at skips
    cases most with
    | zero => rfl
    | succ most => rw [Lexer.scanFrom, ended]
  | @token offset gap c front rest tokens t isGap solid reads raw starts _ ih =>
    intro most enough
    simp only [List.length_append, List.length_cons] at enough
    obtain ⟨left, rfl⟩ : ∃ left, most = left + 1 := ⟨most - 1, by omega⟩
    have stands : skipGap .blank (gap ++ c :: (front ++ rest)) = _ := isGap.skips False.elim
    have taken : Text.upTo rest (c :: (front ++ rest)) = c :: front := Text.upTo_append (c :: front) rest
    have more := ih left (by omega)
    rw [Token.finish, starts, ← Text.byteLength_of_ofList raw] at more
    simp only [Lexer.scanFrom, stands.trans solid, readLexeme_eq_ok.mpr reads, taken, Text.upTo_append, more]
    rw [← raw, ← starts]

/-- The tokens of a text that has no fault. -/
theorem ofText_eq_ok {sql : String} {tokens : List Token} :
    Token.ofText sql = .ok tokens ↔ Scanned 0 sql.toList tokens := by
  constructor
  · intro scanned
    unfold Token.ofText at scanned
    split at scanned
    · next found =>
      cases scanned
      exact scanFrom_scanned (Nat.le_of_eq String.length_toList) found
    · cases scanned
  · intro scanned
    have found := scanned.scanFrom sql.length (Nat.le_of_eq String.length_toList)
    rw [Token.ofText, Token.scan, found]

variable {sql : String} {tokens : List Token}

/-- Where the tokens end does not depend on where the first of them starts. -/
theorem finish_cons (offset : Nat) (t : Token) (tokens : List Token) :
    (t :: tokens).getLast?.elim offset Token.finish = tokens.getLast?.elim t.finish Token.finish := by
  rw [List.getLast?_cons]
  cases tokens.getLast? <;> rfl

/-- Where the tokens after the first ones are read. -/
theorem Scanned.after {offset : Nat} {cs : List Char} {first second : List Token}
    (scanned : Scanned offset cs (first ++ second)) :
    ∃ done rest, cs = done ++ rest ∧ first.getLast?.elim offset Token.finish = offset + Text.byteLength done ∧
      Scanned (first.getLast?.elim offset Token.finish) rest second := by
  induction first generalizing offset cs with
  | nil => exact ⟨[], cs, rfl, rfl, scanned⟩
  | cons t first ih =>
    rw [List.cons_append] at scanned
    cases scanned with
    | @token _ gap c front more _ _ _ _ _ raw starts scanned =>
      obtain ⟨done, rest, rfl, ends, scanned⟩ := ih scanned
      refine ⟨gap ++ c :: front ++ done, rest, by simp, ?_, finish_cons offset t first ▸ scanned⟩
      rw [finish_cons, ends, Token.finish, starts, ← Text.byteLength_of_ofList raw, Text.byteLength_append,
        Text.byteLength_append]
      omega

/-- Where a token stands in the text, and the gap before it. -/
theorem Scanned.spans {first second : List Token} {t : Token} (scanned : Scanned 0 sql.toList (first ++ t :: second)) :
    t.offset < t.finish ∧ Text.Spans sql t.offset t.finish t.raw ∧
      ∃ gap, Text.Spans sql (first.getLast?.elim 0 Token.finish) t.offset gap ∧ IsGap False gap.toList := by
  obtain ⟨done, rest, split, ends, scanned⟩ := scanned.after
  rw [Nat.zero_add] at ends
  rw [ends] at scanned ⊢
  cases scanned with
  | @token _ gap c front more _ _ isGap _ _ raw starts _ =>
    have size := Text.byteLength_of_ofList raw
    have positive : 0 < Text.byteLength (c :: front) := by
      rw [Text.byteLength]
      have := c.utf8Size_pos
      omega
    refine ⟨by rw [Token.finish]; omega, ?_, String.ofList gap, ?_, by rwa [String.toList_ofList]⟩
    · have parts : sql.toList = (done ++ gap) ++ (c :: front) ++ more := by simp [split]
      have spans := Text.spans_ofList parts
      rwa [Text.byteLength_append, size, ← starts, ← raw] at spans
    · have parts : sql.toList = done ++ gap ++ (c :: front ++ more) := by simp [split]
      have spans := Text.spans_ofList parts
      rwa [← starts] at spans

theorem Scanned.ordered {offset : Nat} {cs : List Char} (scanned : Scanned offset cs tokens) :
    (∀ t ∈ tokens, offset ≤ t.offset) ∧ tokens.Pairwise (fun t u => t.finish ≤ u.offset) := by
  induction scanned with
  | done => exact ⟨by simp, .nil⟩
  | @token offset gap c front rest tokens t isGap solid reads raw starts _ ih =>
    have first : offset ≤ t.offset := starts ▸ Nat.le_add_right _ _
    refine ⟨fun u listed => ?_, List.pairwise_cons.mpr ih⟩
    rcases List.mem_cons.mp listed with rfl | later
    · exact first
    · exact first.trans ((Nat.le_add_right _ _).trans (ih.1 u later))

/-- The scanner loses nothing: the tokens are parts of the text, one after another, and what stands
before, between and after them are gaps. -/
theorem ofText_covers (scanned : Token.ofText sql = .ok tokens) :
    (∀ t ∈ tokens, t.offset < t.finish ∧ Text.Spans sql t.offset t.finish t.raw) ∧
      tokens.Pairwise (fun t u => t.finish ≤ u.offset) ∧
      (∀ t ∈ tokens.head?, ∃ gap, Text.Spans sql 0 t.offset gap ∧ IsGap False gap.toList) ∧
      (∀ front t u back, tokens = front ++ t :: u :: back →
        ∃ gap, Text.Spans sql t.finish u.offset gap ∧ IsGap False gap.toList) ∧
      ∃ gap, Text.Spans sql (tokens.getLast?.elim 0 Token.finish) sql.utf8ByteSize gap ∧ IsGap True gap.toList := by
  have scanned := ofText_eq_ok.mp scanned
  refine ⟨fun t listed => ?_, scanned.ordered.2, fun t first => ?_, fun front t u back split => ?_, ?_⟩
  · obtain ⟨front, back, rfl⟩ := List.append_of_mem listed
    exact ⟨scanned.spans.1, scanned.spans.2.1⟩
  · obtain ⟨back, rfl⟩ := List.head?_eq_some_iff.mp first
    have scanned : Scanned 0 sql.toList ([] ++ t :: back) := scanned
    exact scanned.spans.2.2
  · have scanned : Scanned 0 sql.toList (front ++ [t] ++ u :: back) := by simpa [split] using scanned
    simpa using scanned.spans.2.2
  · have scanned : Scanned 0 sql.toList (tokens ++ []) := by simpa using scanned
    obtain ⟨done, rest, split, ends, last⟩ := scanned.after
    cases last with
    | done isGap =>
      refine ⟨String.ofList rest, ?_, by rwa [String.toList_ofList]⟩
      have parts : sql.toList = done ++ rest ++ [] := by rw [List.append_nil, split]
      have spans := Text.spans_ofList parts
      have size := Text.byteLength_toList sql
      rw [split, Text.byteLength_append] at size
      rwa [ends, Nat.zero_add, ← size]

/-- Characters of several bytes, a doubled quote, comments of each kind and a keyword of two words. -/
theorem commented_covers : ∃ tokens, Token.ofText "SELECT 'é''x' -- ü\n, /*y*/a--1 GROUP  BY a #z" = .ok tokens ∧
    tokens.map (fun t => (t.offset, t.finish)) =
      [(0, 6), (7, 14), (21, 22), (28, 29), (29, 30), (30, 31), (31, 32), (33, 42), (43, 44)] ∧
    tokens.Pairwise (fun t u => t.finish ≤ u.offset) := by
  have scanned : ∃ tokens, Token.ofText "SELECT 'é''x' -- ü\n, /*y*/a--1 GROUP  BY a #z" = .ok tokens ∧
      tokens.map (fun t => (t.offset, t.finish)) =
        [(0, 6), (7, 14), (21, 22), (28, 29), (29, 30), (30, 31), (31, 32), (33, 42), (43, 44)] :=
    ⟨_, rfl, by decide +kernel⟩
  obtain ⟨tokens, scanned, ranges⟩ := scanned
  exact ⟨tokens, scanned, ranges, (ofText_covers scanned).2.1⟩

end Lexer

end MiniSql
