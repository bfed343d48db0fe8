import MiniSql.Proofs.Respacing

namespace MiniSql

/-- The token, in a text that starts `k` bytes later. -/
def Token.rebased (k : Nat) (t : Token) : Token := { t with offset := t.offset - k }

namespace Token

variable (k : Nat) (t : Token)

@[simp] theorem kind_rebased : (t.rebased k).kind = t.kind := rfl

@[simp] theorem value_rebased : (t.rebased k).value = t.value := rfl

@[simp] theorem isOperator_rebased (value : String) : (t.rebased k).isOperator value = t.isOperator value := rfl

end Token

namespace Text

variable {text part inside : String} {first last : Nat}

theorem dropBytes_append (before rest : List Char) : dropBytes (byteLength before) (before ++ rest) = rest := by
  induction before with
  | nil => cases rest <;> rfl
  | cons c before ih =>
    have positive := c.utf8Size_pos
    rw [List.cons_append, dropBytes, byteLength, if_neg (by omega), Nat.add_sub_cancel_left, ih]

theorem takeBytes_append (part rest : List Char) : takeBytes (byteLength part) (part ++ rest) = part := by
  induction part with
  | nil => cases rest <;> rfl
  | cons c part ih =>
    have positive := c.utf8Size_pos
    rw [List.cons_append, takeBytes, byteLength, if_neg (by omega), Nat.add_sub_cancel_left, ih]

theorem Spans.slice (spans : Spans text first last part) : slice text first last = part := by
  obtain ⟨before, after, rfl, rfl, rfl⟩ := spans
  rw [Text.slice, Nat.add_sub_cancel_left, String.toList_append, String.toList_append, List.append_assoc,
    ← byteLength_toList before, dropBytes_append, ← byteLength_toList part, takeBytes_append, String.ofList_toList]

/-- A part of a part. -/
theorem Spans.trans {from' to' : Nat} (outer : Spans text first last part) (inner : Spans part from' to' inside) :
    Spans text (first + from') (first + to') inside := by
  obtain ⟨before, after, rfl, rfl, rfl⟩ := outer
  obtain ⟨before', after', rfl, rfl, rfl⟩ := inner
  refine ⟨before ++ before', after' ++ after, by simp [String.append_assoc], ?_, Nat.add_assoc ..⟩
  exact String.utf8ByteSize_append

end Text

namespace Lexer

variable {sql : String} {offset : Nat} {cs cs' : List Char} {t : Token} {front tokens back : List Token}

/-- The text from one of the tokens on. -/
theorem Scanned.startingAt (scanned : Scanned offset cs (front ++ t :: tokens)) :
    ∃ before rest, cs = before ++ rest ∧ t.offset = offset + Text.byteLength before ∧
      Scanned t.offset rest (t :: tokens) := by
  obtain ⟨done, rest, rfl, ends, scanned⟩ := scanned.after
  cases scanned with
  | @token _ gap c front' rest _ _ isGap solid reads raw starts scanned =>
    refine ⟨done ++ gap, c :: (front' ++ rest), by simp, ?_, .token .nil solid reads raw rfl scanned⟩
    rw [starts, ends, Text.byteLength_append, Nat.add_assoc]

theorem spanText_cons {last : Token} (isLast : (t :: tokens).getLast? = some last) :
    Parser.spanText sql (t :: tokens) = Text.slice sql t.offset last.finish := by
  rw [Parser.spanText, isLast]
  rfl

theorem spans_spanText {before part after : List Char} {last : Token} (split : sql.toList = before ++ part ++ after)
    (starts : t.offset = 0 + Text.byteLength before) (isLast : (t :: tokens).getLast? = some last)
    (ends : last.finish = t.offset + Text.byteLength part) :
    Parser.spanText sql (t :: tokens) = String.ofList part ∧ Text.Spans sql t.offset last.finish (String.ofList part) := by
  have spans := Text.spans_ofList split
  rw [← Nat.zero_add (Text.byteLength before), ← starts, ← ends] at spans
  exact ⟨(spanText_cons isLast).trans spans.slice, spans⟩

/-- Tokens that stand one after another stand in a part of the text. -/
theorem Scanned.spanText {last : Token} (scanned : Scanned 0 sql.toList (front ++ t :: tokens ++ back))
    (isLast : (t :: tokens).getLast? = some last) :
    Text.Spans sql t.offset last.finish (Parser.spanText sql (t :: tokens)) := by
  rw [List.append_assoc, List.cons_append] at scanned
  obtain ⟨before, rest, split, starts, scanned⟩ := scanned.startingAt
  rw [← List.cons_append] at scanned
  obtain ⟨part, after, rfl, ends, _⟩ := scanned.after
  rw [isLast, Option.elim_some] at ends
  rw [← List.append_assoc] at split
  obtain ⟨same, spans⟩ := spans_spanText split starts isLast ends
  rwa [same]

theorem Respaced.nothing {tokens' : List Token} (respaced : Respaced offset cs cs' tokens tokens')
    (empty : cs' = []) : tokens = [] := by
  cases respaced with
  | done => rfl
  | token => exact absurd empty (by simp)

theorem isOperator_of_reads (reads : Reads '-' cs ⟨t.kind, t.value, cs'⟩) : t.isOperator "-" = true := by
  have read := reads_dash reads
  simp only [Lexeme.mk.injEq] at read
  simp [Token.isOperator, Token.isKind, read.1, read.2.1]

/-- What opens no gap opens none before a part of what follows it, other than a dash alone. -/
theorem Reads.stands_before {c : Char} {front part rest : List Char} {kind : TokenKind} {value : String}
    (reads : Reads c (front ++ (part ++ rest)) ⟨kind, value, part ++ rest⟩)
    (solid : skipGap .blank (c :: (front ++ (part ++ rest))) = c :: (front ++ (part ++ rest)))
    (noPart : part ≠ ['-']) : skipGap .blank (c :: (front ++ part)) = c :: (front ++ part) := by
  refine reads.stands rfl solid (curtails_append part rest) ?_
  rintro rfl first
  obtain ⟨more, rfl⟩ := List.head?_eq_some_iff.mp first
  have noFront := congrArg Lexeme.rest (reads_dash reads)
  obtain rfl : front = [] := List.append_left_eq_self.mp noFront.symm
  have apart := (solid_cons solid).2.2.2 rfl rfl
  cases more with
  | nil => exact absurd rfl noPart
  | cons d more => exact apart

/-- A text that ends after one of its lexemes has the tokens up to there, unless that is a dash, which
may open a comment. -/
theorem Scanned.cut {k : Nat} (scanned : Scanned offset cs (tokens ++ back)) (later : k ≤ offset)
    (noDash : ∀ last ∈ tokens.getLast?, last.isOperator "-" = false) :
    ∃ part rest, cs = part ++ rest ∧ tokens.getLast?.elim offset Token.finish = offset + Text.byteLength part ∧
      part ≠ ['-'] ∧ Respaced (offset - k) cs part tokens (tokens.map (Token.rebased k)) := by
  induction tokens generalizing offset cs with
  | nil => exact ⟨[], cs, rfl, rfl, by simp, .done .nil⟩
  | cons t tokens ih =>
    have noDash' : ∀ last ∈ tokens.getLast?, last.isOperator "-" = false :=
      fun last isLast => noDash last (List.mem_getLast?_cons isLast)
    rw [List.cons_append] at scanned
    cases scanned with
    | @token _ gap c front rest _ _ isGap solid reads raw starts scanned =>
      have after : k ≤ t.offset := by omega
      obtain ⟨part, rest, rfl, ends, noPart, respaced⟩ := ih scanned (after.trans (Nat.le_add_right _ _)) noDash'
      refine ⟨gap ++ c :: (front ++ part), rest, by simp, ?_, fun alone => ?_, ?_⟩
      · rw [finish_cons, ends, Token.finish, starts, ← Text.byteLength_of_ofList raw, Text.byteLength_append,
          ← List.cons_append, Text.byteLength_append]
        omega
      · have short := congrArg List.length alone
        simp only [List.length_append, List.length_cons, List.length_nil] at short
        obtain rfl : gap = [] := List.length_eq_zero_iff.mp (by omega)
        obtain rfl : front = [] := List.length_eq_zero_iff.mp (by omega)
        obtain rfl : part = [] := List.length_eq_zero_iff.mp (by omega)
        cases alone
        obtain rfl := respaced.nothing rfl
        exact absurd (isOperator_of_reads reads) (by simp [noDash t rfl])
      · have stands := reads.stands_before solid noPart
        have ends' : t.finish - k = (t.rebased k).finish := by
          simp only [Token.finish, Token.rebased]
          omega
        refine .token isGap isGap solid stands reads raw rfl ?_ (curtails_append part rest) (ends' ▸ respaced)
        simp only [Token.rebased]
        omega

/-- Tokens that stand one after another are those of their own text. -/
theorem ofText_spanText (scanned : Token.ofText sql = .ok (front ++ t :: tokens ++ back))
    (noDash : ∀ last ∈ (t :: tokens).getLast?, last.isOperator "-" = false) :
    Token.ofText (Parser.spanText sql (t :: tokens)) = .ok ((t :: tokens).map (Token.rebased t.offset)) := by
  have scanned := ofText_eq_ok.mp scanned
  rw [List.append_assoc, List.cons_append] at scanned
  obtain ⟨before, rest, split, starts, scanned⟩ := scanned.startingAt
  rw [← List.cons_append] at scanned
  obtain ⟨part, after, rfl, ends, _, respaced⟩ := scanned.cut (Nat.le_refl _) noDash
  obtain ⟨last, isLast⟩ := Option.isSome_iff_exists.mp (List.getLast?_isSome.mpr (List.cons_ne_nil t tokens))
  rw [isLast, Option.elim_some] at ends
  rw [← List.append_assoc] at split
  rw [Nat.sub_self] at respaced
  rw [(spans_spanText split starts isLast ends).1, ofText_eq_ok, String.toList_ofList]
  exact respaced.scanned.1

/-- The text of some of the tokens is the same in the text of all of them. -/
theorem spanText_spanText (scanned : Token.ofText sql = .ok (front ++ t :: tokens ++ back))
    (noDash : ∀ last ∈ (t :: tokens).getLast?, last.isOperator "-" = false) {part : List Token}
    (inside : part <:+: t :: tokens) :
    Parser.spanText (Parser.spanText sql (t :: tokens)) (part.map (Token.rebased t.offset)) =
      Parser.spanText sql part := by
  obtain ⟨front', back', same⟩ := inside
  cases part with
  | nil => rfl
  | cons u part =>
    have scanned' := ofText_eq_ok.mp (ofText_spanText scanned noDash)
    have scanned := ofText_eq_ok.mp scanned
    obtain ⟨last, isLast⟩ := Option.isSome_iff_exists.mp (List.getLast?_isSome.mpr (List.cons_ne_nil t tokens))
    obtain ⟨last', isLast'⟩ := Option.isSome_iff_exists.mp (List.getLast?_isSome.mpr (List.cons_ne_nil u part))
    have isRebased : ((u :: part).map (Token.rebased t.offset)).getLast? = some (last'.rebased t.offset) := by
      rw [List.getLast?_map, isLast']
      rfl
    have split : (t :: tokens).map (Token.rebased t.offset) = front'.map (Token.rebased t.offset) ++
        (u :: part).map (Token.rebased t.offset) ++ back'.map (Token.rebased t.offset) := by
      rw [← same, List.map_append, List.map_append]
    rw [split] at scanned'
    have spans := (scanned.spanText isLast).trans (scanned'.spanText isRebased)
    rw [List.append_assoc, List.cons_append] at scanned
    obtain ⟨_, _, _, _, tight⟩ := scanned.startingAt
    have later : ∀ x ∈ u :: part, t.offset + (x.rebased t.offset).offset = x.offset := by
      intro x listed
      have among : x ∈ t :: tokens := by
        rw [← same]
        exact List.mem_append_left _ (List.mem_append_right _ listed)
      rw [← List.cons_append] at tight
      exact Nat.add_sub_cancel' (tight.ordered.1 x (List.mem_append_left _ among))
    have ends : t.offset + (last'.rebased t.offset).finish = last'.finish := by
      have starts := later last' (List.mem_of_getLast? isLast')
      rw [Token.finish, Token.finish, ← starts, Nat.add_assoc]
      rfl
    rw [later u (List.mem_cons_self ..), ends] at spans
    exact ((spanText_cons isLast').trans spans.slice).symm

end Lexer

end MiniSql
