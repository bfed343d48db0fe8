import Mathlib.Data.List.TakeWhile
import MiniSql.Grammar.Expression
import MiniSql.Proofs.Scanning

namespace MiniSql

/-- One decimal digit or more. -/
def Digits (cs : List Char) : Prop :=
  cs ≠ [] ∧ ∀ c ∈ cs, c.isDigit = true

theorem digits_toDigits (n : Nat) : Digits (Nat.toDigits 10 n) :=
  ⟨Nat.toDigits_ne_nil, fun _ listed => Nat.isDigit_of_mem_toDigits (by decide) (by decide) listed⟩

theorem Digits.append {cs ds : List Char} (first : Digits cs) (second : ∀ d ∈ ds, d.isDigit = true) :
    Digits (cs ++ ds) := by
  refine ⟨fun none => first.1 (List.append_eq_nil_iff.mp none).1, fun c listed => ?_⟩
  rcases List.mem_append.mp listed with front | back
  · exact first.2 c front
  · exact second c back

theorem Digits.startsDigit {cs : List Char} (digits : Digits cs) (rest : List Char) :
    Lexer.startsDigit (cs ++ rest) = true := by
  cases cs with
  | nil => exact absurd rfl digits.1
  | cons c cs => exact digits.2 c (by simp)

inductive FractionText : List Char → Prop
  | none : FractionText []
  | point {ds} : Digits ds → FractionText ('.' :: ds)

inductive PowerText : List Char → Prop
  | none : PowerText []
  | positive {ds} : Digits ds → PowerText ('e' :: ds)
  | negative {ds} : Digits ds → PowerText ('e' :: '-' :: ds)

/-- A number without a sign. -/
def NumberText (cs : List Char) : Prop :=
  ∃ whole fraction power, cs = whole ++ (fraction ++ power) ∧ Digits whole ∧ FractionText fraction ∧
    PowerText power

theorem NumberText.starts {cs : List Char} (number : NumberText cs) :
    ∃ c more, cs = c :: more ∧ c.isDigit = true := by
  obtain ⟨whole, fraction, power, rfl, digits, _⟩ := number
  obtain ⟨c, whole, rfl⟩ := List.exists_cons_of_ne_nil digits.1
  exact ⟨c, _, rfl, digits.2 c (by simp)⟩

namespace Lexer

theorem skipNumber_digits {seen : Bool} {cs rest : List Char} (digits : ∀ c ∈ cs, c.isDigit = true) :
    skipNumber seen (cs ++ rest) = skipNumber seen rest := by
  induction cs with
  | nil => rfl
  | cons c cs ih =>
    have digit := digits c (by simp)
    have noPoint : c ≠ '.' := by rintro rfl; simp at digit
    rw [List.cons_append, ← ih fun d listed => digits d (by simp [listed])]
    cases more : cs ++ rest with
    | nil => simp [skipNumber, digit]
    | cons d more => simp [skipNumber, digit]

theorem skipNumber_stops {seen : Bool} {rest : List Char} (delimits : Delimits rest) :
    skipNumber seen rest = rest := by
  rcases delimits.elim with rfl | ⟨c, more, rfl, listed⟩
  · rfl
  · simp only [List.mem_cons, List.not_mem_nil, or_false] at listed
    cases more with
    | nil => rcases listed with rfl | rfl | rfl | rfl <;> rfl
    | cons d more => rcases listed with rfl | rfl | rfl | rfl <;> rfl

theorem skipNumber_power {seen : Bool} {power rest : List Char} (written : PowerText power)
    (delimits : Delimits rest) : skipNumber seen (power ++ rest) = rest := by
  cases written with
  | none => exact skipNumber_stops delimits
  | @positive ds digits =>
    have after : skipNumber seen (ds ++ rest) = rest := by
      rw [skipNumber_digits digits.2, skipNumber_stops delimits]
    obtain ⟨d, ds, rfl⟩ := List.exists_cons_of_ne_nil digits.1
    simpa [skipNumber, digits.2 d (by simp)] using after
  | @negative ds digits =>
    have after : skipNumber seen (ds ++ rest) = rest := by
      rw [skipNumber_digits digits.2, skipNumber_stops delimits]
    simpa [skipNumber, digits.startsDigit rest] using after

theorem skipNumber_numberText {cs rest : List Char} (number : NumberText cs) (delimits : Delimits rest) :
    skipNumber false (cs ++ rest) = rest := by
  obtain ⟨whole, fraction, power, rfl, digits, point, exponent⟩ := number
  rw [List.append_assoc, List.append_assoc, skipNumber_digits digits.2]
  cases point with
  | none => exact skipNumber_power exponent delimits
  | @point ds more =>
    rw [List.cons_append, skipNumber, more.startsDigit]
    simp only [Bool.not_false, Bool.true_and, if_true]
    rw [skipNumber_digits more.2, skipNumber_power exponent delimits]

theorem isBlank_digit {c : Char} (digit : c.isDigit = true) : Text.isBlank c = false := by
  rw [Char.isDigit_iff_toNat] at digit
  have low : 48 ≤ c.toNat := digit.1
  have high : c.toNat ≤ 57 := digit.2
  simp only [Text.isBlank, Text.inRanges, Bool.or_false]
  simp
  omega

theorem isLexeme_number {text : String} (number : NumberText text.toList) :
    IsLexeme Delimits text ⟨.numeric, text⟩ := by
  have skips := fun rest (delimits : Delimits rest) => skipNumber_numberText number delimits
  obtain ⟨c, front, split, digit⟩ := number.starts
  have noGap : c ≠ '#' ∧ c ≠ '-' ∧ c ≠ '/' := by
    refine ⟨?_, ?_, ?_⟩ <;> (rintro rfl; simp at digit)
  refine ⟨c, front, split, fun rest delimits => ⟨?_, fun offset => ?_⟩⟩
  · exact skipGap_solid (isBlank_digit digit) noGap.1 (fun dash => absurd dash noGap.2.1)
      fun slash => absurd slash noGap.2.2
  · have skip := skips rest delimits
    have read : Text.upTo rest (text.toList ++ rest) = text.toList := by simp [Text.upTo]
    have cons : c :: (front ++ rest) = text.toList ++ rest := by simp [split]
    simp only [readLexeme, digit, Bool.true_or, if_true, cons, skip, read, String.ofList_toList]

end Lexer

theorem Digits.of_sublist {cs ds : List Char} (digits : Digits ds) (part : cs.Sublist ds)
    (some : cs ≠ []) : Digits cs :=
  ⟨some, fun c listed => digits.2 c (part.subset listed)⟩

theorem toList_int (i : Int) :
    (toString i).toList = (if i < 0 then ['-'] else []) ++ Nat.toDigits 10 i.natAbs := by
  rw [Int.toString_eq_repr, Int.repr_eq_if]
  by_cases negative : i < 0
  · have size : (-i).toNat = i.natAbs := by omega
    have noSign : ¬0 ≤ i := by omega
    rw [if_neg noSign, if_pos negative, size, String.toList_append, Nat.toList_repr]
    rfl
  · have size : i.toNat = i.natAbs := by omega
    have noSign : 0 ≤ i := by omega
    rw [if_pos noSign, if_neg negative, size, Nat.toList_repr]
    rfl

theorem powerText_int (i : Int) : PowerText ('e' :: (toString i).toList) := by
  rw [toList_int]
  by_cases negative : i < 0
  · rw [if_pos negative]
    exact .negative (digits_toDigits _)
  · rw [if_neg negative]
    exact .positive (digits_toDigits _)

namespace DoubleFormat

theorem literal_writeDigits {digits : List Char} (written : Digits digits) (point : Int) :
    NumberText (literal.writeDigits digits point) := by
  have zeros : ∀ n, ∀ c ∈ List.replicate n '0', c.isDigit = true := by
    intro n c listed
    rw [List.eq_of_mem_replicate listed]
    rfl
  have zero : Digits ['0'] := ⟨by simp, by simp⟩
  have size : 0 < digits.length := List.length_pos_iff.mpr written.1
  unfold writeDigits
  split
  · by_cases small : point ≤ 0
    · rw [if_pos small]
      refine ⟨['0'], '.' :: (List.replicate (-point).toNat '0' ++ digits), [], by simp, zero, ?_, .none⟩
      refine .point ⟨by simp [written.1], fun c listed => ?_⟩
      rcases List.mem_append.mp listed with front | back
      · exact zeros _ c front
      · exact written.2 c back
    · rw [if_neg small]
      by_cases wide : digits.length ≤ point.toNat
      · rw [if_pos wide]
        exact ⟨digits ++ List.replicate (point.toNat - digits.length) '0', ['.', '0'], [],
          by simp [literal], written.append (zeros _), .point zero, .none⟩
      · rw [if_neg wide]
        have front : digits.take point.toNat ≠ [] := by simp [written.1]; omega
        have back : digits.drop point.toNat ≠ [] := by simp; omega
        exact ⟨_, _, [], by simp, written.of_sublist (List.take_sublist _ _) front,
          .point (written.of_sublist (List.drop_sublist _ _) back), .none⟩
  · have front : digits.take 1 ≠ [] := by simp [written.1]
    have first := written.of_sublist (List.take_sublist 1 digits) front
    cases more : digits.drop 1 with
    | nil => exact ⟨digits.take 1, [], _, by simp [literal], first, .none, powerText_int (point - 1)⟩
    | cons d ds =>
      have tail : Digits (d :: ds) := more ▸ written.of_sublist (List.drop_sublist _ _) (by simp [more])
      exact ⟨digits.take 1, '.' :: d :: ds, _, by simp [literal], first, .point tail,
        powerText_int (point - 1)⟩

theorem literal_writeSize (mantissa : Nat) (exponent : Int) :
    NumberText (literal.writeSize mantissa exponent) := by
  unfold writeSize
  split
  · exact ⟨['0'], ['.', '0'], [], rfl, ⟨by simp, by simp⟩, .point ⟨by simp, by simp⟩, .none⟩
  · exact literal_writeDigits (digits_toDigits _) _

end DoubleFormat

/-- A number, perhaps after a minus. -/
inductive SignedText : String → Prop
  | plain {text} : NumberText text.toList → SignedText text
  | negative {text} : NumberText text.toList → SignedText ("-" ++ text)

theorem SignedText.of_size (negative : Bool) {text : String} {size : List Char} (number : NumberText size)
    (split : text.toList = (if negative then ['-'] else []) ++ size) :
    SignedText text := by
  have chars : (String.ofList size).toList = size := String.toList_ofList
  cases negative with
  | true =>
    have same : text = "-" ++ String.ofList size := by
      rw [← String.toList_inj, split, String.toList_append, chars]
      rfl
    exact same ▸ .negative (by rwa [chars])
  | false =>
    have same : text = String.ofList size := by
      rw [← String.toList_inj, split, chars]
      rfl
    exact same ▸ .plain (by rwa [chars])

theorem signedText_int (i : Int) : SignedText (toString i) := by
  have whole : NumberText (Nat.toDigits 10 i.natAbs) :=
    ⟨_, [], [], by rw [List.append_nil, List.append_nil], digits_toDigits _, .none, .none⟩
  exact .of_size (i < 0) whole (by simp only [toList_int, decide_eq_true_eq])

theorem signedText_float {x : Float} (finite : (Dyadic.ofFloat? x).isSome) :
    SignedText (DoubleFormat.literal.write x) := by
  obtain ⟨d, read⟩ := Option.isSome_iff_exists.mp finite
  refine .of_size d.negative (DoubleFormat.literal_writeSize d.mantissa d.exponent) ?_
  simp [DoubleFormat.write, read]

/-- The signs of a number that may start with a minus. -/
def numberSigns (text : String) : List Sign :=
  match text.toList with
  | '-' :: size => [.operator "-", ⟨.numeric, String.ofList size⟩]
  | _ => [⟨.numeric, text⟩]

theorem numberSigns_negative (text : String) :
    numberSigns ("-" ++ text) = [.operator "-", ⟨.numeric, text⟩] := by
  simp [numberSigns]

theorem numberSigns_plain {text : String} (number : NumberText text.toList) :
    numberSigns text = [⟨.numeric, text⟩] := by
  obtain ⟨c, more, starts, digit⟩ := number.starts
  unfold numberSigns
  split
  · next dash =>
    rw [starts, List.cons.injEq] at dash
    simp [dash.1] at digit
  · rfl

open Lexer in
theorem SignedText.lexes {text : String} (signed : SignedText text) : Lexes text (numberSigns text) := by
  cases signed with
  | plain number =>
    rw [numberSigns_plain number]
    exact (isLexeme_number number).lexes
  | @negative size number =>
    intro rest more delimits scans
    have after := (isLexeme_number number).scans delimits scans
    have noDash : (size.toList ++ rest).head? ≠ some '-' := by
      obtain ⟨c, more, starts, digit⟩ := number.starts
      rw [starts, List.cons_append, List.head?_cons]
      rintro ⟨⟩
      simp at digit
    rw [numberSigns_negative]
    simpa using isLexeme_minus.scans noDash after

namespace Grammar

theorem scan?_digits (negative : Bool) {digits : List Char} (written : Digits digits) :
    Numeral.scan? ((if negative then ['-'] else []) ++ digits) =
      some (⟨negative, digits, none, none⟩, []) := by
  obtain ⟨d, ds, rfl⟩ := List.exists_cons_of_ne_nil written.1
  have sign : Numeral.takeSign ((if negative then ['-'] else []) ++ d :: ds) = (negative, d :: ds) := by
    have digit := written.2 d (by simp)
    cases negative with
    | true => rfl
    | false =>
      have noSign : d ≠ '-' ∧ d ≠ '+' := by
        constructor <;> (rintro rfl; simp at digit)
      simp [Numeral.takeSign, noSign]
  have taken : (d :: ds).takeWhile Char.isDigit = d :: ds := List.takeWhile_eq_self_iff.mpr written.2
  have left : (d :: ds).dropWhile Char.isDigit = [] := List.dropWhile_eq_nil_iff.mpr written.2
  simp only [Numeral.scan?, sign, taken, left, Numeral.takeFraction, Numeral.takePower]
  rfl

/-- An integer literal is read as itself. -/
theorem numberValue_int (i : Int64) : numberValue (toString i.toInt) = .ok (.int i) := by
  have size : Numeral.digitsValue (Nat.toDigits 10 i.toInt.natAbs) = i.toInt.natAbs :=
    Nat.ofDigitChars_ten_toDigits
  have scanned := scan?_digits (i.toInt < 0) (digits_toDigits i.toInt.natAbs)
  have value : (⟨decide (i.toInt < 0), Nat.toDigits 10 i.toInt.natAbs, none, none⟩ : Numeral).toInt? =
      some i.toInt := by
    simp only [Numeral.toInt?, size, decide_eq_true_eq, Int.ofNat_eq_natCast, Option.some.injEq]
    split <;> omega
  have bounds : Int64.minValue.toInt ≤ i.toInt ∧ i.toInt ≤ Int64.maxValue.toInt :=
    ⟨Int64.minValue_le_toInt i, Int64.toInt_le i⟩
  simp only [decide_eq_true_eq] at scanned
  simp only [numberValue, toList_int, scanned, Numeric.ofNumeral, value, Option.bind_some, int64?, bounds,
    and_self, if_true, Numeric.toValue, Int64.ofInt_toInt]

end Grammar

end MiniSql
