import MiniSql.Proofs.NumberLiteral
import MiniSql.Proofs.NumericStrings
import MiniSql.Proofs.ShortestDecimals
import MiniSql.Proofs.SpelledNumerals

namespace MiniSql

namespace Numeral

theorem digitsValue_append (front back : List Char) :
    digitsValue (front ++ back) = digitsValue front * 10 ^ back.length + digitsValue back := by
  have split : Nat.ofDigitChars 10 (front ++ back) 0 =
      10 ^ back.length * Nat.ofDigitChars 10 front 0 + Nat.ofDigitChars 10 back 0 := by
    rw [Nat.ofDigitChars_append, Nat.ofDigitChars_eq_ofDigitChars_zero]
  rw [Nat.mul_comm] at split
  exact split

theorem digitsValue_zeros (n : ℕ) : digitsValue (List.replicate n '0') = 0 :=
  Nat.ofDigitChars_replicate_zero.trans (Nat.mul_zero _)

/-- The digits without the point, and the power of ten that belongs to the last one. -/
def size (n : Numeral) : Decimal :=
  ⟨digitsValue (n.whole ++ n.fraction.getD []), n.power.getD 0 - Int.ofNat (n.fraction.getD []).length⟩

theorem toFloat_eq (n : Numeral) : n.toFloat = if n.negative then -n.size.toFloat else n.size.toFloat :=
  rfl

/-- The parts behind the whole digits, each with its mark. -/
def fractionText : Option (List Char) → List Char
  | some digits => '.' :: digits
  | none => []

def powerText : Option Int → List Char
  | some power => 'e' :: (toString power).toList
  | none => []

/-- The number as literals write it, without its sign. -/
def text (n : Numeral) : List Char :=
  n.whole ++ (fractionText n.fraction ++ powerText n.power)

/-- There are digits before a point and after it. -/
structure Written (n : Numeral) : Prop where
  whole : Digits n.whole
  fraction : ∀ digits ∈ n.fraction, Digits digits

theorem spellsSign (negative : Bool) : SpellsSign (if negative then ['-'] else []) negative := by
  cases negative with
  | true => exact .minus
  | false => exact .absent

theorem spellsPower_text (power : Option Int) : SpellsPower (powerText power) power := by
  cases power with
  | none => exact .absent
  | some power =>
    have size : digitsValue (Nat.toDigits 10 power.natAbs) = power.natAbs := Nat.ofDigitChars_ten_toDigits
    have spelled := SpellsPower.mark (.inl rfl) (spellsSign (power < 0)) (digits_toDigits power.natAbs)
    have value : (if decide (power < 0) then -Int.ofNat power.natAbs else Int.ofNat power.natAbs) = power := by
      simp only [decide_eq_true_eq, Int.ofNat_eq_natCast]
      split <;> omega
    rw [size, value] at spelled
    rw [powerText, toList_int]
    simpa only [decide_eq_true_eq] using spelled

/-- Literals are numerals, with their parts. -/
theorem Written.spells {n : Numeral} (written : n.Written) :
    Spells ((if n.negative then ['-'] else []) ++ n.text) n := by
  obtain ⟨negative, whole, fraction, power⟩ := n
  have size : SpellsSize (whole ++ fractionText fraction) whole fraction := by
    cases fraction with
    | none =>
      rw [fractionText, List.append_nil]
      exact .whole written.whole
    | some digits => exact .point written.whole (written.fraction digits rfl).2
  rw [text, ← List.append_assoc whole]
  exact .of (spellsSign negative) size (spellsPower_text power)

/-- The numeral is the digits with a point behind the first `point` of them. It is no integer. -/
structure Shows (n : Numeral) (negative : Bool) (digits : List Char) (point : Int) : Prop where
  sign : n.negative = negative
  written : n.Written
  fractional : n.toInt? = none
  value : n.size.value = digitsValue digits * 10 ^ (point - digits.length)

theorem size_value (n : Numeral) : n.size.value =
    digitsValue (n.whole ++ n.fraction.getD []) * 10 ^ (n.power.getD 0 - (n.fraction.getD []).length) :=
  rfl

variable {digits : List Char} {point : Int}

theorem shows_small (negative : Bool) (written : Digits digits) (small : point ≤ 0) :
    Shows ⟨negative, ['0'], some (List.replicate (-point).toNat '0' ++ digits), none⟩ negative digits point := by
  have zeros : ∀ c ∈ List.replicate (-point).toNat '0', c.isDigit = true := by
    intro c listed
    rw [List.eq_of_mem_replicate listed]
    rfl
  refine ⟨rfl, ⟨⟨by simp, by simp⟩, ?_⟩, rfl, ?_⟩
  · rintro _ ⟨⟩
    refine ⟨by simp [written.1], fun c listed => ?_⟩
    exact (List.mem_append.mp listed).elim (zeros c) (written.2 c)
  · have zero : digitsValue ['0'] = 0 := rfl
    rw [size_value]
    simp only [Option.getD_some, Option.getD_none, digitsValue_append, digitsValue_zeros, zero, List.length_append,
      List.length_replicate, Nat.zero_mul, Nat.zero_add]
    congr 2
    omega

theorem shows_whole (negative : Bool) (written : Digits digits) (wide : digits.length ≤ point.toNat) :
    Shows ⟨negative, digits ++ List.replicate (point.toNat - digits.length) '0', some ['0'], none⟩ negative digits point := by
  have zeros : ∀ c ∈ List.replicate (point.toNat - digits.length) '0', c.isDigit = true := by
    intro c listed
    rw [List.eq_of_mem_replicate listed]
    rfl
  refine ⟨rfl, ⟨written.append zeros, ?_⟩, rfl, ?_⟩
  · rintro _ ⟨⟩
    exact ⟨by simp, by simp⟩
  · have zero : digitsValue ['0'] = 0 := rfl
    have size : 0 < digits.length := List.length_pos_iff.mpr written.1
    have exponent : point - digits.length = (point.toNat - digits.length : ℕ) := by omega
    rw [size_value, exponent, zpow_natCast]
    simp only [Option.getD_some, Option.getD_none, digitsValue_append, digitsValue_zeros, zero, List.length_replicate,
      List.length_singleton, Nat.add_zero, Nat.pow_one]
    push_cast
    norm_num
    ring

theorem shows_split (negative : Bool) (written : Digits digits) (inside : ¬ digits.length ≤ point.toNat) (positive : ¬ point ≤ 0) :
    Shows ⟨negative, digits.take point.toNat, some (digits.drop point.toNat), none⟩ negative digits point := by
  refine ⟨rfl, ⟨written.of_sublist (List.take_sublist _ _) ?_, ?_⟩, rfl, ?_⟩
  · simp [written.1]
    omega
  · rintro _ ⟨⟩
    refine written.of_sublist (List.drop_sublist _ _) ?_
    simp
    omega
  · rw [size_value]
    simp only [Option.getD_some, Option.getD_none, List.take_append_drop, List.length_drop]
    congr 2
    omega

theorem shows_power (negative : Bool) (written : Digits digits) (point : Int) :
    Shows ⟨negative, digits.take 1, if digits.drop 1 = [] then none else some (digits.drop 1), some (point - 1)⟩
      negative digits point := by
  have size : 0 < digits.length := List.length_pos_iff.mpr written.1
  have fraction : (if digits.drop 1 = [] then none else some (digits.drop 1)).getD [] = digits.drop 1 := by
    split
    · next none => exact none.symm
    · rfl
  refine ⟨rfl, ⟨written.of_sublist (List.take_sublist _ _) (by simp [written.1]), ?_⟩, ?_, ?_⟩
  · intro ds listed
    split at listed
    · cases listed
    · next some =>
      cases listed
      exact written.of_sublist (List.drop_sublist _ _) some
  · unfold toInt?
    split
    · next none => cases none
    · rfl
  · rw [size_value]
    simp only [fraction, Option.getD_some, List.take_append_drop, List.length_drop]
    congr 2
    omega

end Numeral

/-- The digits of a literal are written as a numeral. -/
theorem DoubleFormat.exists_shows {digits : List Char} (negative : Bool) (written : Digits digits) (point : Int) :
    ∃ n : Numeral, n.Shows negative digits point ∧ n.text = literal.writeDigits digits point := by
  unfold writeDigits
  split
  · by_cases small : point ≤ 0
    · refine ⟨_, Numeral.shows_small negative written small, ?_⟩
      rw [if_pos small]
      simp [Numeral.text, Numeral.fractionText, Numeral.powerText]
    · by_cases wide : digits.length ≤ point.toNat
      · refine ⟨_, Numeral.shows_whole negative written wide, ?_⟩
        rw [if_neg small, if_pos wide]
        simp [Numeral.text, Numeral.fractionText, Numeral.powerText, literal]
      · refine ⟨_, Numeral.shows_split negative written wide small, ?_⟩
        rw [if_neg small, if_neg wide]
        simp [Numeral.text, Numeral.fractionText, Numeral.powerText]
  · refine ⟨_, Numeral.shows_power negative written point, ?_⟩
    cases more : digits.drop 1 with
    | nil => simp [Numeral.text, Numeral.fractionText, Numeral.powerText, literal]
    | cons d ds => simp [Numeral.text, Numeral.fractionText, Numeral.powerText, literal]

/-- A numeral near to a double, with its sign, is read as this double. -/
theorem Numeral.toFloat_eq_of_nearest {n : Numeral} {x : Float} {d : Dyadic} (parts : Dyadic.ofFloat? x = some d)
    (nonzero : d.mantissa ≠ 0) (sign : n.negative = d.negative)
    (nearest : Double.Nearest n.size.value d.mantissa d.exponent) : n.toFloat = x := by
  obtain ⟨negative, m, e⟩ := d
  have double := Double.hasParts_of_ofFloat? parts nonzero
  have positive : Dyadic.ofFloat? n.size.toFloat = some ⟨false, m, e⟩ := by
    rw [Double.ofFloat?_eq, Decimal.toFloat_nearest double nearest]
    rfl
  refine Double.ofFloat?_inj ?_ parts
  rw [n.toFloat_eq, sign]
  cases negative with
  | false => exact positive
  | true => exact Double.ofFloat?_neg positive

/-- Zero is written with its sign too. -/
theorem Numeral.toFloat_zero {x : Float} {d : Dyadic} (parts : Dyadic.ofFloat? x = some d) (zero : d.mantissa = 0) :
    Numeral.toFloat ⟨d.negative, ['0'], some ['0'], none⟩ = x := by
  obtain ⟨negative, m, e⟩ := d
  obtain rfl : m = 0 := zero
  obtain rfl : e = -1074 := Double.exponent_of_zero parts
  refine Double.ofFloat?_inj ?_ parts
  cases negative <;> rfl

/-- A finite double is read as it is written. -/
theorem Grammar.numberValue_float {x : Float} (finite : (Dyadic.ofFloat? x).isSome) :
    numberValue (DoubleFormat.literal.write x) = .ok (.float x) := by
  obtain ⟨d, parts⟩ := Option.isSome_iff_exists.mp finite
  obtain ⟨n, sign, written, fractional, text, value⟩ : ∃ n : Numeral, n.negative = d.negative ∧ n.Written ∧
      n.toInt? = none ∧ n.text = DoubleFormat.literal.writeSize d.mantissa d.exponent ∧ n.toFloat = x := by
    by_cases zero : d.mantissa = 0
    · have digits : Digits ['0'] := ⟨by simp, by simp⟩
      refine ⟨⟨d.negative, ['0'], some ['0'], none⟩, rfl, ⟨digits, ?_⟩, rfl, ?_, Numeral.toFloat_zero parts zero⟩
      · rintro _ ⟨⟩
        exact digits
      · rw [DoubleFormat.writeSize, if_pos zero]
        rfl
    · have double := Double.hasParts_of_ofFloat? parts zero
      have nearest := Decimal.shortest_nearest .up double
      obtain ⟨n, shows, text⟩ := DoubleFormat.exists_shows d.negative
        (digits_toDigits (Decimal.shortest .up d.mantissa d.exponent).digits)
        ((Nat.toDigits 10 (Decimal.shortest .up d.mantissa d.exponent).digits).length +
          (Decimal.shortest .up d.mantissa d.exponent).exponent)
      refine ⟨n, shows.sign, shows.written, shows.fractional, ?_, ?_⟩
      · rw [DoubleFormat.writeSize, if_neg zero]
        exact text
      · refine Numeral.toFloat_eq_of_nearest parts zero shows.sign ?_
        have digits : Numeral.digitsValue (Nat.toDigits 10 (Decimal.shortest .up d.mantissa d.exponent).digits) =
          (Decimal.shortest .up d.mantissa d.exponent).digits := Nat.ofDigitChars_ten_toDigits
        rw [shows.value, digits, add_sub_cancel_left]
        exact nearest
  have scanned := written.spells.scan?
  have whole : (DoubleFormat.literal.write x).toList = (if n.negative then ['-'] else []) ++ n.text := by
    simp [DoubleFormat.write, parts, sign, text]
  simp only [numberValue, whole, scanned, Numeric.ofNumeral, fractional, Option.bind_none, value, Numeric.toValue]

/-- The value is no infinite double, and not NaN. -/
def Value.IsFinite (v : Value) : Prop :=
  ∀ x, v = .float x → (Dyadic.ofFloat? x).isSome

theorem SignedText.writtenAs {text : String} {v : Value} (signed : SignedText text)
    (value : Grammar.numberValue text = .ok v) : v.WrittenAs (numberSigns text) := by
  cases signed with
  | plain number =>
    rw [numberSigns_plain number]
    exact .number value
  | negative number =>
    rw [numberSigns_negative]
    exact .negative value

theorem Value.writtenAs_signs {v : Value} (finite : v.IsFinite) : v.WrittenAs v.signs := by
  cases v with
  | null => exact .null _
  | bool b => exact .bool b
  | int i => exact (signedText_int i.toInt).writtenAs (Grammar.numberValue_int i)
  | float x =>
    simp only [Value.signs, if_pos (finite x rfl)]
    exact (signedText_float (finite x rfl)).writtenAs (Grammar.numberValue_float (finite x rfl))
  | str s => exact .str s

namespace Expr

theorem ReadFrom.unique {text : String} {e e' : Expr} (first : ReadFrom text e) (second : ReadFrom text e') : e = e' := by
  obtain ⟨tokens, cut, read⟩ := first
  obtain ⟨tokens', cut', read'⟩ := second
  obtain rfl := Except.ok.inj (cut.symm.trans cut')
  exact congrArg Prod.fst (Except.ok.inj (read.symm.trans read'))

theorem readFrom_word (word : String) (cut : Token.ofText word = .ok [⟨.name, word, word, 0⟩]) :
    ReadFrom word (.column ⟨none, word⟩) := by
  refine readFrom_tokens Value.signs ?_ cut rfl
  simp [nodes, Node.IsOperation]

/-- The texts of the infinities and of NaN are names, so they are read as columns. -/
theorem readFrom_infinite {x : Float} (infinite : Dyadic.ofFloat? x = none) :
    ∃ e, ReadFrom (Value.float x).toLiteral e ∧ ∀ v, e ≠ .literal v := by
  have written : (Value.float x).toLiteral = if x.isNaN then "NaN" else if x < 0 then "-inf" else "inf" := by
    simp [Value.toLiteral, DoubleFormat.write, infinite]
  rw [written]
  split_ifs
  · exact ⟨_, readFrom_word "NaN" (by decide +kernel), fun _ same => by cases same⟩
  · have cut : Token.ofText "-inf" = .ok [⟨.operator, "-", "-", 0⟩, ⟨.name, "inf", "inf", 1⟩] := by decide +kernel
    refine ⟨.unary .negate (.column ⟨none, "inf"⟩), readFrom_tokens Value.signs ?_ cut rfl, fun _ same => by cases same⟩
    simp [nodes, Node.IsOperation]
  · exact ⟨_, readFrom_word "inf" (by decide +kernel), fun _ same => by cases same⟩

/-- A value is read from its own literal exactly if it is finite: numbers of any size and precision, strings of any
characters, NULL and the booleans. -/
theorem literal_reads_back (v : Value) : ReadFrom v.toLiteral (.literal v) ↔ v.IsFinite := by
  constructor
  · rintro read x rfl
    by_contra infinite
    obtain ⟨e, other, noLiteral⟩ := readFrom_infinite (Option.not_isSome_iff_eq_none.mp infinite)
    exact noLiteral _ (other.unique read)
  · intro finite
    have lexes := Lexer.lexes_literal v [] [] nofun (.done rfl)
    rw [List.append_nil, List.append_nil] at lexes
    refine readFrom_of_signs Value.signs ?_ lexes
    simpa [nodes, Node.IsOperation] using Value.writtenAs_signs finite

/-- A number beyond the greatest double is read as infinite, and its literal as a column. -/
theorem large_reads_column :
    let v : Value := .float Double.positiveInfinity
    ReadFrom "1e999" (.literal v) ∧ ReadFrom v.toLiteral (.column ⟨none, "inf"⟩) ∧
      ¬ ReadFrom v.toLiteral (.literal v) := by
  intro v
  have cut : Token.ofText "1e999" = .ok [⟨.numeric, "1e999", "1e999", 0⟩] := by decide +kernel
  have accepted : Grammar.numberValue "1e999" = .ok v := rfl
  have written : v.toLiteral = "inf" := by decide +kernel
  have column := readFrom_word "inf" (by decide +kernel)
  rw [written]
  refine ⟨readFrom_number (.number accepted) (Lexer.isNumber_of_scanned cut).lexes, column, fun read => ?_⟩
  cases column.unique read

end Expr

end MiniSql
