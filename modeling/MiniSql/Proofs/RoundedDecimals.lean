import MiniSql.Proofs.IntegerArithmetic
import MiniSql.Proofs.WrittenLiterals

namespace MiniSql

namespace Double

open Float.Model (Format UnpackedFloat)
open Float.Model.UnpackedFloat

/-- A number of the size `q` and the sign given is rounded to `x`: to the nearest double, in the middle between two to
that with the even mantissa, to zero up to the half of the least double, and to an infinite one from half a unit beyond
the greatest double on. -/
inductive Rounded (negative : Bool) (q : ℚ) (x : Float) : Prop
  | finite {m e} (parts : Dyadic.ofFloat? x = some ⟨negative, m, e⟩) (nonzero : m ≠ 0) (nearest : Nearest q m e)
  | zero {e} (parts : Dyadic.ofFloat? x = some ⟨negative, 0, e⟩) (small : q ≤ 2 ^ (-1075 : ℤ))
  | infinite (infinite : x = if negative then -positiveInfinity else positiveInfinity)
      (large : (2 ^ 54 - 1) * 2 ^ (970 : ℤ) ≤ q)

variable {q p : ℚ} {m r : ℕ} {e g : ℤ} {x : Float} {u : UnpackedFloat}

/-- The integer that is nearest at the place of the last bit is the mantissa of the nearest double. -/
theorem NearestEven.nearest (near : NearestEven p r) (bottom : 2 ^ 52 ≤ p ∨ g = -1074) : Nearest (p * 2 ^ g) r g := by
  have unit : (0 : ℚ) < 2 ^ g := by positivity
  have low := near.low
  have high := near.high
  have room : (4 * r - gap r g : ℚ) ≤ 4 * p := by
    unfold gap
    split_ifs with power
    · have full := bottom.resolve_right power.2.ne'
      have mantissa : (r : ℚ) = 2 ^ 52 := by exact_mod_cast power.1
      push_cast
      linarith
    · push_cast
      linarith
  constructor
  · calc (4 * r - gap r g : ℚ) * 2 ^ g ≤ 4 * p * 2 ^ g := mul_le_mul_of_nonneg_right room unit.le
      _ = 4 * (p * 2 ^ g) := mul_assoc _ _ _
  · calc 4 * (p * 2 ^ g) = 4 * p * 2 ^ g := (mul_assoc _ _ _).symm
      _ ≤ (4 * r + 2) * 2 ^ g := mul_le_mul_of_nonneg_right (by linarith) unit.le
  · intro odd
    obtain ⟨above, below⟩ := near.odd odd
    have gapTwo : gap r g = 2 := if_neg fun power => by rw [power.1] at odd; cases odd
    rw [gapTwo, ← mul_assoc]
    push_cast
    exact ⟨mul_lt_mul_of_pos_right (by linarith) unit, mul_lt_mul_of_pos_right (by linarith) unit⟩

/-- A carry gives a power of two. -/
theorem NearestEven.carried (near : NearestEven p (2 ^ 53)) (top : p < 2 ^ 53) (least : -1074 ≤ g) :
    Nearest (p * 2 ^ g) (2 ^ 52) (g + 1) := by
  have unit : (0 : ℚ) < 2 ^ g := by positivity
  have low := near.low
  rw [Nat.cast_pow, Nat.cast_ofNat] at low
  refine ⟨?_, ?_, nofun⟩
  · rw [gap_power (by omega), zpow_add_one₀ two_ne_zero]
    push_cast
    nlinarith
  · rw [zpow_add_one₀ two_ne_zero]
    push_cast
    nlinarith

/-- With no bound for the exponents, the doubles would go on after the greatest one. -/
theorem large_of_nearest (full : 2 ^ 52 ≤ m) (beyond : 972 ≤ e) (nearest : Nearest q m e) :
    (2 ^ 54 - 1) * 2 ^ (970 : ℤ) ≤ q := by
  have mantissa : (2 ^ 54 - 1 : ℚ) ≤ 4 * m - gap m e := by
    rcases full.eq_or_lt with rfl | more
    · rw [gap_power (by omega)]
      norm_num
    · have more : (2 ^ 52 : ℚ) + 1 ≤ m := by exact_mod_cast more
      linarith [gap_le m e]
  have unit : (2 : ℚ) ^ (970 : ℤ) * 4 ≤ 2 ^ e := by
    calc (2 : ℚ) ^ (970 : ℤ) * 4 = 2 ^ (972 : ℤ) := by
          rw [show (972 : ℤ) = 970 + 2 from rfl, zpow_add₀ two_ne_zero]
          norm_num
      _ ≤ 2 ^ e := zpow_le_zpow_right₀ one_le_two beyond
  have low : (2 ^ 54 - 1 : ℚ) * (2 ^ (970 : ℤ) * 4) ≤ 4 * q :=
    (mul_le_mul mantissa unit (by positivity) (by linarith)).trans nearest.low
  linarith

theorem rounded_of_pack {pos : 0 < m} (packed : x.toModel = Float.Model.pack (.finite .positive m e pos))
    (short : m < 2 ^ 53) (least : -1074 ≤ e) (full : e = -1074 ∨ 2 ^ 52 ≤ m) (nearest : Nearest q m e) :
    Rounded false q x := by
  by_cases most : e ≤ 971
  · have parts : HasParts m e := ⟨pos, short, least, most, full⟩
    refine .finite (m := m) (e := e) ?_ pos.ne' nearest
    rw [ofFloat?_eq, packed, parts.unpack_pack]
    rfl
  · have full := full.resolve_left (by omega)
    refine .infinite ?_ (large_of_nearest full (by omega) nearest)
    have beyond : 2 ^ Format.binary64.exponentBits ≤
        (e + (Format.binary64.exponentBias : Int) + (Format.binary64.mantissaBitsWithoutImplicit : Int)).toNat + 1 := by
      show 2 ^ 11 ≤ (e + 1023 + 52).toNat + 1
      omega
    have same : UnpackedFloat.pack .binary64 (.finite .positive m e pos) =
        UnpackedFloat.packedInfinity .binary64 .positive := if_pos beyond
    refine toBits_inj ?_
    show x.toModel.toBits = _
    rw [packed]
    show UInt64.ofBitVec (UnpackedFloat.pack .binary64 (.finite .positive m e pos)) = _
    rw [same]
    rfl

theorem RoundingOf.rounded (rounding : RoundingOf .positive q u) (packed : x.toModel = Float.Model.pack u) :
    Rounded false q x := by
  obtain ⟨p, g, r, rfl, top, bottom, least, near, result⟩ := rounding.place
  rcases result with ⟨rfl, rfl⟩ | ⟨pos, short, rfl⟩ | ⟨rfl, rfl⟩
  · have high := near.high
    rw [Nat.cast_zero, zero_add] at high
    obtain rfl := bottom.resolve_left (by linarith)
    refine .zero (e := -1074) ?_ ?_
    · rw [ofFloat?_eq, packed, unpack_pack_zero]
      rfl
    · rw [show (-1074 : ℤ) = -1075 + 1 from rfl, zpow_add_one₀ two_ne_zero]
      nlinarith [show (0 : ℚ) < 2 ^ (-1075 : ℤ) by positivity]
  · refine rounded_of_pack packed short least (bottom.symm.imp_right fun large => ?_) (near.nearest bottom)
    have : ((2 ^ 52 : ℕ) : ℚ) < r + 1 := by
      push_cast
      linarith [near.high]
    have : 2 ^ 52 < r + 1 := by exact_mod_cast this
    omega
  · exact rounded_of_pack packed (by decide) (by omega) (.inr (Nat.le_refl _)) (near.carried top least)

theorem Rounded.neg (rounded : Rounded false q x) : Rounded true q (-x) := by
  cases rounded with
  | finite parts nonzero nearest => exact .finite (ofFloat?_neg parts) nonzero nearest
  | zero parts small => exact .zero (ofFloat?_neg parts) small
  | infinite infinite large => exact .infinite (congrArg (- ·) infinite) large

theorem exists_rounding (positive : 0 < q) : ∃ u, RoundingOf .positive q u := by
  obtain ⟨scaled, scales⟩ : ∃ scaled, scaled = q * 2 ^ (1074 : ℤ) := ⟨_, rfl⟩
  have numerator : (scaled.num.toNat : ℚ) = scaled.num := by
    have := Rat.num_nonneg.mpr (show 0 ≤ scaled by rw [scales]; positivity)
    exact_mod_cast Int.toNat_of_nonneg this
  have value : (scaled.num.toNat / scaled.den * 2 ^ (-1074 : ℤ) : ℚ) = q := by
    rw [numerator, Rat.num_div_den, scales, mul_assoc, ← zpow_add₀ two_ne_zero]
    exact mul_one q
  rw [← value]
  exact ⟨_, .of (stands_quotient scaled.num.toNat scaled.den_pos) scaled.den_pos (le_refl (-1074)) (.inr rfl)⟩

theorem Nearest.unique {m' : ℕ} {e' : ℤ} (parts : HasParts m e) (first : Nearest q m e) (parts' : HasParts m' e')
    (second : Nearest q m' e') : m = m' ∧ e = e' := by
  have positive : 0 < q := lt_trans (by positivity) (Decimal.least_lt_of_nearest parts first)
  obtain ⟨u, rounding⟩ := exists_rounding positive
  have same := (rounding.eq_of_nearest parts first).symm.trans (rounding.eq_of_nearest parts' second)
  cases same
  exact ⟨rfl, rfl⟩

/-- A number is rounded to one double. -/
theorem Rounded.unique {y : Float} {negative : Bool} (first : Rounded negative q x) (second : Rounded negative q y) :
    x = y := by
  have below : (2 : ℚ) ^ (-1075 : ℤ) < (2 ^ 54 - 1) * 2 ^ (970 : ℤ) := by
    calc (2 : ℚ) ^ (-1075 : ℤ) < 1 := zpow_lt_one_of_neg₀ one_lt_two (by decide)
      _ ≤ (2 ^ 54 - 1) * 2 ^ (970 : ℤ) :=
        one_le_mul_of_one_le_of_one_le (by norm_num) (one_le_zpow₀ one_le_two (by decide))
  cases first with
  | finite parts nonzero nearest =>
    have double := hasParts_of_ofFloat? parts nonzero
    cases second with
    | finite parts' nonzero' nearest' =>
      obtain ⟨rfl, rfl⟩ := Nearest.unique double nearest (hasParts_of_ofFloat? parts' nonzero') nearest'
      exact ofFloat?_inj parts parts'
    | zero _ small => exact absurd (Decimal.least_lt_of_nearest double nearest) (not_lt.mpr small)
    | infinite _ large => exact absurd (Decimal.lt_most_of_nearest double nearest) (not_lt.mpr large)
  | zero parts small =>
    cases second with
    | finite parts' nonzero' nearest' =>
      exact absurd (Decimal.least_lt_of_nearest (hasParts_of_ofFloat? parts' nonzero') nearest') (not_lt.mpr small)
    | zero parts' _ =>
      obtain rfl := exponent_of_zero parts
      obtain rfl := exponent_of_zero parts'
      exact ofFloat?_inj parts parts'
    | infinite _ large => exact absurd (large.trans small) (not_le.mpr below)
  | infinite infinite large =>
    cases second with
    | finite parts' nonzero' nearest' =>
      exact absurd (Decimal.lt_most_of_nearest (hasParts_of_ofFloat? parts' nonzero') nearest') (not_lt.mpr large)
    | zero _ small => exact absurd (large.trans small) (not_le.mpr below)
    | infinite infinite' _ => exact infinite.trans infinite'.symm

end Double

theorem Decimal.toFloat_rounded (d : Decimal) : Double.Rounded false d.value d.toFloat := by
  rcases d.toFloat_rounding with ⟨small, zero⟩ | ⟨large, infinite⟩ | ⟨u, rounding, packed⟩
  · rw [zero]
    exact .zero (e := -1074) rfl small
  · exact .infinite infinite large
  · exact rounding.rounded packed

theorem Numeral.toFloat_rounded (n : Numeral) : Double.Rounded n.negative n.size.value n.toFloat := by
  rw [n.toFloat_eq]
  cases n.negative with
  | true => exact n.size.toFloat_rounded.neg
  | false => exact n.size.toFloat_rounded

/-- The number that is written. -/
def Numeral.value (n : Numeral) : ℚ :=
  if n.negative then -n.size.value else n.size.value

theorem Numeral.toInt?_eq_some {n : Numeral} {i : Int} :
    n.toInt? = some i ↔ n.fraction = none ∧ n.power = none ∧ n.value = i := by
  obtain ⟨negative, whole, fraction, power⟩ := n
  have size : (⟨negative, whole, none, none⟩ : Numeral).value =
      ((if negative then -Int.ofNat (digitsValue whole) else Int.ofNat (digitsValue whole) : Int) : ℚ) := by
    rw [value, size_value]
    cases negative <;> simp
  cases fraction with
  | some digits => simp [toInt?]
  | none =>
    cases power with
    | some power => simp [toInt?]
    | none => simp only [toInt?, size, Option.some.injEq, true_and, Int.cast_inj]

namespace Numeric

/-- What a numeral is converted to: it stays an integer if it is written as one and has 64 bits. -/
inductive Converts (n : Numeral) : Numeric → Prop
  | int {i} (fraction : n.fraction = none) (power : n.power = none) (value : (i.toInt : ℚ) = n.value) :
      Converts n (int i)
  | float {x} (other : n.fraction = none → n.power = none → ∀ i : Int64, (i.toInt : ℚ) ≠ n.value)
      (rounded : Double.Rounded n.negative n.size.value x) : Converts n (float x)

variable {n : Numeral}

theorem Converts.unique {v w : Numeric} (first : Converts n v) (second : Converts n w) : v = w := by
  cases first with
  | int fraction power value =>
    cases second with
    | int _ _ value' =>
      have same := value.trans value'.symm
      exact congrArg Numeric.int (Int64.toInt_inj.mp (by exact_mod_cast same))
    | float other _ => exact absurd value (other fraction power _)
  | float other rounded =>
    cases second with
    | int fraction power value => exact absurd value (other fraction power _)
    | float _ rounded' => exact congrArg Numeric.float (rounded.unique rounded')

theorem converts_ofNumeral (n : Numeral) : Converts n (ofNumeral n) := by
  unfold ofNumeral
  split
  · next i found =>
    obtain ⟨k, whole, fits⟩ := Option.bind_eq_some_iff.mp found
    obtain ⟨fraction, power, value⟩ := Numeral.toInt?_eq_some.mp whole
    exact .int fraction power (by rw [value, int64?_eq_some.mp fits])
  · next none =>
    refine .float (fun fraction power i value => ?_) n.toFloat_rounded
    have whole := Numeral.toInt?_eq_some.mpr ⟨fraction, power, value.symm⟩
    rw [whole, Option.bind_some, int64?_eq_some.mpr rfl] at none
    cases none

/-- The longest numeral at the start of a text, after blanks, is converted; by itself it is accepted as a number, and as
the same one. A text without a numeral gives zero. -/
theorem ofText_longest (s : String) :
    (∀ front n, front <+: Text.dropBlanks s.toList → ¬ Numeral.Spells front n) ∧ ofText s = .int 0 ∨
      ∃ front n, Numeral.Longest (Text.dropBlanks s.toList) front n ∧ (∀ v, ofText s = v ↔ Converts n v) ∧
        Grammar.numberValue (String.ofList front) = .ok (ofText s).toValue := by
  unfold ofText
  cases scanned : Numeral.scan? (Text.dropBlanks s.toList) with
  | none => exact .inl ⟨fun front n starts => Numeral.not_spells_of_scan? scanned starts, rfl⟩
  | some read =>
    obtain ⟨n, rest⟩ := read
    obtain ⟨front, _, longest⟩ := Numeral.longest_of_scan? scanned
    refine .inr ⟨front, n, longest, fun v => ⟨?_, (converts_ofNumeral n).unique⟩, ?_⟩
    · rintro rfl
      exact converts_ofNumeral n
    · simp only [Grammar.numberValue, String.toList_ofList, longest.spells.scan?]

/-- Marks without the digits that they need are left out. -/
example : [" +12e+x", "\t-.5.5", "7e", "+.e5", "-9223372036854775809"].map
    (fun s => DoubleFormat.text.write (ofText s).toFloat) = ["12", "-0.5", "7", "0", "-9223372036854776000"] := by
  decide +kernel

end Numeric

end MiniSql
