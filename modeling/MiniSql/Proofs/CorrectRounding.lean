import MiniSql.Proofs.RoundedDoubles

namespace MiniSql.Double

open Float.Model (Format UnpackedFloat)
open Float.Model.UnpackedFloat

/-- The mantissa and the exponent of a finite double other than zero. -/
structure HasParts (m : Nat) (e : Int) : Prop where
  pos : 0 < m
  short : m < 2 ^ 53
  least : -1074 ≤ e
  most : e ≤ 971
  full : e = -1074 ∨ 2 ^ 52 ≤ m

theorem hasParts_of_ofFloat? {x : Float} {d : Dyadic} (parts : Dyadic.ofFloat? x = some d) (nonzero : d.mantissa ≠ 0) :
    HasParts d.mantissa d.exponent := by
  have bits : x.toBits.toNat < 2 ^ 64 := x.toBits.toNat_lt
  obtain ⟨negative, m, e⟩ := d
  unfold Dyadic.ofFloat? Dyadic.leastFull at parts
  simp only [Int.ofNat_eq_natCast] at parts nonzero ⊢
  split_ifs at parts <;>
    (rw [Option.some.injEq, Dyadic.mk.injEq] at parts
     constructor <;> omega)

theorem exponent_of_zero {x : Float} {negative : Bool} {e : Int} (parts : Dyadic.ofFloat? x = some ⟨negative, 0, e⟩) :
    e = -1074 := by
  unfold Dyadic.ofFloat? Dyadic.leastFull at parts
  simp only [Int.ofNat_eq_natCast] at parts
  split_ifs at parts <;>
    (rw [Option.some.injEq, Dyadic.mk.injEq] at parts
     omega)

theorem toBits_inj {x y : Float} (same : x.toBits = y.toBits) : x = y := by
  obtain ⟨⟨_, _⟩⟩ := x
  obtain ⟨⟨_, _⟩⟩ := y
  cases same
  rfl

/-- A finite double is given by its parts. -/
theorem ofFloat?_inj {x y : Float} {d : Dyadic} (first : Dyadic.ofFloat? x = some d) (second : Dyadic.ofFloat? y = some d) :
    x = y := by
  have bitsX : x.toBits.toNat < 2 ^ 64 := x.toBits.toNat_lt
  have bitsY : y.toBits.toNat < 2 ^ 64 := y.toBits.toNat_lt
  refine toBits_inj (UInt64.toNat_inj.mp ?_)
  unfold Dyadic.ofFloat? Dyadic.leastFull at first second
  simp only [Int.ofNat_eq_natCast] at first second
  split_ifs at first second <;>
    (simp only [Option.some.injEq] at first second
     rw [← second, Dyadic.mk.injEq, decide_eq_decide] at first
     omega)

/-- What a double can hold is read as it is packed. -/
theorem HasParts.unpack_pack {s : UnpackedFloat.Sign} {m : Nat} {e : Int} (parts : HasParts m e) :
    (Float.Model.pack (.finite s m e parts.pos)).unpack = .finite s m e parts.pos := by
  rcases Nat.lt_or_ge m (2 ^ 52) with below | full
  · obtain rfl : e = -1074 := parts.full.resolve_right (by omega)
    have bits : m.log2 + 1 ≠ Format.binary64.mantissaBits := by
      have := (Nat.log2_lt parts.pos.ne').mpr below
      show m.log2 + 1 ≠ 53
      omega
    have mantissa : (BitVec.ofNat 52 m).toNat = m := by
      rw [BitVec.toNat_ofNat, Nat.mod_eq_of_lt below]
    have nonzero : BitVec.ofNat 52 m ≠ 0#52 := by
      intro none
      have := congrArg BitVec.toNat none
      rw [mantissa] at this
      exact parts.pos.ne' this
    show unpack .binary64 (UnpackedFloat.pack .binary64 (.finite s m (-1074) parts.pos)) = _
    have small : ¬ 2 ^ Format.binary64.exponentBits ≤
        (-1074 + (Format.binary64.exponentBias : Int) + (Format.binary64.mantissaBitsWithoutImplicit : Int)).toNat + 1 := by
      decide
    unfold UnpackedFloat.pack
    simp only [small, if_false, bits]
    unfold unpack
    simp only [unpackMantissa_packComponents, unpackExponent_packComponents, sign_packComponents]
    rw [if_neg (by decide), if_true, dif_neg nonzero]
    simp only [mantissa, finite.injEq, true_and]
    rfl
  · exact unpack_pack_finite full parts.short parts.least parts.most

theorem HasParts.unpack_pack_eq {u : UnpackedFloat} {s : UnpackedFloat.Sign} {m : Nat} {e : Int} (parts : HasParts m e)
    (result : u = .finite s m e parts.pos) : (Float.Model.pack u).unpack = .finite s m e parts.pos := by
  rw [result, parts.unpack_pack]

theorem ofFloat?_neg {x : Float} {negative : Bool} {m : Nat} {e : Int}
    (parts : Dyadic.ofFloat? x = some ⟨negative, m, e⟩) : Dyadic.ofFloat? (-x) = some ⟨!negative, m, e⟩ := by
  have model : (-x).toModel.unpack = (Float.Model.pack x.toModel.unpack.neg).unpack := rfl
  have written := parts
  rw [ofFloat?_eq] at written ⊢
  rw [model]
  cases unpacked : x.toModel.unpack with
  | infinity s =>
    rw [unpacked] at written
    cases written
  | notANumber =>
    rw [unpacked] at written
    cases written
  | zero s =>
    rw [unpacked] at written
    cases written
    rw [UnpackedFloat.neg, unpack_pack_zero]
    cases s <;> rfl
  | finite s m' e' pos =>
    rw [unpacked] at written
    cases written
    have double : HasParts m e := hasParts_of_ofFloat? parts pos.ne'
    rw [UnpackedFloat.neg, double.unpack_pack]
    cases s <;> rfl

/-- How far below a double, in quarters of its last place, what is rounded to it begins. Below a power of two the
doubles are twice as dense. -/
def gap (m : ℕ) (e : ℤ) : ℕ :=
  if m = Dyadic.leastFull ∧ -1074 < e then 1 else 2

/-- The double that is nearest to `q` is `m * 2 ^ e`; in the middle between two it is the one with the even mantissa. -/
structure Nearest (q : ℚ) (m : ℕ) (e : ℤ) : Prop where
  low : (4 * m - gap m e : ℚ) * 2 ^ e ≤ 4 * q
  high : 4 * q ≤ (4 * m + 2 : ℚ) * 2 ^ e
  odd : m % 2 = 1 → (4 * m - gap m e : ℚ) * 2 ^ e < 4 * q ∧ 4 * q < (4 * m + 2 : ℚ) * 2 ^ e

theorem gap_le (m : ℕ) (e : ℤ) : (gap m e : ℚ) ≤ 2 := by
  unfold gap
  split_ifs <;> norm_num

theorem gap_power {e : ℤ} (above : -1074 < e) : gap (2 ^ 52) e = 1 :=
  if_pos ⟨rfl, above⟩

namespace Nearest
variable {p : ℚ} {g e : ℤ} {m : ℕ}

/-- A number of 53 bits before the point has the place of its double, or it is rounded up to the next power of two. -/
theorem place (nearest : Nearest (p * 2 ^ g) m e) (parts : HasParts m e) (top : p < 2 ^ 53)
    (bottom : 2 ^ 52 ≤ p ∨ g = -1074) (least : -1074 ≤ g) : g = e ∨ g + 1 = e ∧ m = 2 ^ 52 := by
  have unit : (0 : ℚ) < 2 ^ g := by positivity
  have unit' : (0 : ℚ) < 2 ^ e := by positivity
  have small := gap_le m e
  have short : (m : ℚ) + 1 ≤ 2 ^ 53 := by exact_mod_cast parts.short
  rcases lt_trichotomy g e with below | same | above
  · have full : 2 ^ 52 ≤ m := parts.full.resolve_left (by omega)
    have fullRat : (2 ^ 52 : ℚ) ≤ m := by exact_mod_cast full
    have scaled : ∀ c : ℚ, 2 ^ g * c ≤ 2 ^ e → (4 * m - gap m e) * c < 2 ^ 55 := by
      intro c le
      refine lt_of_mul_lt_mul_right ?_ unit.le
      calc (4 * m - gap m e) * c * 2 ^ g = (4 * m - gap m e) * (2 ^ g * c) := by ring
        _ ≤ (4 * m - gap m e) * 2 ^ e := mul_le_mul_of_nonneg_left le (by linarith)
        _ ≤ 4 * (p * 2 ^ g) := nearest.low
        _ < 4 * (2 ^ 53 * 2 ^ g) := by gcongr
        _ = 2 ^ 55 * 2 ^ g := by ring
    have power : m = 2 ^ 52 := by
      have twice := scaled 2 (by rw [← zpow_add_one₀ two_ne_zero]; exact zpow_le_zpow_right₀ one_le_two below)
      have : (m : ℚ) < 2 ^ 52 + 1 := by linarith
      have : m < 2 ^ 52 + 1 := by exact_mod_cast this
      omega
    rcases (show g + 1 ≤ e from below).eq_or_lt with next | far
    · exact .inr ⟨next, power⟩
    · have four : (2 : ℚ) ^ g * 4 ≤ 2 ^ e := by
        have : (2 : ℚ) ^ (g + 2) ≤ 2 ^ e := zpow_le_zpow_right₀ one_le_two (by omega)
        rwa [zpow_add₀ two_ne_zero, show (2 : ℚ) ^ (2 : ℤ) = 4 by norm_num] at this
      linarith [scaled 4 four]
  · exact .inl same
  · have lower : 2 ^ 52 ≤ p := bottom.resolve_right (by have := parts.least; omega)
    have twice : (2 : ℚ) ^ e * 2 ≤ 2 ^ g := by
      rw [← zpow_add_one₀ two_ne_zero]
      exact zpow_le_zpow_right₀ one_le_two above
    have high : (2 ^ 55 : ℚ) * 2 ^ e ≤ (4 * m + 2) * 2 ^ e := by
      calc (2 ^ 55 : ℚ) * 2 ^ e = 4 * (2 ^ 52 * (2 ^ e * 2)) := by ring
        _ ≤ 4 * (p * 2 ^ g) := by gcongr
        _ ≤ (4 * m + 2) * 2 ^ e := nearest.high
    have := le_of_mul_le_mul_right high unit'
    linarith

/-- At its own place, the number lies as far from the mantissa as the number before the point. -/
theorem mantissa (nearest : Nearest (p * 2 ^ e) m e) : (4 * m - gap m e : ℚ) ≤ 4 * p ∧ 4 * p ≤ 4 * m + 2 ∧
    (m % 2 = 1 → (4 * m - gap m e : ℚ) < 4 * p ∧ 4 * p < 4 * m + 2) := by
  have unit : (0 : ℚ) < 2 ^ e := by positivity
  obtain ⟨low, high, odd⟩ := nearest
  simp only [← mul_assoc] at low high odd
  exact ⟨le_of_mul_le_mul_right low unit, le_of_mul_le_mul_right high unit, fun parity =>
    ⟨lt_of_mul_lt_mul_right (odd parity).1 unit.le, lt_of_mul_lt_mul_right (odd parity).2 unit.le⟩⟩

/-- A number one place below a power of two that it is rounded to. -/
theorem carried (nearest : Nearest (p * 2 ^ g) (2 ^ 52) (g + 1)) (above : -1074 < g + 1) : 2 ^ 53 - 1 / 2 ≤ p := by
  have low := nearest.low
  rw [gap_power above, zpow_add_one₀ two_ne_zero, mul_comm _ (2 : ℚ), ← mul_assoc, ← mul_assoc] at low
  have bound := le_of_mul_le_mul_right low (show (0 : ℚ) < 2 ^ g by positivity)
  push_cast at bound
  linarith

end Nearest

/-- Shifted to 53 bits, a mantissa has 53 bits, unless it had fewer before. -/
theorem Stands.leading {k n d : ℕ} {a : Accuracy} (stands : Stands (.ofMantissaAndAccuracy k a) n d) (positive : 0 < d) :
    (n / (2 ^ (k.log2 - 52) * d : ℕ) : ℚ) < 2 ^ 53 ∧
      (52 ≤ k.log2 → (2 ^ 52 : ℚ) ≤ n / (2 ^ (k.log2 - 52) * d : ℕ)) := by
  have between := (stands.shiftRight (k.log2 - 52)).between (Nat.mul_pos (Nat.two_pow_pos _) positive)
  rw [mantissa_shiftRight, mantissa_ofMantissaAndAccuracy] at between
  constructor
  · have bits : k / 2 ^ (k.log2 - 52) < 2 ^ 53 := by
      rw [Nat.div_lt_iff_lt_mul (Nat.two_pow_pos _), ← Nat.pow_add]
      exact Nat.lt_log2_self.trans_le (Nat.pow_le_pow_right two_pos (by omega))
    have short : ((k / 2 ^ (k.log2 - 52) + 1 : ℕ) : ℚ) ≤ 2 ^ 53 := by exact_mod_cast bits
    exact between.2.trans_le short
  · intro long
    have full : (2 ^ 52 : ℚ) ≤ (k / 2 ^ (k.log2 - 52) : ℕ) := by exact_mod_cast (leading_bounds long).1
    exact full.trans between.1

namespace RoundingOf
variable {s : UnpackedFloat.Sign} {q : ℚ} {u : UnpackedFloat} {m : ℕ} {e : ℤ}

/-- At the place `g`, 53 bits of the number stand before the point, or fewer at the last place of all. They are rounded
to `r`. -/
theorem place (rounding : RoundingOf s q u) : ∃ (p : ℚ) (g : ℤ) (r : ℕ), q = p * 2 ^ g ∧ p < 2 ^ 53 ∧
    (2 ^ 52 ≤ p ∨ g = -1074) ∧ -1074 ≤ g ∧ NearestEven p r ∧
    (r = 0 ∧ u = zero s ∨ (∃ pos, r < 2 ^ 53 ∧ u = finite s r g pos) ∨
      r = 2 ^ 53 ∧ u = finite s (2 ^ 52) (g + 1) (by decide)) := by
  obtain @⟨k, n, d, f, a, stands, positive, least, long⟩ := rounding
  have divisor : 0 < 2 ^ (k.log2 - 52) * d := Nat.mul_pos (Nat.two_pow_pos _) positive
  obtain ⟨top, full⟩ := stands.leading positive
  have near := (stands.shiftRight (k.log2 - 52)).nearestEven divisor
  refine ⟨_, f + (k.log2 - 52 : ℕ), _, ?_, top, ?_, by omega, near, ?_⟩
  · rw [zpow_add₀ two_ne_zero, zpow_natCast]
    push_cast
    field_simp
  · by_cases bits : 52 ≤ k.log2
    · exact .inl (full bits)
    · exact .inr (by omega)
  · generalize rounds : (ExtendedMantissa.ofMantissaAndAccuracy k a >>> (k.log2 - 52)).roundedMantissa = r at near
    have atMost : r ≤ 2 ^ 53 := by
      have : (r : ℚ) < (2 ^ 53 + 1 : ℕ) := by
        push_cast
        linarith [near.low]
      have : r < 2 ^ 53 + 1 := by exact_mod_cast this
      omega
    rcases Nat.eq_zero_or_pos r with rfl | pos
    · exact .inl ⟨rfl, roundWithAccuracy_zero least rounds⟩
    · rcases atMost.lt_or_eq with short | rfl
      · exact .inr (.inl ⟨pos, short, roundWithAccuracy_kept least rounds pos short⟩)
      · exact .inr (.inr ⟨rfl, roundWithAccuracy_carry least rounds⟩)

/-- Rounding gives the double that is nearest. -/
theorem eq_of_nearest (rounding : RoundingOf s q u) (parts : HasParts m e) (nearest : Nearest q m e) :
    u = finite s m e parts.pos := by
  obtain ⟨p, g, r, rfl, top, bottom, least, near, result⟩ := rounding.place
  have short := parts.short
  have pos := parts.pos
  rcases nearest.place parts top bottom least with rfl | ⟨rfl, rfl⟩
  · obtain ⟨low, high, odd⟩ := nearest.mantissa
    have small := gap_le m g
    obtain rfl : r = m := by
      refine near.unique ⟨by linarith, by linarith, fun parity => ?_⟩
      obtain ⟨low', high'⟩ := odd parity
      constructor <;> linarith
    rcases result with ⟨rfl, _⟩ | ⟨_, _, same⟩ | ⟨rfl, _⟩
    · exact absurd pos (lt_irrefl 0)
    · exact same
    · exact absurd short (lt_irrefl _)
  · have low := nearest.carried (by omega)
    have whole : ((2 ^ 53 : ℕ) : ℚ) = 2 ^ 53 := by norm_num
    obtain rfl : r = 2 ^ 53 := near.unique ⟨by rwa [whole], by rw [whole]; linarith, nofun⟩
    rcases result with ⟨none, _⟩ | ⟨_, below, _⟩ | ⟨_, same⟩
    · cases none
    · exact absurd below (lt_irrefl _)
    · exact same

end RoundingOf

theorem tens_eq {p : ℤ} (down : p < 0) (q : ℚ) : q * 10 ^ p = q / (10 ^ p.natAbs : ℕ) := by
  obtain ⟨k, rfl⟩ : ∃ k : ℕ, p = -k := ⟨p.natAbs, by omega⟩
  rw [zpow_neg, zpow_natCast, Int.natAbs_neg, Int.natAbs_natCast]
  push_cast
  rfl

theorem unpacked_ofScientific {n : ℕ} {p : ℤ} (nonzero : n ≠ 0) (low : -(2 ^ 11 + n.log2) ≤ p) (high : p ≤ 2 ^ 11) :
    RoundingOf .positive (n * 10 ^ p) (UnpackedFloat.ofScientific .binary64 n p) := by
  have bits : Format.binary64.mantissaBits = 53 := rfl
  unfold UnpackedFloat.ofScientific
  simp only [bits]
  rw [dif_neg nonzero, if_neg (not_lt.mpr high), if_neg (not_lt.mpr low)]
  split
  · next up =>
    obtain ⟨k, rfl⟩ := Int.eq_ofNat_of_zero_le up
    have power : 0 < 10 ^ k := Nat.pow_pos (by decide)
    have size : 2 ^ 52 ≤ n <<< 53 * 10 ^ k := by
      rw [Nat.shiftLeft_eq]
      nlinarith [Nat.pos_of_ne_zero nonzero]
    have value : ((n <<< 53 : ℕ) * 2 ^ (-(53 : ℕ) : ℤ) * ((10 ^ k : ℕ) * 2 ^ (0 : ℤ)) : ℚ) = n * 10 ^ (k : ℤ) := by
      rw [Nat.shiftLeft_eq, zpow_neg, zpow_natCast, zpow_natCast]
      push_cast
      field_simp
      norm_num
    rw [← value]
    exact mul_rounding size (by decide)
  · next down =>
    have value : (n * 2 ^ (0 : ℤ) / ((10 ^ (-p).toNat : ℕ) * 2 ^ (0 : ℤ)) : ℚ) = n * 10 ^ p := by
      rw [tens_eq (by omega), show (-p).toNat = p.natAbs by omega]
      simp
    rw [← value]
    exact div_rounding (by decide)

/-- A decimal is rounded once. -/
theorem ofScientific_rounding {n : ℕ} {p : ℤ} (nonzero : n ≠ 0) (low : -(2 ^ 11 + n.log2) ≤ p) (high : p ≤ 2 ^ 11) :
    ∃ u, RoundingOf .positive (n * 10 ^ p) u ∧
      (Float.ofScientific n (p < 0) p.natAbs).toModel = Float.Model.pack u := by
  unfold Float.ofScientific
  split
  · next short =>
    have digits : Holds n.toUInt64.toFloat.toModel.unpack .positive n := by
      refine (denotes_toFloat short.1.le).resolve_left fun none => nonzero ?_
      exact_mod_cast none.2
    have power := holds_exactPowers (n := p.natAbs) (Nat.lt_succ_of_le short.2)
    have moderate := moderate_nat (Nat.pos_of_ne_zero nonzero) (short.1.le.trans (by norm_num))
    have moderate' : Moderate (10 ^ p.natAbs : ℕ) := by
      refine moderate_nat (Nat.pow_pos (by decide)) ?_
      calc 10 ^ p.natAbs ≤ 10 ^ 22 := Nat.pow_le_pow_right (by decide) short.2
        _ ≤ 2 ^ 200 := by norm_num
    by_cases down : p < 0
    · simp only [down, decide_true, if_true]
      exact ⟨_, tens_eq down n ▸ digits.div_rounding power moderate moderate', rfl⟩
    · obtain ⟨k, rfl⟩ := Int.eq_ofNat_of_zero_le (not_lt.mp down)
      simp only [down, decide_false, Bool.false_eq_true, if_false]
      have product := digits.mul_rounding power moderate moderate'
      exact ⟨_, by simpa using product, rfl⟩
  · have exponent : (if decide (p < 0) = true then Int.negOfNat p.natAbs else Int.ofNat p.natAbs) = p := by
      simp only [decide_eq_true_eq]
      split
      · rw [Int.negOfNat_eq]
        simp only [Int.ofNat_eq_natCast]
        omega
      · simp only [Int.ofNat_eq_natCast]
        omega
    refine ⟨UnpackedFloat.ofScientific .binary64 n p, unpacked_ofScientific nonzero low high, ?_⟩
    conv_rhs => rw [← exponent]
    rfl

end MiniSql.Double
