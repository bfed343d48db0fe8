import MiniSql.Proofs.NearestDouble

namespace MiniSql.Double

open Float.Model (Format UnpackedFloat)
open Float.Model.UnpackedFloat

/-- The mantissa and the bits behind it are those of the quotient `n / d`. -/
def Stands (x : ExtendedMantissa) (n d : Nat) : Prop :=
  ∃ halves rest, 2 * n = d * halves + rest ∧ rest < d ∧ quarters x = 2 * halves + min 1 rest

theorem stands_exact (n : Nat) : Stands (.ofMantissaAndAccuracy n .exact) n 1 := by
  have written : quarters (.ofMantissaAndAccuracy n .exact) = 4 * n := rfl
  exact ⟨2 * n, 0, by omega, by omega, by omega⟩

theorem stands_quotient (n : Nat) {d : Nat} (pos : 0 < d) :
    Stands (.ofMantissaAndAccuracy (n / d) (accuracyOfFraction (n % d) d)) n d := by
  have split := Nat.div_add_mod n d
  have small := Nat.mod_lt n pos
  unfold accuracyOfFraction
  generalize n / d = whole at split
  generalize n % d = rest at split small
  have twice : 2 * n = d * (2 * whole) + 2 * rest := by rw [← split]; ring
  split_ifs with none
  · exact ⟨2 * whole, 0, by omega, pos, by simp [quarters, ExtendedMantissa.ofMantissaAndAccuracy]; omega⟩
  · rcases Nat.lt_trichotomy (2 * rest) d with below | half | above
    · rw [compare_lt_iff_lt.mpr below]
      exact ⟨2 * whole, 2 * rest, twice, below, by simp [quarters, ExtendedMantissa.ofMantissaAndAccuracy]; omega⟩
    · rw [compare_eq_iff_eq.mpr half]
      refine ⟨2 * whole + 1, 0, by rw [Nat.mul_succ]; omega, pos, ?_⟩
      simp [quarters, ExtendedMantissa.ofMantissaAndAccuracy]
      omega
    · rw [compare_gt_iff_gt.mpr above]
      refine ⟨2 * whole + 1, 2 * rest - d, by rw [Nat.mul_succ]; omega, by omega, ?_⟩
      simp [quarters, ExtendedMantissa.ofMantissaAndAccuracy]
      omega

namespace Stands
variable {x : ExtendedMantissa} {n d : Nat}

theorem shiftRightOne (stands : Stands x n d) : Stands x.shiftRightOne n (2 * d) := by
  obtain ⟨halves, rest, split, small, written⟩ := stands
  obtain ⟨j, even | odd⟩ := Nat.even_or_odd' halves
  · subst even
    refine ⟨j, rest, by rw [split]; ring, by omega, ?_⟩
    rw [quarters_shiftRightOne, written]
    omega
  · subst odd
    refine ⟨j, d + rest, by rw [split]; ring, by omega, ?_⟩
    rw [quarters_shiftRightOne, written]
    omega

theorem shiftRight (stands : Stands x n d) (k : Nat) : Stands (x >>> k) n (2 ^ k * d) := by
  induction k with
  | zero =>
    rw [Nat.pow_zero, Nat.one_mul]
    exact stands
  | succ k ih =>
    rw [shiftRight_succ, Nat.pow_succ, Nat.mul_comm (2 ^ k) 2, Nat.mul_assoc]
    exact ih.shiftRightOne

/-- The rounded mantissa is at most a half away from the quotient, and exactly a half only if it is even. -/
theorem rounded (stands : Stands x n d) :
    2 * (d * x.roundedMantissa) ≤ 2 * n + d ∧ 2 * n ≤ 2 * (d * x.roundedMantissa) + d ∧
      (x.roundedMantissa % 2 = 1 →
        2 * (d * x.roundedMantissa) < 2 * n + d ∧ 2 * n < 2 * (d * x.roundedMantissa) + d) := by
  obtain ⟨halves, rest, split, small, written⟩ := stands
  rw [roundedMantissa_eq, mantissa_eq_quarters, written]
  obtain ⟨j, even | odd⟩ := Nat.even_or_odd' halves
  · subst even
    have whole : (2 * (2 * j) + min 1 rest) / 4 = j := by omega
    have down : (2 * (2 * j) + min 1 rest) % 4 < 2 := by omega
    have twice : d * (2 * j) = 2 * (d * j) := by ring
    rw [whole, if_pos down, Nat.add_zero]
    omega
  · subst odd
    have whole : (2 * (2 * j + 1) + min 1 rest) / 4 = j := by omega
    have up : ¬ (2 * (2 * j + 1) + min 1 rest) % 4 < 2 := by omega
    have twice : d * (2 * j + 1) = 2 * (d * j) + d := by ring
    have next : d * (j + 1) = d * j + d := Nat.mul_succ d j
    rw [whole, if_neg up]
    split_ifs with half
    · rcases Nat.mod_two_eq_zero_or_one j with even | odd
      · rw [even, Nat.add_zero]
        omega
      · rw [odd, next]
        omega
    · rw [next]
      omega

theorem bounds (stands : Stands x n d) : d * x.mantissa ≤ n ∧ n < d * (x.mantissa + 1) := by
  obtain ⟨halves, rest, split, small, written⟩ := stands
  have quarter : x.mantissa = halves / 2 := by
    rw [mantissa_eq_quarters, written]
    omega
  obtain ⟨j, even | odd⟩ := Nat.even_or_odd' halves
  · have twice : d * halves = 2 * (d * j) := by rw [even]; ring
    have next : d * (j + 1) = d * j + d := Nat.mul_succ d j
    obtain rfl : j = x.mantissa := by omega
    omega
  · have twice : d * halves = 2 * (d * j) + d := by rw [odd]; ring
    have next : d * (j + 1) = d * j + d := Nat.mul_succ d j
    obtain rfl : j = x.mantissa := by omega
    omega

theorem between (stands : Stands x n d) (positive : 0 < d) :
    (x.mantissa : ℚ) ≤ n / d ∧ (n / d : ℚ) < (x.mantissa + 1 : ℕ) := by
  have divisor : (0 : ℚ) < d := by exact_mod_cast positive
  rw [le_div_iff₀ divisor, div_lt_iff₀ divisor, mul_comm, mul_comm _ (d : ℚ)]
  exact_mod_cast stands.bounds

end Stands

/-- `r` is an integer nearest to `p`, in the middle between two the even one. -/
structure NearestEven (p : ℚ) (r : ℕ) : Prop where
  low : (r : ℚ) - 1 / 2 ≤ p
  high : p ≤ r + 1 / 2
  odd : r % 2 = 1 → (r : ℚ) - 1 / 2 < p ∧ p < r + 1 / 2

namespace NearestEven
variable {p : ℚ} {r t : ℕ}

theorem not_lt (first : NearestEven p r) (second : NearestEven p t) : ¬ r < t := by
  intro less
  have next : (r : ℚ) + 1 ≤ t := by exact_mod_cast less
  have := first.high
  have := second.low
  obtain rfl : t = r + 1 := by
    have same : (t : ℚ) = r + 1 := by linarith
    exact_mod_cast same
  -- One of the two is odd.
  rcases Nat.mod_two_eq_zero_or_one r with even | odd
  · linarith [(second.odd (by omega)).1]
  · linarith [(first.odd odd).2]

theorem unique (first : NearestEven p r) (second : NearestEven p t) : r = t :=
  Nat.le_antisymm (Nat.le_of_not_lt (second.not_lt first)) (Nat.le_of_not_lt (first.not_lt second))

theorem close (near : NearestEven p r) : |(r : ℚ) - p| ≤ 1 / 2 := by
  have low := near.low
  have high := near.high
  rw [abs_le]
  constructor <;> linarith

end NearestEven

theorem Stands.nearestEven {x : ExtendedMantissa} {n d : ℕ} (stands : Stands x n d) (positive : 0 < d) :
    NearestEven (n / d) x.roundedMantissa := by
  have divisor : (0 : ℚ) < d := by exact_mod_cast positive
  obtain ⟨low, high, odd⟩ := stands.rounded
  constructor
  · have low : (2 * (d * x.roundedMantissa) : ℚ) ≤ 2 * n + d := by exact_mod_cast low
    rw [le_div_iff₀ divisor]
    linarith
  · have high : (2 * n : ℚ) ≤ 2 * (d * x.roundedMantissa) + d := by exact_mod_cast high
    rw [div_le_iff₀ divisor]
    linarith
  · intro parity
    have low : (2 * (d * x.roundedMantissa) : ℚ) < 2 * n + d := by exact_mod_cast (odd parity).1
    have high : (2 * n : ℚ) < 2 * (d * x.roundedMantissa) + d := by exact_mod_cast (odd parity).2
    rw [lt_div_iff₀ divisor, div_lt_iff₀ divisor]
    constructor <;> linarith

/-- A number with a mantissa of 53 bits, `y`, is at most half a unit of the last place away from `q`. -/
def Rounds (q y : ℚ) : Prop :=
  ∃ (r : ℕ) (f : ℤ), y = r * 2 ^ f ∧ r ≤ 2 ^ 53 ∧ |y - q| ≤ 2 ^ f / 2 ∧ 2 ^ 52 * 2 ^ f ≤ q ∧ q < 2 ^ 53 * 2 ^ f

/-- The unpacked form is the number `y` or its negative, with a mantissa of 53 bits. -/
def Holds (u : UnpackedFloat) (s : UnpackedFloat.Sign) (y : ℚ) : Prop :=
  ∃ m e pos, u = finite s m e pos ∧ 2 ^ 52 ≤ m ∧ m < 2 ^ 53 ∧ (m : ℚ) * 2 ^ e = y

/-- Rounding takes what a mantissa with its accuracy stands for to a number near it. -/
theorem Stands.holds {m n d : Nat} {e : Int} {a : Accuracy} (s : UnpackedFloat.Sign)
    (stands : Stands (.ofMantissaAndAccuracy m a) n d) (positive : 0 < d) (long : 52 ≤ m.log2) (least : -1074 ≤ e) :
    ∃ y, Rounds (n / d * 2 ^ e) y ∧ Holds (roundWithAccuracy .binary64 s m e a) s y := by
  obtain ⟨r, rounds⟩ : ∃ r, r = (ExtendedMantissa.ofMantissaAndAccuracy m a >>> (m.log2 - 52)).roundedMantissa := ⟨_, rfl⟩
  obtain ⟨m', e', pos, written, low, high, source⟩ := roundWithAccuracy_normal (s := s) long least rounds
  have leading := leading_bounds long
  have bits : r ≤ 2 ^ 53 := rounds ▸ (rounded_bounds a long).2
  have shifted := stands.shiftRight (m.log2 - 52)
  generalize m.log2 - 52 = k at rounds source leading shifted
  have divisor : 0 < 2 ^ k * d := Nat.mul_pos (Nat.two_pow_pos k) positive
  have near := (shifted.nearestEven divisor).close
  have between := shifted.between divisor
  rw [← rounds] at near
  rw [mantissa_shiftRight, mantissa_ofMantissaAndAccuracy] at between
  have lowest : (2 ^ 52 : ℚ) ≤ (m / 2 ^ k : ℕ) := by exact_mod_cast leading.1
  have highest : ((m / 2 ^ k + 1 : ℕ) : ℚ) ≤ 2 ^ 53 := by exact_mod_cast leading.2
  have unit : (0 : ℚ) < 2 ^ (e + k) := by positivity
  have value : (n / d * 2 ^ e : ℚ) = n / (2 ^ k * d : ℕ) * 2 ^ (e + k) := by
    rw [zpow_add₀ two_ne_zero, zpow_natCast]
    push_cast
    field_simp
  refine ⟨r * 2 ^ (e + k), ⟨r, e + k, rfl, bits, ?_, ?_, ?_⟩, m', e', pos, written, low, high, ?_⟩
  · rw [value, ← sub_mul, abs_mul, abs_of_pos unit, ← one_div_mul_eq_div 2]
    exact mul_le_mul_of_nonneg_right near unit.le
  · rw [value]
    exact mul_le_mul_of_nonneg_right (lowest.trans between.1) unit.le
  · rw [value]
    exact mul_lt_mul_of_pos_right (between.2.trans_le highest) unit
  · rcases source with ⟨rfl, rfl⟩ | ⟨carry, rfl, rfl⟩
    · rfl
    · rw [carry, zpow_add_one₀ two_ne_zero]
      push_cast
      ring

/-- What the exact number `q` is rounded to: there is a mantissa that stands for it, with bits enough. -/
inductive RoundingOf (s : UnpackedFloat.Sign) : ℚ → UnpackedFloat → Prop
  | of {k n d : ℕ} {f : ℤ} {a : Accuracy} (stands : Stands (.ofMantissaAndAccuracy k a) n d) (positive : 0 < d)
      (least : -1074 ≤ f) (long : 52 ≤ k.log2 ∨ f = -1074) :
      RoundingOf s (n / d * 2 ^ f) (roundWithAccuracy .binary64 s k f a)

/-- What is not too small for 53 bits is rounded to a number near it. -/
theorem RoundingOf.holds {s : UnpackedFloat.Sign} {q : ℚ} {u : UnpackedFloat} (rounding : RoundingOf s q u)
    (normal : 1 ≤ q * (2 ^ 200 * 2 ^ 200)) : ∃ y, Rounds q y ∧ Holds u s y := by
  obtain @⟨k, n, d, f, a, stands, positive, least, long⟩ := rounding
  refine stands.holds s positive (le_of_not_gt fun few => ?_) least
  obtain rfl := long.resolve_left few.not_ge
  have top := (stands.between positive).2
  rw [mantissa_ofMantissaAndAccuracy] at top
  have bits : k + 1 ≤ 2 ^ 52 := Nat.lt_log2_self.trans_le (Nat.pow_le_pow_right two_pos few)
  have short : (n / d : ℚ) < 2 ^ 52 := top.trans_le (by exact_mod_cast bits)
  have tiny : (2 : ℚ) ^ (-1074 : ℤ) * (2 ^ 200 * 2 ^ 200) ≤ 2 ^ (-52 : ℤ) := by
    rw [← zpow_natCast, ← zpow_add₀ two_ne_zero, ← zpow_add₀ two_ne_zero]
    exact zpow_le_zpow_right₀ one_le_two (by norm_num)
  have below : (n / d : ℚ) * 2 ^ (-52 : ℤ) < 2 ^ 52 * 2 ^ (-52 : ℤ) := mul_lt_mul_of_pos_right short (by positivity)
  have whole : (2 : ℚ) ^ 52 * 2 ^ (-52 : ℤ) = 1 := by norm_num
  have quotient : (0 : ℚ) ≤ n / d := by positivity
  have := mul_le_mul_of_nonneg_left tiny quotient
  linarith

namespace Rounds
variable {q y t : ℚ}

/-- A number with a mantissa of 53 bits stays as it is. -/
theorem exact (rounds : Rounds q y) {n : ℕ} {g : ℤ} (short : n ≤ 2 ^ 53) (value : q = n * 2 ^ g) : y = q := by
  obtain ⟨r, f, rfl, -, near, low, -⟩ := rounds
  have unit : (0 : ℚ) < 2 ^ f := by positivity
  have short' : (n : ℚ) ≤ 2 ^ 53 := by exact_mod_cast short
  obtain ⟨c, whole⟩ : ∃ c : ℕ, q = c * 2 ^ f := by
    rcases lt_or_ge g f with above | inside
    · -- The place of the last bit is above that of `n` only if `n` is a power of two.
      have next : (2 : ℚ) ^ (g + 1) ≤ 2 ^ f := zpow_le_zpow_right₀ one_le_two above
      rw [zpow_add_one₀ two_ne_zero] at next
      have place : (0 : ℚ) < 2 ^ g := by positivity
      refine ⟨2 ^ 52, le_antisymm ?_ (by exact_mod_cast low)⟩
      push_cast
      nlinarith
    · obtain ⟨j, rfl⟩ := Int.le.dest inside
      refine ⟨n * 2 ^ j, ?_⟩
      rw [value, zpow_add₀ two_ne_zero, zpow_natCast]
      push_cast
      ring
  have same : r = c := by
    rw [whole, ← sub_mul, abs_mul, abs_of_pos unit] at near
    have half : |(r : ℚ) - c| ≤ 1 / 2 := le_of_mul_le_mul_right (by linarith) unit
    have apart : |(r : ℤ) - c| < 1 := by
      have less : |(r : ℚ) - c| < 1 := by linarith
      exact_mod_cast less
    have := Int.abs_lt_one_iff.mp apart
    omega
  rw [whole, same]

/-- What is not exact is off by less than one in 2 ^ 53. -/
theorem close (rounds : Rounds q y) : y = q ∨ |y - q| * 2 ^ 53 < q := by
  obtain ⟨r, f, -, -, near, low, -⟩ := id rounds
  rcases low.eq_or_lt with power | above
  · exact .inl (rounds.exact (n := 2 ^ 52) (g := f) (by norm_num) (by push_cast; exact power.symm))
  · exact .inr (by linarith)

/-- Rounding does not pass a number that is a bit of `q` away or more, and does not leave one that has 53 bits. -/
theorem le_iff (rounds : Rounds q y) (kept : t = q → y = q) (gap : t ≠ q → q ≤ |t - q| * 2 ^ 53) : t ≤ y ↔ t ≤ q := by
  rcases rounds.close with same | close
  · rw [same]
  · rcases eq_or_ne t q with equal | other
    · rw [kept equal]
    · have within : |y - q| < |t - q| := by linarith [gap other]
      rcases lt_or_gt_of_ne other with below | above
      · rw [abs_of_neg (sub_neg.mpr below)] at within
        have := abs_lt.mp within
        exact ⟨fun _ => below.le, fun _ => by linarith⟩
      · rw [abs_of_pos (sub_pos.mpr above)] at within
        have := abs_lt.mp within
        constructor <;> intro le <;> linarith

theorem pos (rounds : Rounds q y) : 0 < q := by
  obtain ⟨r, f, -, -, -, low, -⟩ := rounds
  exact lt_of_lt_of_le (by positivity) low

theorem size_bounds (rounds : Rounds q y) : q ≤ 2 * y ∧ y ≤ 2 * q := by
  have positive := rounds.pos
  rcases rounds.close with rfl | close
  · constructor <;> linarith
  · have := abs_lt.mp (show |y - q| < q / 2 by linarith [abs_nonneg (y - q)])
    constructor <;> linarith

end Rounds

/-- The unpacked form is zero, or it holds a positive number. -/
def Denotes (u : UnpackedFloat) (s : UnpackedFloat.Sign) (y : ℚ) : Prop :=
  u = .zero s ∧ y = 0 ∨ Holds u s y

/-- A number of a size far from the bounds of doubles. -/
def Moderate (y : ℚ) : Prop :=
  1 ≤ y * 2 ^ 200 ∧ y ≤ 2 ^ 200

theorem Moderate.exponent {m : ℕ} {e : ℤ} (moderate : Moderate (m * 2 ^ e)) (full : 2 ^ 52 ≤ m) (short : m < 2 ^ 53) :
    -253 < e ∧ e ≤ 200 := by
  obtain ⟨low, high⟩ := moderate
  have unit : (0 : ℚ) < 2 ^ e := by positivity
  have fullRat : (2 ^ 52 : ℚ) ≤ m := by exact_mod_cast full
  have shortRat : (m : ℚ) < 2 ^ 53 := by exact_mod_cast short
  constructor
  · have above : 0 < e + 253 := by
      refine (zpow_lt_zpow_iff_right₀ (one_lt_two (α := ℚ))).mp ?_
      have bound : m * 2 ^ e * 2 ^ 200 < 2 ^ 53 * (2 : ℚ) ^ e * 2 ^ 200 := by gcongr
      have split : (2 : ℚ) ^ (e + 253) = 2 ^ 53 * 2 ^ e * 2 ^ 200 := by
        rw [zpow_add₀ two_ne_zero]
        norm_num
        ring
      rw [split, zpow_zero]
      linarith
    omega
  · refine (zpow_le_zpow_iff_right₀ (one_lt_two (α := ℚ))).mp ?_
    have bound : (1 : ℚ) * 2 ^ e ≤ m * 2 ^ e := mul_le_mul_of_nonneg_right (by linarith) unit.le
    have same : (2 : ℚ) ^ (200 : ℤ) = 2 ^ 200 := by norm_cast
    linarith

theorem mul_positive (s : UnpackedFloat.Sign) : s * .positive = s ∧ s / .positive = s := by
  cases s <;> exact ⟨rfl, rfl⟩

section
variable {s : UnpackedFloat.Sign} {m₁ m₂ : ℕ} {e₁ e₂ : ℤ} {pos₁ : 0 < m₁} {pos₂ : 0 < m₂}

theorem mul_rounding (long : 2 ^ 52 ≤ m₁ * m₂) (least : -1074 ≤ e₁ + e₂) :
    RoundingOf s (m₁ * 2 ^ e₁ * (m₂ * 2 ^ e₂))
      ((finite s m₁ e₁ pos₁).mul .binary64 (finite .positive m₂ e₂ pos₂)) := by
  have value : (m₁ * 2 ^ e₁ * (m₂ * 2 ^ e₂) : ℚ) = (m₁ * m₂ : ℕ) / (1 : ℕ) * 2 ^ (e₁ + e₂) := by
    rw [zpow_add₀ two_ne_zero]
    push_cast
    ring
  rw [UnpackedFloat.mul, (mul_positive s).1, value]
  exact .of (stands_exact (m₁ * m₂)) one_pos least (.inl ((Nat.le_log2 (by omega)).mpr long))

theorem div_rounding (least : -1074 ≤ e₁ - e₂) : RoundingOf s (m₁ * 2 ^ e₁ / (m₂ * 2 ^ e₂))
    ((finite s m₁ e₁ pos₁).div .binary64 (finite .positive m₂ e₂ pos₂)) := by
  have target : ∀ t, Format.binary64.targetExponent t = max (t - 53) (-1074) := fun _ => rfl
  obtain ⟨f, place⟩ : ∃ f, f = min (e₁ - e₂)
    (max ((m₁.log2 + 1 + e₁ - (m₂.log2 + 1 + e₂) : ℤ) - 53) (-1074)) := ⟨_, rfl⟩
  obtain ⟨shift, shifts⟩ : ∃ shift : ℕ, (shift : ℤ) = e₁ - e₂ - f := ⟨(e₁ - e₂ - f).toNat, by omega⟩
  have value : (m₁ * 2 ^ e₁ / (m₂ * 2 ^ e₂) : ℚ) = (m₁ <<< shift : ℕ) / m₂ * 2 ^ f := by
    have divisor : (m₂ : ℚ) ≠ 0 := by exact_mod_cast pos₂.ne'
    have exponent : e₁ = shift + f + e₂ := by omega
    rw [Nat.shiftLeft_eq, exponent, zpow_add₀ two_ne_zero, zpow_add₀ two_ne_zero, zpow_natCast]
    push_cast
    field_simp
  have long : 52 ≤ ((m₁ <<< shift) / m₂).log2 ∨ f = -1074 := by
    rcases eq_or_ne f (-1074) with same | other
    · exact .inr same
    · have bits : m₂.log2 + 53 ≤ m₁.log2 + shift := by omega
      have low : 2 ^ m₁.log2 ≤ m₁ := Nat.log2_self_le pos₁.ne'
      have high : m₂ < 2 ^ (m₂.log2 + 1) := Nat.lt_log2_self
      have quotient : 2 ^ 52 ≤ (m₁ <<< shift) / m₂ := by
        rw [Nat.shiftLeft_eq, Nat.le_div_iff_mul_le pos₂]
        calc 2 ^ 52 * m₂ ≤ 2 ^ 52 * 2 ^ (m₂.log2 + 1) := Nat.mul_le_mul_left _ high.le
          _ = 2 ^ (m₂.log2 + 53) := by rw [← Nat.pow_add]; congr 1; omega
          _ ≤ 2 ^ (m₁.log2 + shift) := Nat.pow_le_pow_right two_pos bits
          _ = 2 ^ m₁.log2 * 2 ^ shift := Nat.pow_add _ _ _
          _ ≤ m₁ * 2 ^ shift := Nat.mul_le_mul_right _ low
      exact .inl ((Nat.le_log2 (Nat.lt_of_lt_of_le (by decide) quotient).ne').mpr quotient)
  have amount : (e₁ - e₂ - f).toNat = shift := by omega
  rw [UnpackedFloat.div, (mul_positive s).2, value]
  simp only [divCore, Float.Model.totalExponent, target, ← place, amount]
  exact .of (stands_quotient (m₁ <<< shift) pos₂) pos₂ (by omega) long

end

namespace Holds
variable {u v : UnpackedFloat} {s : UnpackedFloat.Sign} {y z : ℚ}

theorem pos (holds : Holds u s y) : 0 < y := by
  obtain ⟨m, e, pos, -, -, -, rfl⟩ := holds
  have := pos
  positivity

theorem unpack_pack (holds : Holds u s y) (moderate : Moderate y) : (Float.Model.pack u).unpack = u := by
  obtain ⟨m, e, pos, rfl, full, short, rfl⟩ := holds
  have bounds := moderate.exponent full short
  exact unpack_pack_finite full short (by omega) (by omega)

theorem mul_rounding (first : Holds u s y) (second : Holds v .positive z) (moderate : Moderate y)
    (moderate' : Moderate z) : RoundingOf s (y * z) (u.mul .binary64 v) := by
  obtain ⟨a, f, pos, rfl, full, short, rfl⟩ := first
  obtain ⟨b, g, pos', rfl, full', short', rfl⟩ := second
  have bounds := moderate.exponent full short
  have bounds' := moderate'.exponent full' short'
  exact Double.mul_rounding (by nlinarith) (by omega)

theorem div_rounding (first : Holds u s y) (second : Holds v .positive z) (moderate : Moderate y)
    (moderate' : Moderate z) : RoundingOf s (y / z) (u.div .binary64 v) := by
  obtain ⟨a, f, pos, rfl, full, short, rfl⟩ := first
  obtain ⟨b, g, pos', rfl, full', short', rfl⟩ := second
  have bounds := moderate.exponent full short
  have bounds' := moderate'.exponent full' short'
  exact Double.div_rounding (by omega)

theorem mul (first : Holds u s y) (second : Holds v .positive z) (moderate : Moderate y) (moderate' : Moderate z) :
    ∃ p, Rounds (y * z) p ∧ Holds (u.mul .binary64 v) s p := by
  refine (first.mul_rounding second moderate moderate').holds ?_
  calc (1 : ℚ) ≤ y * 2 ^ 200 * (z * 2 ^ 200) := one_le_mul_of_one_le_of_one_le moderate.1 moderate'.1
    _ = y * z * (2 ^ 200 * 2 ^ 200) := by ring

theorem div (first : Holds u s y) (second : Holds v .positive z) (moderate : Moderate y) (moderate' : Moderate z) :
    ∃ p, Rounds (y / z) p ∧ Holds (u.div .binary64 v) s p := by
  refine (first.div_rounding second moderate moderate').holds ?_
  have quotient : 1 ≤ 2 ^ 200 / z := (one_le_div second.pos).mpr moderate'.2
  calc (1 : ℚ) ≤ y * 2 ^ 200 * (2 ^ 200 / z) := one_le_mul_of_one_le_of_one_le moderate.1 quotient
    _ = y / z * (2 ^ 200 * 2 ^ 200) := by ring

end Holds

/-- The unpacked form is `10 ^ n`, with a mantissa of 53 bits. -/
def isPowerOfTen (n : ℕ) : UnpackedFloat → Bool
  | .finite .positive m e _ => 2 ^ 52 ≤ m ∧ m < 2 ^ 53 ∧ m * 2 ^ e.toNat = 10 ^ n * 2 ^ (-e).toNat
  | _ => false

theorem holds_of_isPowerOfTen {n : ℕ} {u : UnpackedFloat} (power : isPowerOfTen n u = true) :
    Holds u .positive (10 ^ n : ℕ) := by
  unfold isPowerOfTen at power
  split at power
  · next m e pos =>
    obtain ⟨full, short, value⟩ := of_decide_eq_true power
    refine ⟨m, e, pos, rfl, full, short, ?_⟩
    have value' : (m * 2 ^ e.toNat : ℚ) = (10 ^ n : ℕ) * 2 ^ (-e).toNat := by exact_mod_cast value
    have exponent : e = (e.toNat : ℤ) - ((-e).toNat : ℤ) := by omega
    rw [exponent, zpow_sub₀ two_ne_zero, zpow_natCast, zpow_natCast, ← mul_div_assoc, value']
    field_simp
  · cases power

theorem isPowerOfTen_exactPowers : ∀ n : Fin Float.exactlyRepresentablePowersOfTen.size,
    isPowerOfTen n.val Float.exactlyRepresentablePowersOfTen[n].toModel.unpack = true := by
  decide +kernel

theorem holds_exactPowers {n : ℕ} (small : n < Float.exactlyRepresentablePowersOfTen.size) :
    Holds Float.exactlyRepresentablePowersOfTen[n].toModel.unpack .positive (10 ^ n : ℕ) :=
  holds_of_isPowerOfTen (isPowerOfTen_exactPowers ⟨n, small⟩)

end MiniSql.Double

theorem MiniSql.floor_half (n : ℕ) {d : ℕ} (pos : 0 < d) : ⌊(n : ℚ) / d + 1 / 2⌋₊ = (2 * n + d) / (2 * d) := by
  have divisor : (d : ℚ) ≠ 0 := by exact_mod_cast pos.ne'
  have quotient : (n : ℚ) / d + 1 / 2 = (2 * n + d : ℕ) / (2 * d : ℕ) := by
    push_cast
    field_simp
  rw [quotient, Nat.floor_div_eq_div]

namespace MiniSql.Dyadic

/-- The number without its sign. -/
def size (d : Dyadic) : ℚ :=
  d.mantissa * 2 ^ d.exponent

theorem natAbs_signed (d : Dyadic) (n : Nat) : (d.signed n).natAbs = n := by
  unfold signed
  split <;> simp

theorem signed_mul (d : Dyadic) (n k : Nat) : d.signed (n * k) = d.signed n * k := by
  unfold signed
  split <;> push_cast <;> ring

theorem size_eq (d : Dyadic) : d.size = d.numerator.natAbs / d.denominator := by
  rw [numerator, natAbs_signed, denominator, size, Nat.pow_eq, Nat.pow_eq]
  push_cast
  rcases le_total 0 d.exponent with whole | fraction
  · have none : (-d.exponent).toNat = 0 := by omega
    obtain ⟨n, same⟩ := Int.eq_ofNat_of_zero_le whole
    rw [none, same]
    simp
  · have none : d.exponent.toNat = 0 := by omega
    obtain ⟨n, same⟩ := Int.eq_ofNat_of_zero_le (show 0 ≤ -d.exponent by omega)
    have exponent : d.exponent = -(n : Int) := by omega
    rw [none, exponent]
    simp [div_eq_mul_inv]

theorem denominator_pos (d : Dyadic) : 0 < d.denominator :=
  Nat.two_pow_pos _

/-- Rounding takes what is below a half down, and all else up. -/
theorem natAbs_round (d : Dyadic) : d.round.natAbs = ⌊d.size + 1 / 2⌋₊ := by
  rw [round, natAbs_signed, size_eq, floor_half _ d.denominator_pos]

theorem trunc_eq {d : Dyadic} {n : ℕ} (whole : d.size = n) : d.trunc = d.signed n := by
  have positive : (0 : ℚ) < d.denominator := by exact_mod_cast d.denominator_pos
  rw [size_eq, div_eq_iff positive.ne'] at whole
  have product : d.numerator.natAbs = n * d.denominator := by exact_mod_cast whole
  have nonzero : (d.denominator : Int) ≠ 0 := by exact_mod_cast d.denominator_pos.ne'
  have signed : d.numerator = d.signed n * d.denominator := by
    rw [← signed_mul, ← product, numerator, natAbs_signed]
  rw [trunc, signed, Int.mul_tdiv_cancel _ nonzero]

end MiniSql.Dyadic

namespace MiniSql.Double

open Float.Model (Format UnpackedFloat)
open Float.Model.UnpackedFloat

variable {x : Float} {s : UnpackedFloat.Sign} {y : ℚ}

def mantissaField (x : Float) : BitVec 52 :=
  @unpackMantissa .binary64 x.toModel.toBits.toBitVec

def exponentField (x : Float) : BitVec 11 :=
  @unpackExponent .binary64 x.toModel.toBits.toBitVec

def signField (x : Float) : BitVec 1 :=
  @unpackSign .binary64 x.toModel.toBits.toBitVec

theorem mantissaField_toNat (x : Float) : x.toBits.toNat % 0x10000000000000 = (mantissaField x).toNat := by
  simp [mantissaField, unpackMantissa, Float.toBits]

theorem exponentField_toNat (x : Float) : x.toBits.toNat / 0x10000000000000 % 2048 = (exponentField x).toNat := by
  simp [exponentField, unpackExponent, Float.toBits, Nat.shiftRight_eq_div_pow]

theorem signField_toNat (x : Float) : x.toBits.toNat / 2 ^ 63 % 2 = (signField x).toNat := by
  simp [signField, unpackSign, Float.toBits, Nat.shiftRight_eq_div_pow]

theorem negative_iff (x : Float) : decide (0x8000000000000000 ≤ x.toBits.toNat) =
    (UnpackedFloat.Sign.ofBitVec (signField x) == .negative) := by
  have sign := signField_toNat x
  have small : x.toBits.toNat < 2 ^ 64 := x.toBits.toNat_lt
  rcases BitVec.eq_zero_or_eq_one (signField x) with zero | one
  · have low : x.toBits.toNat / 2 ^ 63 % 2 = 0 := by rw [sign, zero]; rfl
    rw [zero]
    exact decide_eq_false (by omega)
  · have high : x.toBits.toNat / 2 ^ 63 % 2 = 1 := by rw [sign, one]; rfl
    rw [one]
    exact decide_eq_true (by omega)

theorem append_toNat (b : BitVec 52) : (1#1 ++ b).toNat = 0x10000000000000 + b.toNat := by
  rw [BitVec.toNat_append, ← Nat.shiftLeft_add_eq_or_of_lt b.isLt]
  rfl

theorem unpack_fields (x : Float) : x.toModel.unpack =
    if exponentField x = -1#11 then
      if mantissaField x = 0#52 then .infinity (.ofBitVec (signField x)) else .notANumber
    else if exponentField x = 0#11 then
      if h : mantissaField x = 0#52 then .zero (.ofBitVec (signField x))
      else .finite (.ofBitVec (signField x)) (mantissaField x).toNat ((exponentField x).toNat - 1075 + 1)
        (by simpa [BitVec.toNat_pos, BitVec.pos_iff_ne_zero])
    else .finite (.ofBitVec (signField x)) (1#1 ++ mantissaField x).toNat ((exponentField x).toNat - 1075)
      (by rw [append_toNat]; omega) :=
  rfl

/-- The parts of a finite number in its unpacked form. -/
def parts? : UnpackedFloat → Option Dyadic
  | .finite s m e _ => some ⟨s == .negative, m, e⟩
  | .zero s => some ⟨s == .negative, 0, -1074⟩
  | .infinity _ | .notANumber => none

/-- The parts of a double's bits are those of its unpacked form. -/
theorem ofFloat?_eq (x : Float) : Dyadic.ofFloat? x = parts? x.toModel.unpack := by
  have ones : exponentField x = -1#11 ↔ (exponentField x).toNat = 2047 := BitVec.toNat_inj.symm
  have zeros : exponentField x = 0#11 ↔ (exponentField x).toNat = 0 := BitVec.toNat_inj.symm
  unfold Dyadic.ofFloat? Dyadic.leastFull
  simp only [negative_iff, mantissaField_toNat, exponentField_toNat, ← ones, ← zeros, ← append_toNat, unpack_fields]
  split
  · split <;> rfl
  · split
    · next least =>
      split
      · next none =>
        rw [none]
        rfl
      · rw [least]
        rfl
    · rfl

theorem ofFloat?_of_denotes (denotes : Denotes x.toModel.unpack s y) :
    ∃ d, Dyadic.ofFloat? x = some d ∧ d.negative = (s == .negative) ∧ d.size = y ∧
      (d.mantissa = 0 ∧ d.exponent < 0 ∨ 2 ^ 52 ≤ d.mantissa) := by
  rw [ofFloat?_eq]
  rcases denotes with ⟨zero, rfl⟩ | ⟨m, e, pos, written, full, -, rfl⟩
  · rw [zero]
    exact ⟨_, rfl, rfl, by simp [Dyadic.size], .inl ⟨rfl, Int.negSucc_lt_zero _⟩⟩
  · rw [written]
    exact ⟨_, rfl, rfl, rfl, .inr full⟩

/-- The result of an operation is what the unpacked operation gives. -/
theorem denotes_pack {u : UnpackedFloat} (denotes : Denotes u s y) (moderate : y ≠ 0 → Moderate y) :
    Denotes (Float.Model.pack u).unpack s y := by
  rcases denotes with ⟨rfl, rfl⟩ | holds
  · rw [unpack_pack_zero]
    exact .inl ⟨rfl, rfl⟩
  · rw [holds.unpack_pack (moderate holds.pos.ne')]
    exact .inr holds

section
variable {u v : UnpackedFloat} {w : Float} {q z : ℚ}

/-- An operation that keeps a zero, and rounds what is made of any other number. -/
theorem denotes_rounded (first : Denotes u s y) (keeps : u = .zero s → v = .zero s)
    (rounding : Holds u s y → ∃ p, Rounds q p ∧ Holds v s p) (within : ∀ p, Rounds q p → Moderate p) :
    ∃ p, Denotes (Float.Model.pack v).unpack s p ∧ (y = 0 ∧ p = 0 ∨ Rounds q p) := by
  rcases first with ⟨zero, none⟩ | holds
  · exact ⟨0, denotes_pack (.inl ⟨keeps zero, rfl⟩) fun nonzero => absurd rfl nonzero, .inl ⟨none, rfl⟩⟩
  · obtain ⟨p, rounds, result⟩ := rounding holds
    exact ⟨p, denotes_pack (.inr result) fun _ => within p rounds, .inr rounds⟩

/-- The product with a positive double is zero, or near the exact one. -/
theorem denotes_mul (first : Denotes x.toModel.unpack s y) (second : Holds w.toModel.unpack .positive z)
    (moderate : y ≠ 0 → Moderate y) (moderate' : Moderate z) (within : ∀ p, Rounds (y * z) p → Moderate p) :
    ∃ p, Denotes (x * w).toModel.unpack s p ∧ (y = 0 ∧ p = 0 ∨ Rounds (y * z) p) := by
  have model : (x * w).toModel.unpack =
    (Float.Model.pack (x.toModel.unpack.mul .binary64 w.toModel.unpack)).unpack := rfl
  rw [model]
  refine denotes_rounded first (fun zero => ?_)
    (fun holds => holds.mul second (moderate holds.pos.ne') moderate') within
  obtain ⟨m, e, pos, written, -⟩ := second
  rw [zero, written, UnpackedFloat.mul, (mul_positive s).1]

/-- The quotient by a positive double is zero, or near the exact one. -/
theorem denotes_div (first : Denotes x.toModel.unpack s y) (second : Holds w.toModel.unpack .positive z)
    (moderate : y ≠ 0 → Moderate y) (moderate' : Moderate z) (within : ∀ p, Rounds (y / z) p → Moderate p) :
    ∃ p, Denotes (x / w).toModel.unpack s p ∧ (y = 0 ∧ p = 0 ∨ Rounds (y / z) p) := by
  have model : (x / w).toModel.unpack =
    (Float.Model.pack (x.toModel.unpack.div .binary64 w.toModel.unpack)).unpack := rfl
  rw [model]
  refine denotes_rounded first (fun zero => ?_)
    (fun holds => holds.div second (moderate holds.pos.ne') moderate') within
  obtain ⟨m, e, pos, written, -⟩ := second
  rw [zero, written, UnpackedFloat.div, (mul_positive s).2]

end

theorem moderate_nat {n : ℕ} (pos : 0 < n) (short : n ≤ 2 ^ 200) : Moderate n := by
  have low : (1 : ℚ) ≤ n := by exact_mod_cast pos
  have high : (n : ℚ) ≤ 2 ^ 200 := by exact_mod_cast short
  exact ⟨by linarith, high⟩

/-- The double of a natural number is near it. -/
theorem ofNat_rounds {n : ℕ} (pos : 0 < n) : ∃ y, Rounds n y ∧ Holds (ofNat .binary64 n) .positive y := by
  have size := log2_shiftLeft pos (52 - n.log2)
  obtain ⟨y, rounds, holds⟩ := (stands_exact (n <<< (52 - n.log2))).holds .positive one_pos (by omega)
    (show -1074 ≤ -((52 - n.log2 : ℕ) : ℤ) by omega)
  have value : ((n <<< (52 - n.log2) : ℕ) : ℚ) / (1 : ℕ) * 2 ^ (-((52 - n.log2 : ℕ) : ℤ)) = n := by
    rw [Nat.shiftLeft_eq, zpow_neg, zpow_natCast]
    push_cast
    field_simp
  exact ⟨y, value ▸ rounds, ofNat_start pos ▸ holds⟩

/-- A natural number of at most 53 bits is its own double. -/
theorem denotes_ofNat {n : ℕ} (short : n ≤ 2 ^ 53) : Denotes (ofNat .binary64 n) .positive n := by
  rcases Nat.eq_zero_or_pos n with rfl | pos
  · exact .inl ⟨rfl, Nat.cast_zero⟩
  · obtain ⟨y, rounds, holds⟩ := ofNat_rounds pos
    have same : y = n := rounds.exact short (g := 0) (by simp)
    exact .inr (same ▸ holds)

theorem denotes_toFloat {n : ℕ} (short : n ≤ 2 ^ 53) :
    Denotes (UInt64.ofNat n).toFloat.toModel.unpack .positive n := by
  have size : (UInt64.ofNat n).toNat = n := UInt64.toNat_ofNat_of_lt (show n < 2 ^ 64 by omega)
  have unpacked : (UInt64.ofNat n).toFloat.toModel.unpack = ofNat .binary64 n := by
    show (Float.Model.pack (ofNat .binary64 (UInt64.ofNat n).toNat)).unpack = _
    rw [size, (unpack_ofNat (by omega)).1]
  exact unpacked ▸ denotes_ofNat short

theorem denotes_neg {u : UnpackedFloat} (denotes : Denotes u .positive y) : Denotes u.neg .negative y := by
  rcases denotes with ⟨rfl, rfl⟩ | ⟨m, e, pos, rfl, holds⟩
  · exact .inl ⟨rfl, rfl⟩
  · exact .inr ⟨m, e, pos, rfl, holds⟩

/-- A number below 2 ^ 52 is rounded to the nearest integer, with the same sign. -/
theorem denotes_integral (denotes : Denotes x.toModel.unpack s y) (small : y < 2 ^ 52) :
    Denotes (integral Dyadic.round x).toModel.unpack s ⌊y + 1 / 2⌋₊ := by
  obtain ⟨d, parts, negative, rfl, full⟩ := ofFloat?_of_denotes denotes
  have fraction : ¬ 0 ≤ d.exponent := by
    rcases full with ⟨-, low⟩ | full
    · omega
    · intro whole
      have unit : (1 : ℚ) ≤ 2 ^ d.exponent := one_le_zpow₀ one_le_two whole
      have fullRat : (2 ^ 52 : ℚ) ≤ d.mantissa := by exact_mod_cast full
      have : (2 ^ 52 : ℚ) ≤ d.size := by
        unfold Dyadic.size
        nlinarith
      linarith
  have short : ⌊d.size + 1 / 2⌋₊ ≤ 2 ^ 53 := by
    refine Nat.floor_le_of_le ?_
    push_cast
    linarith
  have whole := denotes_toFloat short
  unfold integral
  rw [parts]
  simp only [fraction, if_false, d.natAbs_round, negative]
  cases s with
  | positive => exact whole
  | negative =>
    refine denotes_pack (denotes_neg whole) fun nonzero => moderate_nat ?_ (short.trans (by norm_num))
    exact Nat.pos_of_ne_zero fun none => nonzero (by rw [none, Nat.cast_zero])

end MiniSql.Double
