import MiniSql.Proofs.Blocks
import MiniSql.Proofs.IntegerArithmetic
import MiniSql.Proofs.RoundedDoubles

namespace MiniSql

/-- A multiple of `unit` that is nearest to `n`, of two the one further away from zero. -/
structure NearestMultiple (unit : ℕ) (n m : ℤ) : Prop where
  multiple : (unit : ℤ) ∣ m
  near : 2 * (m - n).natAbs ≤ unit
  tie : 2 * (m - n).natAbs = unit → n.natAbs < m.natAbs

namespace NearestMultiple
variable {unit : ℕ} {n m m' : ℤ}

theorem unique_of_le (first : NearestMultiple unit n m) (second : NearestMultiple unit n m') (le : m ≤ m') : m = m' := by
  obtain ⟨⟨c, rfl⟩, near, tie⟩ := first
  obtain ⟨⟨c', rfl⟩, near', tie'⟩ := second
  rcases Nat.eq_zero_or_pos unit with rfl | pos
  · simp
  have units : (unit : ℤ) * (c' - c) = unit * c' - unit * c := by ring
  have next : c' = c ∨ c' = c + 1 := by
    have atMost : (unit : ℤ) * (c' - c) ≤ unit * 1 := by omega
    have atLeast : (unit : ℤ) * 0 ≤ unit * (c' - c) := by omega
    have := le_of_mul_le_mul_left atMost (by omega)
    have := le_of_mul_le_mul_left atLeast (by omega)
    omega
  rcases next with rfl | rfl
  · rfl
  -- In the middle between two multiples, one of them is closer to zero.
  · have above : (unit : ℤ) * (c + 1) = unit * c + unit := by ring
    rcases lt_or_ge c 0 with negative | positive
    · have : (unit : ℤ) * (c + 1) ≤ unit * 0 := by gcongr; omega
      omega
    · have : (unit : ℤ) * 0 ≤ unit * c := by gcongr
      omega

theorem unique (first : NearestMultiple unit n m) (second : NearestMultiple unit n m') : m = m' := by
  rcases le_total m m' with le | le
  · exact first.unique_of_le second le
  · exact (second.unique_of_le first le).symm

/-- The quotient by `unit`, rounded to an integer, has the nearest multiple. -/
theorem of_quotient {d r : ℕ} (pos : 0 < unit) (quotient : r = (2 * d + unit) / (2 * unit)) :
    NearestMultiple unit d (r * unit : ℕ) ∧ NearestMultiple unit (-d) (-(r * unit : ℕ)) := by
  have low := Nat.div_mul_le_self (2 * d + unit) (2 * unit)
  have high := Nat.lt_mul_div_succ (2 * d + unit) (show 0 < 2 * unit by omega)
  rw [← quotient] at low high
  have twice : r * (2 * unit) = 2 * (r * unit) := by ring
  have next : 2 * unit * (r + 1) = 2 * (r * unit) + 2 * unit := by ring
  have whole : (unit : ℤ) ∣ (r * unit : ℕ) := by exact_mod_cast Dvd.intro_left r rfl
  exact ⟨⟨whole, by omega, by omega⟩, (dvd_neg).mpr whole, by omega, by omega⟩

end NearestMultiple

namespace Double

open Float.Model (UnpackedFloat)
open Float.Model.UnpackedFloat

/-- A number of `52 + k` bits has a double with at most `k` bits less. -/
theorem Rounds.exists_short {n k : ℕ} {y : ℚ} (rounds : Rounds n y) (positive : 1 ≤ k) (bound : n ≤ 2 ^ (52 + k)) :
    ∃ a g : ℕ, y = (a * 2 ^ g : ℕ) ∧ a ≤ 2 ^ 53 ∧ g < k := by
  obtain ⟨r, f, value, short, near, low, high⟩ := id rounds
  rcases lt_or_ge f 0 with fraction | whole
  · have less : (2 : ℚ) ^ f ≤ 1 := zpow_le_one_of_nonpos₀ one_le_two fraction.le
    have short : n ≤ 2 ^ 53 := by
      have : (n : ℚ) ≤ 2 ^ 53 := by linarith
      exact_mod_cast this
    refine ⟨n, 0, ?_, short, positive⟩
    rw [rounds.exact short (g := 0) (by simp)]
    simp
  · obtain ⟨j, rfl⟩ := Int.eq_ofNat_of_zero_le whole
    rw [zpow_natCast] at *
    have bits : j ≤ k := by
      have product : (2 ^ 52 * 2 ^ j : ℕ) ≤ n := by exact_mod_cast low
      have powers := product.trans bound
      rw [← Nat.pow_add, Nat.pow_le_pow_iff_right (by norm_num)] at powers
      omega
    rcases bits.lt_or_eq with less | rfl
    · exact ⟨r, j, by rw [value]; push_cast; rfl, short, less⟩
    · have power : n = 2 ^ 52 * 2 ^ j := by
        have product : (2 ^ 52 * 2 ^ j : ℕ) ≤ n := by exact_mod_cast low
        rw [Nat.pow_add] at bound
        omega
      have same : y = n := rounds.exact (n := 2 ^ 52) (g := j) (by norm_num) (by rw [power]; push_cast; rfl)
      obtain ⟨k, rfl⟩ : ∃ k, j = k + 1 := ⟨j - 1, by omega⟩
      refine ⟨2 ^ 53, k, ?_, le_refl _, by omega⟩
      rw [same, power, Nat.pow_succ]
      norm_num
      ring

/-- Rounding a quotient first to a double and then to an integer gives the same integer as the second alone. -/
theorem Rounds.floor_half_eq {a c : ℕ} {y : ℚ} (rounds : Rounds (a / (2 * c : ℕ)) y) (short : a ≤ 2 ^ 53) (factor : 0 < c) :
    ⌊y + 1 / 2⌋₊ = ⌊(a : ℚ) / (2 * c : ℕ) + 1 / 2⌋₊ := by
  have unit : (0 : ℚ) < (2 * c : ℕ) := by exact_mod_cast Nat.mul_pos two_pos factor
  have positive := rounds.pos
  have size := rounds.size_bounds
  refine eq_of_forall_le_iff fun j => ?_
  rcases Nat.eq_zero_or_pos j with rfl | least
  · simp
  obtain ⟨j, rfl⟩ : ∃ i, j = i + 1 := ⟨j - 1, by omega⟩
  -- The quotient and the half below `j + 1` are equal, or they differ by a `2 * c`-th or more.
  have apart : (j : ℚ) + 1 / 2 - a / (2 * c : ℕ) = ((2 * j + 1) * c - a : ℤ) / (2 * c : ℕ) := by
    push_cast
    field_simp
  have kept : (j : ℚ) + 1 / 2 = a / (2 * c : ℕ) → y = a / (2 * c : ℕ) := by
    intro same
    have equal : (2 * j + 1) * c = a := by
      rw [eq_div_iff unit.ne'] at same
      push_cast at same
      have cast : ((2 * j + 1) * c : ℚ) = a := by linarith
      exact_mod_cast cast
    have bits : 2 * j + 1 ≤ 2 ^ 53 := (Nat.le_mul_of_pos_right _ factor).trans (equal.le.trans short)
    refine rounds.exact (g := -1) bits ?_
    rw [← same, zpow_neg_one]
    push_cast
    ring
  have gap : (j : ℚ) + 1 / 2 ≠ a / (2 * c : ℕ) → (a : ℚ) / (2 * c : ℕ) ≤ |(j : ℚ) + 1 / 2 - a / (2 * c : ℕ)| * 2 ^ 53 := by
    intro other
    rw [apart, abs_div, abs_of_pos unit, div_mul_eq_mul_div]
    refine div_le_div_of_nonneg_right ?_ unit.le
    have nonzero : ((2 * j + 1) * c - a : ℤ) ≠ 0 := by
      intro none
      rw [none, Int.cast_zero, zero_div] at apart
      exact other (sub_eq_zero.mp apart)
    have one : (1 : ℚ) ≤ |(((2 * j + 1) * c - a : ℤ) : ℚ)| := by exact_mod_cast Int.one_le_abs nonzero
    have shortRat : (a : ℚ) ≤ 2 ^ 53 := by exact_mod_cast short
    linarith
  have half : ∀ z : ℚ, 0 < z → (j + 1 ≤ ⌊z + 1 / 2⌋₊ ↔ (j : ℚ) + 1 / 2 ≤ z) := by
    intro z above
    rw [Nat.le_floor_iff (by linarith)]
    push_cast
    constructor <;> intro le <;> linarith
  rw [half y (by linarith), half _ positive, rounds.le_iff kept gap]

theorem Rounds.floor_quotient {a g k : ℕ} {y : ℚ} (rounds : Rounds ((a * 2 ^ g : ℕ) / (10 ^ k : ℕ)) y) (short : a ≤ 2 ^ 53)
    (less : g < k) : ⌊y + 1 / 2⌋₊ = (2 * (a * 2 ^ g) + 10 ^ k) / (2 * 10 ^ k) := by
  obtain ⟨j, rfl⟩ : ∃ j, k = g + 1 + j := ⟨k - (g + 1), by omega⟩
  obtain ⟨c, value⟩ : ∃ c, c = 2 ^ j * 5 ^ (g + 1 + j) := ⟨_, rfl⟩
  have factor : 0 < c := by
    rw [value]
    positivity
  -- The power of two in the power of ten cancels out that of the double.
  have product : 10 ^ (g + 1 + j) = 2 ^ g * (2 * c) := by
    rw [value, show 10 = 2 * 5 from rfl, mul_pow, pow_add 2, pow_succ]
    ring
  have quotient : ((a * 2 ^ g : ℕ) : ℚ) / (10 ^ (g + 1 + j) : ℕ) = a / (2 * c : ℕ) := by
    rw [product, mul_comm a, Nat.cast_mul, Nat.cast_mul (2 ^ g)]
    exact mul_div_mul_left _ _ (by positivity)
  have whole := floor_half (a * 2 ^ g) (show 0 < 10 ^ (g + 1 + j) by positivity)
  rw [quotient] at rounds whole
  exact (rounds.floor_half_eq short factor).trans whole

theorem Rounds.product {r k : ℕ} {y : ℚ} (rounds : Rounds ((r : ℚ) * (10 ^ k : ℕ)) y) (short : r * 5 ^ k ≤ 2 ^ 53) :
    y = (r * 10 ^ k : ℕ) := by
  have value : ((r : ℚ) * (10 ^ k : ℕ)) = (r * 5 ^ k : ℕ) * 2 ^ (k : ℤ) := by
    rw [show 10 = 2 * 5 from rfl, mul_pow, zpow_natCast]
    push_cast
    ring
  rw [rounds.exact short value]
  push_cast
  rfl

/-- The sign of an integer's double. -/
def signOf (n : ℤ) : UnpackedFloat.Sign :=
  if n < 0 then .negative else .positive

/-- The integer that is the double nearest to `i`. -/
def nearest (i : Int64) : ℤ :=
  ((Dyadic.ofFloat? (ofInt64 i)).map Dyadic.trunc).getD 0

theorem denotes_ofInt64 {i : Int64} {n : ℕ} (denotes : Denotes (ofNat .binary64 i.toInt.natAbs) .positive n) :
    Denotes (ofInt64 i).toModel.unpack (signOf i.toInt) n := by
  rw [unpack_ofInt64, unpacked, signOf]
  split_ifs
  · exact denotes_neg denotes
  · exact denotes

theorem trunc_eq_apply {x : Float} {s : UnpackedFloat.Sign} {n : ℕ} (denotes : Denotes x.toModel.unpack s n) :
    ∃ d, Dyadic.ofFloat? x = some d ∧ d.trunc = s.apply n := by
  obtain ⟨d, parts, negative, value, -⟩ := ofFloat?_of_denotes denotes
  refine ⟨d, parts, ?_⟩
  rw [Dyadic.trunc_eq value, Dyadic.signed, negative]
  cases s <;> rfl

theorem nearest_eq {i : Int64} {n : ℕ} (denotes : Denotes (ofNat .binary64 i.toInt.natAbs) .positive n) :
    nearest i = (signOf i.toInt).apply n := by
  obtain ⟨d, parts, trunc⟩ := trunc_eq_apply (denotes_ofInt64 denotes)
  rw [nearest, parts]
  exact trunc

theorem exists_denotes {i : Int64} {k : ℕ} (positive : 1 ≤ k) (bound : i.toInt.natAbs ≤ 2 ^ (52 + k)) :
    ∃ a g : ℕ, a ≤ 2 ^ 53 ∧ g < k ∧ Denotes (ofNat .binary64 i.toInt.natAbs) .positive (a * 2 ^ g : ℕ) := by
  rcases Nat.eq_zero_or_pos i.toInt.natAbs with zero | pos
  · rw [zero]
    exact ⟨0, 0, by norm_num, positive, .inl ⟨rfl, by simp⟩⟩
  · obtain ⟨y, rounds, holds⟩ := ofNat_rounds pos
    obtain ⟨a, g, rfl, short, less⟩ := rounds.exists_short positive bound
    exact ⟨a, g, short, less, .inr holds⟩

/-- An integer of at most 53 bits is its own double. -/
theorem nearest_eq_self {i : Int64} (short : i.toInt.natAbs ≤ 2 ^ 53) : nearest i = i.toInt := by
  rw [nearest_eq (denotes_ofNat short), signOf]
  split_ifs <;> simp only [UnpackedFloat.Sign.apply] <;> omega

theorem holds_powerOfTen {k : ℕ} (few : k ≤ 18) : Holds (powerOfTen k).toModel.unpack .positive (10 ^ k : ℕ) := by
  have table : ∀ k < 19, isPowerOfTen k (powerOfTen k).toModel.unpack = true := by decide +kernel
  exact holds_of_isPowerOfTen (table k (by omega))

section
variable {x : Float} {s : UnpackedFloat.Sign} {a g k : ℕ}

theorem quotient_bound (short : a ≤ 2 ^ 53) (less : g < k) : 5 ^ k * (a * 2 ^ g) ≤ 2 ^ 52 * 10 ^ k := by
  have twos : 2 ^ (g + 1) ≤ 2 ^ k := Nat.pow_le_pow_right two_pos less
  calc 5 ^ k * (a * 2 ^ g) ≤ 5 ^ k * (2 ^ 53 * 2 ^ g) := by gcongr
    _ = 5 ^ k * (2 ^ 52 * 2 ^ (g + 1)) := by ring
    _ ≤ 5 ^ k * (2 ^ 52 * 2 ^ k) := by gcongr
    _ = 2 ^ 52 * 10 ^ k := by rw [show 10 = 2 * 5 from rfl, mul_pow]; ring

theorem powerOfTen_le (few : k ≤ 18) : 10 ^ k ≤ 10 ^ 18 :=
  Nat.pow_le_pow_right (by norm_num) few

theorem moderate_powerOfTen (few : k ≤ 18) : Moderate (10 ^ k : ℕ) :=
  moderate_nat (by positivity) ((powerOfTen_le few).trans (by norm_num))

theorem quotient_moderate {n : ℕ} {y : ℚ} (rounds : Rounds (n / (10 ^ k : ℕ)) y) (few : k ≤ 18)
    (bound : n * 5 ≤ 2 ^ 52 * 10 ^ k) : Moderate y ∧ y < 2 ^ 52 := by
  have tens := powerOfTen_le few
  have divisor : (0 : ℚ) < (10 ^ k : ℕ) := by positivity
  have positive : 1 ≤ n := by
    refine Nat.pos_of_ne_zero fun none => rounds.pos.ne' ?_
    rw [none, Nat.cast_zero, zero_div]
  have atLeast : (1 / 10 ^ 18 : ℚ) ≤ n / (10 ^ k : ℕ) :=
    div_le_div₀ (by positivity) (by exact_mod_cast positive) divisor (by exact_mod_cast tens)
  have atMost : (n / (10 ^ k : ℕ) : ℚ) ≤ 2 ^ 52 / 5 := by
    rw [div_le_div_iff₀ divisor (by norm_num)]
    exact_mod_cast bound
  have size := rounds.size_bounds
  exact ⟨⟨by linarith, by linarith⟩, by linarith⟩

/-- Rounding the quotient of a double by a power of ten is rounding the exact quotient. -/
theorem denotes_quotient (short : a ≤ 2 ^ 53) (less : g < k) (few : k ≤ 18)
    (denotes : Denotes x.toModel.unpack s (a * 2 ^ g : ℕ)) :
    Denotes (integral Dyadic.round (x / powerOfTen k)).toModel.unpack s
      ((2 * (a * 2 ^ g) + 10 ^ k) / (2 * 10 ^ k) : ℕ) := by
  have bound : a * 2 ^ g * 5 ≤ 2 ^ 52 * 10 ^ k := by
    have five : 5 * (a * 2 ^ g) ≤ 5 ^ k * (a * 2 ^ g) := Nat.mul_le_mul_right _ (Nat.le_self_pow (by omega) 5)
    have fives := quotient_bound short less
    omega
  have tens := powerOfTen_le few
  have moderate : ((a * 2 ^ g : ℕ) : ℚ) ≠ 0 → Moderate (a * 2 ^ g : ℕ) := fun nonzero =>
    moderate_nat (Nat.pos_of_ne_zero (Nat.cast_ne_zero.mp nonzero)) (by omega)
  obtain ⟨y, quotient, ⟨none, rfl⟩ | rounds⟩ := denotes_div denotes (holds_powerOfTen few) moderate
    (moderate_powerOfTen few) fun _ rounds => (quotient_moderate rounds few bound).1
  · have nothing : a * 2 ^ g = 0 := by exact_mod_cast none
    have rounded := denotes_integral quotient (by norm_num)
    have half : (2 * 0 + 10 ^ k) / (2 * 10 ^ k) = ⌊(0 : ℚ) + 1 / 2⌋₊ := by
      have divisor : 0 < 10 ^ k := by positivity
      rw [Nat.div_eq_of_lt (by omega)]
      norm_num
    rwa [nothing, half]
  · rw [← rounds.floor_quotient short less]
    exact denotes_integral quotient (quotient_moderate rounds few bound).2

/-- The rounded quotient leaves room for the factors of five that it is multiplied by. -/
theorem product_short {r : ℕ} (short : a ≤ 2 ^ 53) (less : g < k) (few : k ≤ 18)
    (quotient : r = (2 * (a * 2 ^ g) + 10 ^ k) / (2 * 10 ^ k)) : r * 5 ^ k ≤ 2 ^ 53 := by
  have fives : 5 ^ k ≤ 5 ^ 18 := Nat.pow_le_pow_right (by norm_num) few
  have bound := quotient_bound short less
  have low := Nat.div_mul_le_self (2 * (a * 2 ^ g) + 10 ^ k) (2 * 10 ^ k)
  rw [← quotient] at low
  have scaled : 2 * (r * 5 ^ k) * 10 ^ k ≤ (2 ^ 53 + 5 ^ k) * 10 ^ k :=
    calc 2 * (r * 5 ^ k) * 10 ^ k = 5 ^ k * (r * (2 * 10 ^ k)) := by ring
      _ ≤ 5 ^ k * (2 * (a * 2 ^ g) + 10 ^ k) := Nat.mul_le_mul_left _ low
      _ = 2 * (5 ^ k * (a * 2 ^ g)) + 5 ^ k * 10 ^ k := by ring
      _ ≤ 2 * (2 ^ 52 * 10 ^ k) + 5 ^ k * 10 ^ k := by omega
      _ = (2 ^ 53 + 5 ^ k) * 10 ^ k := by ring
  have := Nat.le_of_mul_le_mul_right scaled (by positivity)
  omega

/-- Dividing by a power of ten, rounding and multiplying by it gives the nearest multiple. -/
theorem denotes_multiple (short : a ≤ 2 ^ 53) (less : g < k) (few : k ≤ 18)
    (denotes : Denotes x.toModel.unpack s (a * 2 ^ g : ℕ)) :
    Denotes (integral Dyadic.round (x / powerOfTen k) * powerOfTen k).toModel.unpack s
      ((2 * (a * 2 ^ g) + 10 ^ k) / (2 * 10 ^ k) * 10 ^ k : ℕ) := by
  have rounded := denotes_quotient short less few denotes
  have bits := product_short short less few rfl
  generalize (2 * (a * 2 ^ g) + 10 ^ k) / (2 * 10 ^ k) = r at rounded bits
  have size : r ≤ 2 ^ 53 := (Nat.le_mul_of_pos_right r (by positivity)).trans bits
  have tens := powerOfTen_le few
  have product : r * 10 ^ k ≤ 2 ^ 53 * 10 ^ 18 := Nat.mul_le_mul size tens
  have moderate : (r : ℚ) ≠ 0 → Moderate r := fun nonzero =>
    moderate_nat (Nat.pos_of_ne_zero (Nat.cast_ne_zero.mp nonzero)) (by omega)
  have within : ∀ p, Rounds (r * (10 ^ k : ℕ)) p → Moderate p := by
    intro p rounds
    have positive : 0 < r * 10 ^ k := by exact_mod_cast rounds.pos
    rw [rounds.product bits]
    exact moderate_nat positive (by omega)
  obtain ⟨p, result, ⟨none, rfl⟩ | rounds⟩ :=
    denotes_mul rounded (holds_powerOfTen few) moderate (moderate_powerOfTen few) within
  · rwa [Nat.cast_mul, none, zero_mul]
  · exact rounds.product bits ▸ result

end

end Double

namespace ScalarFunction

open Float.Model (UnpackedFloat)

theorem whole_eq_int {x : Float} {s : UnpackedFloat.Sign} {n : ℕ} (denotes : Double.Denotes x.toModel.unpack s n)
    (j : Int64) : whole x = .int j ↔ j.toInt = s.apply n := by
  obtain ⟨d, parts, trunc⟩ := Double.trunc_eq_apply denotes
  unfold whole
  rw [parts]
  simp only [trunc]
  rw [← int64?_eq_some]
  split
  · next i found =>
    rw [found]
    simp
  · next large => simp [large]

/-- To round an integer to a power of ten is to take the multiple nearest to its double. -/
theorem roundTo_eq_int {i : Int64} {k : ℕ} (positive : 1 ≤ k) (few : k ≤ 18) (bound : i.toInt.natAbs ≤ 2 ^ (52 + k))
    (j : Int64) : roundTo (.int i) (-k) = .int j ↔ NearestMultiple (10 ^ k) (Double.nearest i) j.toInt := by
  obtain ⟨a, g, short, less, denotes⟩ := Double.exists_denotes positive bound
  have multiple := Double.denotes_multiple short less few (Double.denotes_ofInt64 denotes)
  have digits : max (-30) (min 30 (-(k : ℤ))) = -k := by omega
  have before : ¬ 0 ≤ -(k : ℤ) := by omega
  have size : (-(k : ℤ)).natAbs = k := by omega
  have rounded : roundTo (.int i) (-k) = whole (Double.integral Dyadic.round (Double.ofInt64 i / Double.powerOfTen k) *
      Double.powerOfTen k) := by
    unfold roundTo
    simp only [digits, before, if_false, size]
  have both := NearestMultiple.of_quotient (d := a * 2 ^ g) (show 0 < 10 ^ k by positivity) rfl
  have nearest : NearestMultiple (10 ^ k) (Double.nearest i)
      ((Double.signOf i.toInt).apply ((2 * (a * 2 ^ g) + 10 ^ k) / (2 * 10 ^ k) * 10 ^ k : ℕ)) := by
    rw [Double.nearest_eq denotes]
    cases Double.signOf i.toInt with
    | negative => exact both.2
    | positive => exact both.1
  rw [rounded, whole_eq_int multiple]
  exact ⟨fun same => same ▸ nearest, fun other => other.unique nearest⟩

end ScalarFunction

namespace Expr
variable {env : Env} {s : Scope} {e places : Expr} {i : Int64} {k : ℕ}

theorem eval_round {j : Int64} (value : e.eval env s.throughFirst = .ok (.int i))
    (position : places.eval env s.throughFirst = .ok (.int j)) (distinct : Bool) :
    (Expr.call "ROUND" [e, places] distinct).eval env s = .ok (ScalarFunction.roundTo (.int i) j.toInt) :=
  eval_scalar (f := .round) ⟨rfl, rfl, fun _ _ _ => rfl⟩ rfl (.cons value (.cons position .nil)) distinct

/-- `ROUND` takes an integer to the multiple of a power of ten that is nearest to the integer's double, if this fits.
Up to 53 bits it is the one nearest to the integer. -/
theorem round_nearest (value : e.eval env s.throughFirst = .ok (.int i))
    (position : places.eval env s.throughFirst = .ok (.int (Int64.ofInt (-k)))) (positive : 1 ≤ k) (few : k ≤ 18)
    (distinct : Bool) (m : Int64) :
    (i.toInt.natAbs ≤ 2 ^ (52 + k) →
      ((Expr.call "ROUND" [e, places] distinct).eval env s = .ok (.int m) ↔
        NearestMultiple (10 ^ k) (Double.nearest i) m.toInt)) ∧
    (i.toInt.natAbs ≤ 2 ^ 53 →
      ((Expr.call "ROUND" [e, places] distinct).eval env s = .ok (.int m) ↔
        NearestMultiple (10 ^ k) i.toInt m.toInt)) := by
  have inRange : InInt64 (-k) := by
    have least : Int64.minValue.toInt = -2 ^ 63 := rfl
    have greatest : Int64.maxValue.toInt = 2 ^ 63 - 1 := rfl
    unfold InInt64
    omega
  have rounded := eval_round value position distinct
  rw [toInt_ofInt inRange] at rounded
  have nearest : i.toInt.natAbs ≤ 2 ^ (52 + k) → ((Expr.call "ROUND" [e, places] distinct).eval env s = .ok (.int m) ↔
      NearestMultiple (10 ^ k) (Double.nearest i) m.toInt) := by
    intro bound
    rw [rounded, Except.ok.injEq, ScalarFunction.roundTo_eq_int positive few bound]
  refine ⟨nearest, fun short => ?_⟩
  have more : 2 ^ 53 ≤ 2 ^ (52 + k) := Nat.pow_le_pow_right two_pos (by omega)
  rw [nearest (short.trans more), Double.nearest_eq_self short]

/-- An integer just below the middle between two multiples of 1000, whose double is in the middle. -/
theorem round_above :
    let env : Env := .ofStore {} ⟨{}, 0⟩
    let call := Expr.call "ROUND" [.literal (.int 18014398509482499), .literal (.int (-3))] false
    call.eval env (.single {}) = .ok (.int 18014398509483000) := by
  intro env call
  have value : (Expr.literal (.int 18014398509482499)).eval env (.single {}) = .ok (.int 18014398509482499) := by
    rw [Expr.eval]
  have position : (Expr.literal (.int (-3))).eval env (.single {}) = .ok (.int (Int64.ofInt (-(3 : ℕ)))) := by
    rw [Expr.eval]
    rfl
  have middle : Double.nearest 18014398509482499 = 18014398509482500 := by decide +kernel
  refine ((round_nearest (s := .single {}) value position (by decide) (by decide) false 18014398509483000).1 ?_).mpr ?_
  · decide
  · rw [middle]
    exact ⟨by decide, by decide, by decide⟩

/-- An integer in the middle between two multiples of ten, whose double is below it. -/
theorem round_misses :
    let env : Env := .ofStore {} ⟨{}, 0⟩
    let call := Expr.call "ROUND" [.literal (.int 9007199254741005), .literal (.int (-1))] false
    NearestMultiple (10 ^ 1) 9007199254741005 9007199254741010 ∧ InInt64 9007199254741010 ∧
      call.eval env (.single {}) = .ok (.int 9007199254741000) := by
  intro env call
  have value : (Expr.literal (.int 9007199254741005)).eval env (.single {}) = .ok (.int 9007199254741005) := by
    rw [Expr.eval]
  have position : (Expr.literal (.int (-1))).eval env (.single {}) = .ok (.int (-1)) := by rw [Expr.eval]
  refine ⟨⟨by decide, by decide, by decide⟩, by decide, ?_⟩
  rw [eval_round (s := .single {}) value position]
  rfl

end Expr

end MiniSql
