import MiniSql.Number.Decimal
import MiniSql.Proofs.CorrectRounding

namespace MiniSql.Decimal

open Double (HasParts Nearest gap gap_le)

/-- The number that a decimal is. -/
def value (d : Decimal) : ℚ :=
  d.digits * 10 ^ d.exponent

section
variable {q : ℚ} {m : ℕ} {e : ℤ}

/-- Half of the least double is not rounded to it, but to zero. -/
theorem least_lt_of_nearest (parts : HasParts m e) (nearest : Nearest q m e) : (2 : ℚ) ^ (-1075 : ℤ) < q := by
  have half : (2 : ℚ) ^ (-1074 : ℤ) = 2 ^ (-1075 : ℤ) * 2 := by
    rw [show (-1074 : ℤ) = -1075 + 1 from rfl, zpow_add_one₀ two_ne_zero]
  have least : (2 : ℚ) ^ (-1074 : ℤ) ≤ 2 ^ e := zpow_le_zpow_right₀ one_le_two parts.least
  have unit : (0 : ℚ) < 2 ^ (-1075 : ℤ) := by positivity
  have small := gap_le m e
  rcases (show 1 ≤ m from parts.pos).eq_or_lt with rfl | more
  · have low := (nearest.odd rfl).1
    have : 2 * (2 : ℚ) ^ e ≤ (4 * (1 : ℕ) - gap 1 e) * 2 ^ e := by
      gcongr
      push_cast
      linarith
    linarith
  · have more : (2 : ℚ) ≤ m := by exact_mod_cast more
    have low := nearest.low
    have : 6 * (2 : ℚ) ^ e ≤ (4 * m - gap m e) * 2 ^ e := by
      gcongr
      linarith
    linarith

/-- Half a unit beyond the greatest double is not rounded to it. -/
theorem lt_most_of_nearest (parts : HasParts m e) (nearest : Nearest q m e) : q < (2 ^ 54 - 1) * 2 ^ (970 : ℤ) := by
  have most : (2 : ℚ) ^ e ≤ 2 ^ (970 : ℤ) * 2 := by
    rw [← zpow_add_one₀ two_ne_zero]
    exact zpow_le_zpow_right₀ one_le_two parts.most
  have positive : (0 : ℚ) < 2 ^ (970 : ℤ) := by positivity
  generalize (2 : ℚ) ^ (970 : ℤ) = unit at most positive ⊢
  rcases (show m ≤ 2 ^ 53 - 1 by have := parts.short; omega).eq_or_lt with rfl | less
  · have greatest : ((2 ^ 53 - 1 : ℕ) : ℚ) = 2 ^ 53 - 1 := by norm_num
    have high := (nearest.odd rfl).2
    rw [greatest] at high
    have : (4 * (2 ^ 53 - 1) + 2 : ℚ) * 2 ^ e ≤ (4 * (2 ^ 53 - 1) + 2) * (unit * 2) := by gcongr
    linarith
  · have less : (m : ℚ) + 2 ≤ 2 ^ 53 := by exact_mod_cast (show m + 2 ≤ 2 ^ 53 by omega)
    have : (4 * m + 2 : ℚ) * 2 ^ e ≤ (2 ^ 55 - 6) * (unit * 2) := by
      gcongr
      linarith
    linarith [nearest.high]

/-- The number of digits and the exponent give the size of a decimal. -/
theorem value_bounds (d : Decimal) (nonzero : d.digits ≠ 0) :
    (10 : ℚ) ^ ((Nat.toDigits 10 d.digits).length + d.exponent - 1) ≤ d.value ∧
      d.value < 10 ^ ((Nat.toDigits 10 d.digits).length + d.exponent) := by
  have atLeast : 0 < (Nat.toDigits 10 d.digits).length := Nat.length_toDigits_pos
  generalize size : (Nat.toDigits 10 d.digits).length = k at atLeast
  obtain ⟨k, rfl⟩ : ∃ j, k = j + 1 := ⟨k - 1, by omega⟩
  have below : d.digits < 10 ^ (k + 1) := (Nat.length_toDigits_le_iff (by decide) atLeast).mp size.le
  have above : 10 ^ k ≤ d.digits := by
    rcases Nat.eq_zero_or_pos k with rfl | pos
    · exact Nat.pos_of_ne_zero nonzero
    · by_contra less
      have := (Nat.length_toDigits_le_iff (by decide) pos).mpr (Nat.lt_of_not_le less)
      omega
  have belowRat : (d.digits : ℚ) < 10 ^ (k + 1) := by exact_mod_cast below
  have aboveRat : (10 ^ k : ℚ) ≤ d.digits := by exact_mod_cast above
  have ten : (10 : ℚ) ≠ 0 := by norm_num
  have unit : (0 : ℚ) < 10 ^ d.exponent := by positivity
  unfold value
  constructor
  · rw [show ((k + 1 : ℕ) : ℤ) + d.exponent - 1 = k + d.exponent by omega, zpow_add₀ ten, zpow_natCast]
    exact mul_le_mul_of_nonneg_right aboveRat unit.le
  · rw [zpow_add₀ ten, zpow_natCast]
    exact mul_lt_mul_of_pos_right belowRat unit

/-- A decimal is rounded once, apart from those that are far too small or too large. -/
theorem toFloat_rounding (d : Decimal) : d.value ≤ 2 ^ (-1075 : ℤ) ∧ d.toFloat = 0.0 ∨
    (2 ^ 54 - 1) * 2 ^ (970 : ℤ) ≤ d.value ∧ d.toFloat = Double.positiveInfinity ∨
    ∃ u, Double.RoundingOf .positive d.value u ∧ d.toFloat.toModel = Float.Model.pack u := by
  have ten : (1 : ℚ) ≤ 10 := by norm_num
  have positive : (0 : ℚ) < 2 ^ (-1075 : ℤ) := by positivity
  unfold toFloat
  simp only [Int.ofNat_eq_natCast]
  by_cases zero : d.digits = 0
  · have none : d.value = 0 := by rw [value, zero, Nat.cast_zero, zero_mul]
    exact .inl ⟨none ▸ positive.le, if_pos (.inl zero)⟩
  obtain ⟨low, high⟩ := value_bounds d zero
  have size : (Nat.toDigits 10 d.digits).length ≤ d.digits.log2 + 1 := by
    refine (Nat.length_toDigits_le_iff (by decide) (Nat.succ_pos _)).mpr (Nat.lt_log2_self.trans_le ?_)
    exact Nat.pow_le_pow_left (by decide) _
  have some : 0 < (Nat.toDigits 10 d.digits).length := Nat.length_toDigits_pos
  generalize (Nat.toDigits 10 d.digits).length = k at low high size some
  by_cases small : (k : ℤ) + d.exponent < -330
  · refine .inl ⟨high.le.trans ?_, if_pos (.inr small)⟩
    calc (10 : ℚ) ^ ((k : ℤ) + d.exponent) ≤ 10 ^ (-331 : ℤ) := zpow_le_zpow_right₀ ten (by omega)
      _ ≤ 2 ^ (-1075 : ℤ) := by
        rw [zpow_neg, zpow_neg]
        have powers : (2 : ℕ) ^ 1075 ≤ 10 ^ 331 := by decide +kernel
        exact inv_anti₀ (by positivity) (by exact_mod_cast powers)
  rw [if_neg (not_or.mpr ⟨zero, small⟩)]
  by_cases large : 310 < (k : ℤ) + d.exponent
  · refine .inr (.inl ⟨?_, if_pos large⟩)
    calc (2 ^ 54 - 1 : ℚ) * 2 ^ (970 : ℤ) ≤ 2 ^ 54 * 2 ^ (970 : ℤ) := by
          gcongr
          norm_num
      _ ≤ 10 ^ (310 : ℤ) := by
          have powers : 2 ^ 54 * (2 : ℕ) ^ 970 ≤ 10 ^ 310 := by decide +kernel
          exact_mod_cast powers
      _ ≤ 10 ^ ((k : ℤ) + d.exponent - 1) := zpow_le_zpow_right₀ ten (by omega)
      _ ≤ d.value := low
  · rw [if_neg large]
    exact .inr (.inr (Double.ofScientific_rounding zero (by omega) (by omega)))

/-- A decimal is read as the double nearest to it. -/
theorem toFloat_nearest {d : Decimal} (parts : HasParts m e) (nearest : Nearest d.value m e) :
    d.toFloat.toModel.unpack = .finite .positive m e parts.pos := by
  rcases d.toFloat_rounding with ⟨small, _⟩ | ⟨large, _⟩ | ⟨u, rounding, packed⟩
  · exact absurd (least_lt_of_nearest parts nearest) (not_lt.mpr small)
  · exact absurd (lt_most_of_nearest parts nearest) (not_lt.mpr large)
  · rw [packed]
    exact parts.unpack_pack_eq (rounding.eq_of_nearest parts nearest)

end

section
variable {tie : Tie} {closed : Bool} {low value high step n : ℕ}

/-- The number is between the bounds, which count if `closed`. -/
def Between (closed : Bool) (low high k : ℕ) : Prop :=
  if closed then low ≤ k ∧ k ≤ high else low < k ∧ k < high

/-- The point of a grid that is found lies between the bounds. -/
theorem onGrid?_between (found : onGrid? tie closed low value high step = some n) : Between closed low high (n * step) := by
  have fits : ∀ k, (if closed then decide (low ≤ k * step) && decide (k * step ≤ high)
      else decide (low < k * step) && decide (k * step < high)) = true → Between closed low high (k * step) := by
    intro k within
    unfold Between
    cases closed <;> simpa using within
  unfold onGrid? at found
  simp only at found
  split at found
  · next first second =>
    cases found
    split
    · exact fits _ first
    · split
      · exact fits _ first
      · exact fits _ second
    · exact fits _ second
  · next first _ =>
    cases found
    exact fits _ first
  · next _ second =>
    cases found
    exact fits _ second
  · cases found

/-- A grid that is not coarser than the room below the number has a point between the bounds. -/
theorem onGrid?_isSome (room : low + step ≤ value) (above : value < high) (pos : 0 < step) :
    (onGrid? tie closed low value high step).isSome := by
  have atMost := Nat.div_mul_le_self value step
  have within : low < value / step * step := by
    have next := Nat.lt_div_mul_add pos (a := value)
    omega
  unfold onGrid?
  simp only
  split
  · rfl
  · rfl
  · rfl
  · next outside _ =>
    cases closed <;> simp at outside <;> omega

theorem coarsest_found {closest : Int → Option Nat} {top : Int} {steps : Nat} (last : (closest (top - steps)).isSome) :
    closest (coarsest closest top steps).exponent = some (coarsest closest top steps).digits := by
  induction steps generalizing top with
  | zero =>
    obtain ⟨n, found⟩ := Option.isSome_iff_exists.mp last
    rw [Int.natCast_zero, Int.sub_zero] at found
    simp [coarsest, found]
  | succ steps ih =>
    unfold coarsest
    split
    · next n found => exact found
    · exact ih (by rwa [show top - 1 - (steps : Int) = top - (steps + 1 : ℕ) by omega])

end

/-- Three digits have at most ten bits, and ten digits have 33 or more. -/
theorem tens_le_twos {w v : ℤ} (few : 10 * w ≤ 3 * v) (many : 33 * w ≤ 10 * v) : (10 : ℚ) ^ w ≤ 2 ^ v := by
  rcases le_or_gt 0 w with whole | fraction
  · obtain ⟨a, rfl⟩ := Int.eq_ofNat_of_zero_le whole
    obtain ⟨b, rfl⟩ := Int.eq_ofNat_of_zero_le (show 0 ≤ v by omega)
    rw [zpow_natCast, zpow_natCast]
    refine le_of_pow_le_pow_left₀ three_ne_zero (by positivity) ?_
    calc ((10 : ℚ) ^ a) ^ 3 = (10 ^ 3) ^ a := by rw [← pow_mul, ← pow_mul, mul_comm]
      _ ≤ (2 ^ 10) ^ a := by gcongr; norm_num
      _ = 2 ^ (10 * a) := (pow_mul _ _ _).symm
      _ ≤ 2 ^ (b * 3) := pow_le_pow_right₀ one_le_two (by omega)
      _ = (2 ^ b) ^ 3 := pow_mul _ _ _
  · obtain ⟨a, rfl⟩ : ∃ a : ℕ, w = -a := ⟨w.natAbs, by omega⟩
    rcases le_or_gt 0 v with whole | negative
    · calc (10 : ℚ) ^ (-(a : ℤ)) ≤ 1 := zpow_le_one_of_nonpos₀ (by norm_num) fraction.le
        _ ≤ 2 ^ v := one_le_zpow₀ one_le_two whole
    · obtain ⟨b, rfl⟩ : ∃ b : ℕ, v = -b := ⟨v.natAbs, by omega⟩
      rw [zpow_neg, zpow_neg, zpow_natCast, zpow_natCast]
      refine inv_anti₀ (by positivity) (le_of_pow_le_pow_left₀ (n := 33) (by decide) (by positivity) ?_)
      calc ((2 : ℚ) ^ b) ^ 33 = (2 ^ 33) ^ b := by rw [← pow_mul, ← pow_mul, mul_comm]
        _ ≤ (10 ^ 10) ^ b := by gcongr; norm_num
        _ = 10 ^ (10 * b) := (pow_mul _ _ _).symm
        _ ≤ 10 ^ (a * 33) := pow_le_pow_right₀ (by norm_num) (by omega)
        _ = (10 ^ a) ^ 33 := pow_mul _ _ _

section
variable {m : ℕ} {e grid : ℤ}

/-- The distance of the points of a grid, as `closestOn` measures it. -/
def step (e grid : ℤ) : ℕ :=
  Nat.pow 2 (2 - e).toNat * Nat.pow 10 grid.toNat

/-- A quarter of the last place of a double, in the same measure. -/
def quarter (e grid : ℤ) : ℕ :=
  Nat.pow 2 (e - 2).toNat * Nat.pow 10 (-grid).toNat

/-- The point of a grid that is nearest to a double and rounds to it. -/
def closestOn (tie : Tie) (m : ℕ) (e grid : ℤ) : Option ℕ :=
  onGrid? tie (m % 2 = 0) ((4 * m - gap m e) * quarter e grid) (4 * m * quarter e grid) ((4 * m + 2) * quarter e grid)
    (step e grid)

theorem shortest_eq (tie : Tie) (m : ℕ) (e : ℤ) :
    shortest tie m e = coarsest (closestOn tie m e) ((m.log2 + 1 + e) * 30103 / 100000 + 1) 24 :=
  rfl

theorem scaled_eq (e grid : ℤ) : ∃ c : ℚ, 0 < c ∧ (step e grid : ℚ) = 10 ^ grid * c ∧ (quarter e grid : ℚ) = 2 ^ (e - 2) * c := by
  have ten : (10 : ℚ) ≠ 0 := by norm_num
  refine ⟨2 ^ (2 - e).toNat * 10 ^ (-grid).toNat, by positivity, ?_, ?_⟩
  · have exponent : grid = (grid.toNat : ℤ) - ((-grid).toNat : ℤ) := by omega
    have value : (10 : ℚ) ^ grid = 10 ^ grid.toNat / 10 ^ (-grid).toNat := by
      conv_lhs => rw [exponent]
      rw [zpow_sub₀ ten, zpow_natCast, zpow_natCast]
    rw [value, step, Nat.pow_eq, Nat.pow_eq]
    push_cast
    field_simp
  · have exponent : e - 2 = ((e - 2).toNat : ℤ) - ((2 - e).toNat : ℤ) := by omega
    have value : (2 : ℚ) ^ (e - 2) = 2 ^ (e - 2).toNat / 2 ^ (2 - e).toNat := by
      conv_lhs => rw [exponent]
      rw [zpow_sub₀ two_ne_zero, zpow_natCast, zpow_natCast]
    rw [value, quarter, Nat.pow_eq, Nat.pow_eq]
    push_cast
    field_simp

theorem gap_bounds (parts : HasParts m e) : 1 ≤ gap m e ∧ gap m e ≤ 4 * m := by
  have := parts.pos
  unfold gap
  split <;> omega

theorem closestOn_nearest {tie : Tie} {n : ℕ} (parts : HasParts m e) (found : closestOn tie m e grid = some n) :
    Nearest (n * 10 ^ grid) m e := by
  have between := onGrid?_between found
  obtain ⟨c, positive, steps, quarters⟩ := scaled_eq e grid
  have unit : (2 : ℚ) ^ e = 2 ^ (e - 2) * 4 := by
    rw [zpow_sub₀ two_ne_zero]
    norm_num
  have point : ((n * step e grid : ℕ) : ℚ) = n * 10 ^ grid * c := by
    rw [Nat.cast_mul, steps]
    ring
  have bottom : (((4 * m - gap m e) * quarter e grid : ℕ) : ℚ) = (4 * m - gap m e) * 2 ^ (e - 2) * c := by
    rw [Nat.cast_mul, Nat.cast_sub (gap_bounds parts).2, quarters]
    push_cast
    ring
  have top : (((4 * m + 2) * quarter e grid : ℕ) : ℚ) = (4 * m + 2) * 2 ^ (e - 2) * c := by
    rw [Nat.cast_mul, quarters]
    push_cast
    ring
  have order : ∀ {a b : ℕ} {p q : ℚ}, (a : ℚ) = p * c → (b : ℚ) = q * c → (a ≤ b → p ≤ q) ∧ (a < b → p < q) := by
    intro a b p q left right
    rw [← Nat.cast_le (α := ℚ), ← Nat.cast_lt (α := ℚ), left, right]
    exact ⟨fun le => le_of_mul_le_mul_right le positive, fun less => lt_of_mul_lt_mul_right less positive.le⟩
  have low := order bottom point
  have high := order point top
  unfold Between at between
  rcases Nat.mod_two_eq_zero_or_one m with even | odd
  · rw [if_pos (by rw [even]; rfl)] at between
    have least := low.1 between.1
    have most := high.1 between.2
    exact ⟨by rw [unit]; linarith, by rw [unit]; linarith, by omega⟩
  · rw [if_neg (by rw [odd]; decide)] at between
    have least := low.2 between.1
    have most := high.2 between.2
    exact ⟨by rw [unit]; linarith, by rw [unit]; linarith, fun _ => ⟨by rw [unit]; linarith, by rw [unit]; linarith⟩⟩

/-- A grid with points in every quarter of the last place has one that rounds to the double. -/
theorem closestOn_isSome (tie : Tie) (parts : HasParts m e) (fine : (10 : ℚ) ^ grid ≤ 2 ^ (e - 2)) :
    (closestOn tie m e grid).isSome := by
  have steps : 0 < step e grid := Nat.mul_pos (Nat.two_pow_pos _) (Nat.pow_pos (by decide))
  have quarters : 0 < quarter e grid := Nat.mul_pos (Nat.two_pow_pos _) (Nat.pow_pos (by decide))
  have finer : step e grid ≤ quarter e grid := by
    obtain ⟨c, positive, stepEq, quarterEq⟩ := scaled_eq e grid
    rw [← Nat.cast_le (α := ℚ), stepEq, quarterEq]
    exact mul_le_mul_of_nonneg_right fine positive.le
  have bounds := gap_bounds parts
  refine onGrid?_isSome ?_ (Nat.mul_lt_mul_of_pos_right (by omega) quarters) steps
  calc (4 * m - gap m e) * quarter e grid + step e grid
      ≤ (4 * m - gap m e) * quarter e grid + quarter e grid := Nat.add_le_add_left finer _
    _ = (4 * m - gap m e + 1) * quarter e grid := (Nat.succ_mul _ _).symm
    _ ≤ 4 * m * quarter e grid := Nat.mul_le_mul_right _ (by omega)

/-- The last grid has points in every quarter of the last place. -/
theorem finest_le (parts : HasParts m e) :
    (10 : ℚ) ^ ((m.log2 + 1 + e) * 30103 / 100000 + 1 - (24 : ℕ) : ℤ) ≤ 2 ^ (e - 2) := by
  have bits : m.log2 ≤ 52 := by
    have := (Nat.log2_lt parts.pos.ne').mpr parts.short
    omega
  have least := parts.least
  have most := parts.most
  exact tens_le_twos (by omega) (by omega)

/-- The shortest decimal of a double is nearer to it than to any other. -/
theorem shortest_nearest (tie : Tie) (parts : HasParts m e) : Nearest (shortest tie m e).value m e := by
  rw [shortest_eq]
  exact closestOn_nearest parts (coarsest_found (closestOn_isSome tie parts (finest_le parts)))

end

end MiniSql.Decimal
