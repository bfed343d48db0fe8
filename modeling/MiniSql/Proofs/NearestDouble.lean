import MiniSql.Proofs.DoubleOrder

namespace MiniSql.Double

open Float.Model (Format UnpackedFloat totalExponent)
open Float.Model.UnpackedFloat

/-- A mantissa with its two bits behind, in quarters. -/
def quarters (x : ExtendedMantissa) : Nat :=
  4 * x.mantissa + 2 * x.roundBit.toNat + x.stickyBit.toNat

theorem quarters_shiftRightOne (x : ExtendedMantissa) :
    quarters x.shiftRightOne = 2 * (quarters x / 4) + min 1 (quarters x % 4) := by
  obtain ⟨m, round, sticky⟩ := x
  have parity : (m % 2 != 0).toNat = m % 2 := by
    rcases Nat.mod_two_eq_zero_or_one m with even | odd <;> simp [*]
  have whole : (4 * m + 2 * round.toNat + sticky.toNat) / 4 = m := by
    have := round.toNat_le
    have := sticky.toNat_le
    omega
  simp only [quarters, ExtendedMantissa.shiftRightOne, parity, whole]
  cases round <;> cases sticky <;> simp <;> omega

theorem shiftRight_succ (x : ExtendedMantissa) (k : Nat) : x >>> (k + 1) = (x >>> k).shiftRightOne := rfl

theorem quarters_shiftRight {x y : ExtendedMantissa} (le : quarters x ≤ quarters y) (k : Nat) :
    quarters (x >>> k) ≤ quarters (y >>> k) := by
  induction k with
  | zero => exact le
  | succ k ih =>
    rw [shiftRight_succ, shiftRight_succ, quarters_shiftRightOne, quarters_shiftRightOne]
    omega

theorem mantissa_ofMantissaAndAccuracy (m : Nat) (a : Accuracy) :
    (ExtendedMantissa.ofMantissaAndAccuracy m a).mantissa = m := by
  unfold ExtendedMantissa.ofMantissaAndAccuracy
  split <;> rfl

theorem mantissa_shiftRight (x : ExtendedMantissa) (k : Nat) : (x >>> k).mantissa = x.mantissa / 2 ^ k := by
  induction k with
  | zero => exact (Nat.div_one _).symm
  | succ k ih =>
    rw [shiftRight_succ, Nat.pow_succ, ← Nat.div_div_eq_div_mul, ← ih]
    rfl

/-- A quarter below a half goes down, one above goes up, and a half goes to the even side. -/
theorem roundedMantissa_eq (x : ExtendedMantissa) : x.roundedMantissa = x.mantissa +
    (if quarters x % 4 < 2 then 0 else if quarters x % 4 = 2 then x.mantissa % 2 else 1) := by
  obtain ⟨m, round, sticky⟩ := x
  have rest : quarters ⟨m, round, sticky⟩ % 4 = 2 * round.toNat + sticky.toNat := by
    have := round.toNat_le
    have := sticky.toNat_le
    simp only [quarters]
    omega
  rw [rest]
  cases round <;> cases sticky <;> rfl

theorem mantissa_eq_quarters (x : ExtendedMantissa) : x.mantissa = quarters x / 4 := by
  have := x.roundBit.toNat_le
  have := x.stickyBit.toNat_le
  unfold quarters
  omega

theorem roundedMantissa_mono {x y : ExtendedMantissa} (le : quarters x ≤ quarters y) :
    x.roundedMantissa ≤ y.roundedMantissa := by
  rw [roundedMantissa_eq, roundedMantissa_eq, mantissa_eq_quarters, mantissa_eq_quarters]
  split <;> split <;> (try split) <;> (try split) <;> omega

theorem roundedMantissa_bounds (x : ExtendedMantissa) :
    x.mantissa ≤ x.roundedMantissa ∧ x.roundedMantissa ≤ x.mantissa + 1 := by
  rw [roundedMantissa_eq]
  split
  · omega
  · split <;> omega

/-- A number of 53 bits or more without those after the first 53. -/
theorem leading_bounds {m : Nat} (long : 52 ≤ m.log2) :
    2 ^ 52 ≤ m / 2 ^ (m.log2 - 52) ∧ m / 2 ^ (m.log2 - 52) < 2 ^ 53 := by
  have nonzero : m ≠ 0 := by
    rintro rfl
    simp at long
  have low : 2 ^ m.log2 ≤ m := Nat.log2_self_le nonzero
  have high : m < 2 ^ (m.log2 + 1) := Nat.lt_log2_self
  have divisor : 0 < 2 ^ (m.log2 - 52) := Nat.two_pow_pos _
  rw [Nat.le_div_iff_mul_le divisor, Nat.div_lt_iff_lt_mul divisor, ← Nat.pow_add, ← Nat.pow_add]
  have lower : 52 + (m.log2 - 52) = m.log2 := by omega
  have upper : 53 + (m.log2 - 52) = m.log2 + 1 := by omega
  rw [lower, upper]
  exact ⟨low, high⟩

theorem log2_shiftLeft {n : Nat} (pos : 0 < n) (k : Nat) : (n <<< k).log2 = n.log2 + k := by
  have low : 2 ^ n.log2 ≤ n := Nat.log2_self_le (by omega)
  have high : n < 2 ^ (n.log2 + 1) := Nat.lt_log2_self
  have factor : 0 < 2 ^ k := Nat.two_pow_pos k
  rw [Nat.shiftLeft_eq, Nat.log2_eq_iff (Nat.mul_pos pos factor).ne']
  constructor
  · rw [Nat.pow_add]
    exact Nat.mul_le_mul_right _ low
  · rw [Nat.add_right_comm, Nat.pow_add]
    exact Nat.mul_lt_mul_of_pos_right high factor

/-- The 53 bits that are nearest to a number, before a carry. -/
def significand (n : Nat) : Nat :=
  (ExtendedMantissa.ofMantissaAndAccuracy (n <<< (52 - n.log2)) .exact >>> (n.log2 - 52)).roundedMantissa

theorem rounded_bounds {m : Nat} (a : Accuracy) (long : 52 ≤ m.log2) :
    2 ^ 52 ≤ (ExtendedMantissa.ofMantissaAndAccuracy m a >>> (m.log2 - 52)).roundedMantissa ∧
      (ExtendedMantissa.ofMantissaAndAccuracy m a >>> (m.log2 - 52)).roundedMantissa ≤ 2 ^ 53 := by
  have leading := leading_bounds long
  have rounded := roundedMantissa_bounds (ExtendedMantissa.ofMantissaAndAccuracy m a >>> (m.log2 - 52))
  rw [mantissa_shiftRight, mantissa_ofMantissaAndAccuracy] at rounded
  exact ⟨leading.1.trans rounded.1, rounded.2.trans leading.2⟩

theorem significand_bounds {n : Nat} (pos : 0 < n) : 2 ^ 52 ≤ significand n ∧ significand n ≤ 2 ^ 53 := by
  have size := log2_shiftLeft pos (52 - n.log2)
  have drop : (n <<< (52 - n.log2)).log2 - 52 = n.log2 - 52 := by omega
  have bounds := rounded_bounds .exact (m := n <<< (52 - n.log2)) (by omega)
  rw [drop] at bounds
  exact bounds

theorem significand_mono {m n : Nat} (le : m ≤ n) (same : m.log2 = n.log2) : significand m ≤ significand n := by
  unfold significand
  rw [same]
  refine roundedMantissa_mono (quarters_shiftRight ?_ _)
  simp only [quarters, ExtendedMantissa.ofMantissaAndAccuracy, Nat.shiftLeft_eq]
  have := Nat.mul_le_mul_right (2 ^ (52 - n.log2)) le
  omega

theorem targetExponent_eq (size : Nat) (e : Int) : Format.binary64.targetExponent (size + 1 + e) =
    max (size - 52 + e) (-1074) := by
  show max (_ - ((53 : Nat) : Int)) (-1074) = _
  omega

theorem shiftToTarget {m : Nat} {e : Int} {a : Accuracy} (least : -1074 ≤ e) (k : Nat) (size : m.log2 - 52 = k) :
    shiftToTargetExponent .binary64 m e a = (ExtendedMantissa.ofMantissaAndAccuracy m a >>> k, e + k) := by
  unfold shiftToTargetExponent shiftToExponent totalExponent
  simp only [targetExponent_eq]
  have shift : (max ((m.log2 : Int) - 52 + e) (-1074) - e).toNat = k := by omega
  rw [shift]

section
variable {s : UnpackedFloat.Sign} {m : Nat} {e : Int} {a : Accuracy}

theorem roundWithAccuracy_eq {f g : Int} {x y : ExtendedMantissa} {r n : Nat}
    (first : shiftToTargetExponent .binary64 m e a = (x, f)) (rounds : x.roundedMantissa = r)
    (second : shiftToTargetExponent .binary64 r f .exact = (y, g)) (whole : y.mantissa = n) (pos : 0 < n) :
    roundWithAccuracy .binary64 s m e a = finite s n g pos := by
  subst rounds whole
  unfold roundWithAccuracy
  simp only [first, second]
  rw [dif_neg pos.ne']

/-- What is rounded to 53 bits or less is not shifted again. -/
theorem roundWithAccuracy_kept {r : Nat} (least : -1074 ≤ e)
    (rounds : (ExtendedMantissa.ofMantissaAndAccuracy m a >>> (m.log2 - 52)).roundedMantissa = r) (pos : 0 < r)
    (short : r < 2 ^ 53) : roundWithAccuracy .binary64 s m e a = finite s r (e + (m.log2 - 52 : Nat)) pos := by
  have first := shiftToTarget (a := a) least _ (rfl : m.log2 - 52 = m.log2 - 52)
  have bits : r.log2 - 52 = 0 := by
    have := (Nat.log2_lt pos.ne').mpr short
    omega
  have second := shiftToTarget (a := .exact) (e := e + (m.log2 - 52 : Nat)) (by omega) 0 bits
  rw [Int.natCast_zero, Int.add_zero] at second
  exact roundWithAccuracy_eq first rounds second rfl pos

/-- What is rounded to nothing is zero. -/
theorem roundWithAccuracy_zero (least : -1074 ≤ e)
    (rounds : (ExtendedMantissa.ofMantissaAndAccuracy m a >>> (m.log2 - 52)).roundedMantissa = 0) :
    roundWithAccuracy .binary64 s m e a = zero s := by
  have first := shiftToTarget (a := a) least _ (rfl : m.log2 - 52 = m.log2 - 52)
  have second := shiftToTarget (m := 0) (a := .exact) (e := e + (m.log2 - 52 : Nat)) (by omega) 0 rfl
  unfold roundWithAccuracy
  simp only [first, rounds, second]
  exact dif_pos rfl

/-- What is rounded up to 54 bits is shifted once more. -/
theorem roundWithAccuracy_carry (least : -1074 ≤ e)
    (rounds : (ExtendedMantissa.ofMantissaAndAccuracy m a >>> (m.log2 - 52)).roundedMantissa = 2 ^ 53) :
    roundWithAccuracy .binary64 s m e a = finite s (2 ^ 52) (e + (m.log2 - 52 : Nat) + 1) (by decide) := by
  have first := shiftToTarget (a := a) least _ (rfl : m.log2 - 52 = m.log2 - 52)
  have bits : (2 ^ 53).log2 - 52 = 1 := by rw [Nat.log2_two_pow]
  have second := shiftToTarget (a := .exact) (e := e + (m.log2 - 52 : Nat)) (by omega) 1 bits
  exact roundWithAccuracy_eq first rounds second rfl (by decide)

/-- What is rounded has the leading bits, or after a carry it is a power of two. -/
theorem roundWithAccuracy_normal (long : 52 ≤ m.log2) (least : -1074 ≤ e) {r : Nat}
    (rounds : r = (ExtendedMantissa.ofMantissaAndAccuracy m a >>> (m.log2 - 52)).roundedMantissa) :
    ∃ n f pos, roundWithAccuracy .binary64 s m e a = finite s n f pos ∧ 2 ^ 52 ≤ n ∧ n < 2 ^ 53 ∧
      (n = r ∧ f = e + (m.log2 - 52 : Nat) ∨ r = 2 ^ 53 ∧ n = 2 ^ 52 ∧ f = e + (m.log2 - 52 : Nat) + 1) := by
  obtain ⟨low, high⟩ := rounded_bounds a long
  rw [← rounds] at low high
  rcases high.lt_or_eq with below | rfl
  · have pos : 0 < r := Nat.lt_of_lt_of_le (by decide) low
    exact ⟨_, _, pos, roundWithAccuracy_kept least rounds.symm pos below, low, below, .inl ⟨rfl, rfl⟩⟩
  · exact ⟨_, _, _, roundWithAccuracy_carry least rounds.symm, le_refl _, by decide, .inr ⟨rfl, rfl, rfl⟩⟩

end

theorem ofNat_start {n : Nat} (pos : 0 < n) : ofNat .binary64 n =
    roundWithAccuracy .binary64 .positive (n <<< (52 - n.log2)) (-((52 - n.log2 : Nat) : Int)) .exact := by
  have order : compare (n : Int) 0 = .gt := compare_gt_iff_gt.mpr (by omega)
  unfold UnpackedFloat.ofNat UnpackedFloat.ofInt UnpackedFloat.normalize UnpackedFloat.round decreaseExponent totalExponent
  simp only [order, Int.toNat_natCast, targetExponent_eq]
  have shift : (0 - max ((n.log2 : Int) - 52 + 0) (-1074)).toNat = 52 - n.log2 := by omega
  rw [shift, Int.zero_sub]

/-- The unpacked double that is nearest to a number has its significand, or after a carry a power of two. -/
theorem ofNat_eq {n : Nat} (pos : 0 < n) : ∃ m e pos, ofNat .binary64 n = finite .positive m e pos ∧
    2 ^ 52 ≤ m ∧ m < 2 ^ 53 ∧ (m = significand n ∧ e = (n.log2 : Int) - 52 ∨
      significand n = 2 ^ 53 ∧ m = 2 ^ 52 ∧ e = (n.log2 : Int) - 51) := by
  have size := log2_shiftLeft pos (52 - n.log2)
  have drop : (n <<< (52 - n.log2)).log2 - 52 = n.log2 - 52 := by omega
  have same : significand n = (ExtendedMantissa.ofMantissaAndAccuracy (n <<< (52 - n.log2)) .exact >>>
      ((n <<< (52 - n.log2)).log2 - 52)).roundedMantissa := by
    rw [drop, significand]
  obtain ⟨m, e, whole, written, low, high, source⟩ :=
    roundWithAccuracy_normal (s := .positive) (by omega) (show -1074 ≤ -((52 - n.log2 : Nat) : Int) by omega) same
  exact ⟨m, e, whole, (ofNat_start pos).trans written, low, high, by omega⟩

theorem rank_ofNat_mono {m n : Nat} (le : m ≤ n) : rank (ofNat .binary64 m) ≤ rank (ofNat .binary64 n) := by
  rcases Nat.eq_zero_or_pos m with rfl | pos
  · rcases Nat.eq_zero_or_pos n with rfl | above
    · exact le_refl _
    · obtain ⟨_, _, _, written, _⟩ := ofNat_eq above
      rw [written]
      exact Prod.Lex.toLex_le_toLex.mpr (.inl Int.zero_lt_one)
  · have above : 0 < n := by omega
    obtain ⟨a, e, _, writtenM, lowA, highA, sourceA⟩ := ofNat_eq pos
    obtain ⟨b, f, _, writtenN, lowB, highB, sourceB⟩ := ofNat_eq above
    have boundM := (significand_bounds pos).2
    have ordered : e < f ∨ e = f ∧ a ≤ b := by
      have logs : m.log2 ≤ n.log2 := by
        have := (Nat.le_log2 above.ne').mpr ((Nat.log2_self_le pos.ne').trans le)
        exact this
      rcases logs.lt_or_eq with longer | same
      · omega
      · have mono := significand_mono le same
        omega
    rw [writtenM, writtenN]
    refine Prod.Lex.toLex_le_toLex.mpr (.inr ⟨rfl, ?_⟩)
    refine Prod.Lex.toLex_le_toLex.mpr ?_
    omega

/-- Up to 64 bits, a double is read back as what is nearest to the number. -/
theorem unpack_ofNat {n : Nat} (short : n < 2 ^ 64) :
    (Float.Model.pack (ofNat .binary64 n)).unpack = ofNat .binary64 n ∧
      (Float.Model.pack (ofNat .binary64 n).neg).unpack = (ofNat .binary64 n).neg := by
  rcases Nat.eq_zero_or_pos n with rfl | pos
  · exact ⟨unpack_pack_zero .positive, unpack_pack_zero .negative⟩
  · obtain ⟨m, e, _, written, low, high, source⟩ := ofNat_eq pos
    have size : n.log2 < 64 := (Nat.log2_lt pos.ne').mpr short
    rw [written]
    exact ⟨unpack_pack_finite low high (by omega) (by omega), unpack_pack_finite low high (by omega) (by omega)⟩

/-- The unpacked form of an integer's double. -/
def unpacked (i : Int64) : UnpackedFloat :=
  if i.toInt < 0 then (ofNat .binary64 i.toInt.natAbs).neg else ofNat .binary64 i.toInt.natAbs

theorem unpack_ofInt64 (i : Int64) : (ofInt64 i).toModel.unpack = unpacked i := by
  have bounds := And.intro (Int64.le_toInt i) (Int64.toInt_lt i)
  have short : i.toInt.natAbs < 2 ^ 64 := by omega
  have size : (UInt64.ofNat i.toInt.natAbs).toNat = i.toInt.natAbs := UInt64.toNat_ofNat_of_lt short
  have positive : (UInt64.ofNat i.toInt.natAbs).toFloat.toModel.unpack = ofNat .binary64 i.toInt.natAbs := by
    show (Float.Model.pack (ofNat .binary64 (UInt64.ofNat i.toInt.natAbs).toNat)).unpack = _
    rw [size, (unpack_ofNat short).1]
  unfold ofInt64 unpacked
  simp only
  split
  · show (Float.Model.pack (UInt64.ofNat i.toInt.natAbs).toFloat.toModel.unpack.neg).unpack = _
    rw [positive, (unpack_ofNat short).2]
  · exact positive

theorem isNumber_ofInt64 (i : Int64) : IsNumber (ofInt64 i) := by
  have size : ∀ n, ofNat .binary64 n ≠ .notANumber ∧ (ofNat .binary64 n).neg ≠ .notANumber := by
    intro n
    rcases Nat.eq_zero_or_pos n with rfl | pos
    · exact ⟨nofun, nofun⟩
    · obtain ⟨m, e, _, written, _⟩ := ofNat_eq pos
      rw [written]
      exact ⟨nofun, nofun⟩
  unfold IsNumber
  rw [unpack_ofInt64, unpacked]
  split
  · exact (size _).2
  · exact (size _).1

/-- The doubles of integers are in the order of the integers. -/
theorem place_ofInt64_mono {i j : Int64} (le : i.toInt ≤ j.toInt) : place (ofInt64 i) ≤ place (ofInt64 j) := by
  have zero : rank (ofNat .binary64 0) = opposite (rank (ofNat .binary64 0)) := rfl
  unfold place
  rw [unpack_ofInt64, unpack_ofInt64, unpacked, unpacked]
  split <;> split
  · rw [rank_neg, rank_neg]
    exact opposite_le (rank_ofNat_mono (by omega))
  · rw [rank_neg]
    calc opposite (rank (ofNat .binary64 i.toInt.natAbs)) ≤ opposite (rank (ofNat .binary64 0)) :=
          opposite_le (rank_ofNat_mono (Nat.zero_le _))
      _ = rank (ofNat .binary64 0) := zero.symm
      _ ≤ rank (ofNat .binary64 j.toInt.natAbs) := rank_ofNat_mono (Nat.zero_le _)
  · omega
  · exact rank_ofNat_mono (by omega)

theorem ofNat_beq_zero {n : Nat} (pos : 0 < n) : (ofNat .binary64 n).beq (.zero .positive) = false ∧
    (ofNat .binary64 n).neg.beq (.zero .positive) = false := by
  obtain ⟨m, e, _, written, _⟩ := ofNat_eq pos
  rw [written]
  exact ⟨rfl, rfl⟩

/-- No integer but zero has the double zero. -/
theorem ofInt64_beq_zero (i : Int64) : (ofInt64 i == 0) = (i == 0) := by
  show (ofInt64 i).toModel.unpack.beq (.zero .positive) = _
  rw [unpack_ofInt64, unpacked]
  by_cases zero : i = 0
  · subst zero
    rfl
  · have nonzero : i.toInt ≠ 0 := fun same => zero (Int64.toInt_inj.mp same)
    have others := ofNat_beq_zero (Int.natAbs_pos.mpr nonzero)
    rw [beq_eq_false_iff_ne.mpr zero]
    split
    · exact others.2
    · exact others.1

end MiniSql.Double
