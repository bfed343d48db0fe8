import MiniSql.Proofs.RoundedDoubles
import MiniSql.Value.Order

namespace MiniSql

namespace Double

open Float.Model (Format UnpackedFloat)
open Float.Model.UnpackedFloat

theorem isNumber_iff {x : Float} : IsNumber x ↔ x.isNaN = false := by
  show x.toModel.unpack ≠ .notANumber ↔ x.toModel.unpack.isNaN = false
  cases x.toModel.unpack with
  | notANumber => exact ⟨fun number => absurd rfl number, nofun⟩
  | infinity _ => exact ⟨fun _ => rfl, fun _ => nofun⟩
  | zero _ => exact ⟨fun _ => rfl, fun _ => nofun⟩
  | finite _ _ _ _ => exact ⟨fun _ => rfl, fun _ => nofun⟩

theorem isNumber_neg {x : Float} (number : IsNumber x) : IsNumber (-x) := by
  refine unpack_pack_ne (u := x.toModel.unpack.neg) ?_
  unfold IsNumber at number
  cases form : x.toModel.unpack with
  | notANumber => exact absurd form number
  | infinity _ => exact nofun
  | zero _ => exact nofun
  | finite _ _ _ _ => exact nofun

theorem finite_ne (s : UnpackedFloat.Sign) (m : Nat) (e : Int) (pos : 0 < m) : finite s m e pos ≠ .notANumber :=
  nofun

theorem roundWithAccuracy_ne (f : Format) (s : UnpackedFloat.Sign) (m : Nat) (e : Int) (a : Accuracy) :
    roundWithAccuracy f s m e a ≠ .notANumber := by
  unfold roundWithAccuracy
  simp only
  split <;> exact nofun

/-- A number times, or over, one that is neither zero nor infinite is a number. -/
theorem mul_div_ne {f : Format} {u v : UnpackedFloat} (number : u ≠ .notANumber)
    (proper : ∃ s m e pos, v = .finite s m e pos) :
    UnpackedFloat.mul f u v ≠ .notANumber ∧ UnpackedFloat.div f u v ≠ .notANumber := by
  obtain ⟨s, m, e, pos, rfl⟩ := proper
  cases u with
  | notANumber => exact absurd rfl number
  | infinity _ => exact ⟨nofun, nofun⟩
  | zero _ => exact ⟨nofun, nofun⟩
  | finite _ _ _ _ => exact ⟨roundWithAccuracy_ne f _ _ _ _, roundWithAccuracy_ne f _ _ _ _⟩

theorem ofNat_ne (n : Nat) : ofNat .binary64 n ≠ .notANumber := by
  rcases Nat.eq_zero_or_pos n with rfl | pos
  · exact nofun
  · obtain ⟨m, e, _, written, _⟩ := ofNat_eq pos
    rw [written]
    exact nofun

theorem ofScientific_ne (m : Nat) (e : Int) : UnpackedFloat.ofScientific .binary64 m e ≠ .notANumber := by
  unfold UnpackedFloat.ofScientific
  split
  · exact nofun
  · split
    · exact nofun
    · split
      · exact nofun
      · split
        · exact (mul_div_ne (finite_ne _ _ _ _) ⟨_, _, _, _, rfl⟩).1
        · exact (mul_div_ne (finite_ne _ _ _ _) ⟨_, _, _, _, rfl⟩).2

theorem isNumber_ofScientific (m : Nat) (negative : Bool) (e : Nat) :
    IsNumber (Float.ofScientific m negative e) := by
  unfold Float.ofScientific
  split
  · rename_i short
    have exact : IsNumber m.toUInt64.toFloat := unpack_pack_ne (ofNat_ne _)
    obtain ⟨_, _, pos, written, _⟩ := holds_exactPowers (Nat.lt_succ_of_le short.2)
    have results := mul_div_ne (f := .binary64) exact ⟨_, _, _, pos, written⟩
    simp only
    split
    · exact unpack_pack_ne results.2
    · exact unpack_pack_ne results.1
  · exact unpack_pack_ne (ofScientific_ne m _)

end Double

theorem Numeral.isNumber_toFloat (n : Numeral) : Double.IsNumber n.toFloat := by
  have size : ∀ d : Decimal, Double.IsNumber d.toFloat := by
    intro d
    unfold Decimal.toFloat
    simp only
    split
    · exact Double.isNumber_ofScientific _ _ _
    · split
      · exact nofun
      · exact Double.isNumber_ofScientific _ _ _
  unfold Numeral.toFloat
  simp only
  split
  · exact Double.isNumber_neg (size _)
  · exact size _

namespace Numeric

/-- The double of the number is not a NaN. -/
def IsNumber (a : Numeric) : Prop :=
  Double.IsNumber a.toFloat

theorem isNumber_int (i : Int64) : (int i).IsNumber :=
  Double.isNumber_ofInt64 i

/-- A text never reads as a NaN. -/
theorem isNumber_ofText (s : String) : (ofText s).IsNumber := by
  unfold ofText
  split
  · unfold ofNumeral
    split
    · exact isNumber_int _
    · exact Numeral.isNumber_toFloat _
  · exact isNumber_int 0

/-- Numbers that are not two integers compare as their doubles. -/
theorem compare_doubles {a b : Numeric} (mixed : (∃ x, a = float x) ∨ ∃ y, b = float y) : a.compare b =
    if a.toFloat < b.toFloat then .lt else if b.toFloat < a.toFloat then .gt else .eq := by
  rcases mixed with ⟨x, rfl⟩ | ⟨y, rfl⟩
  · rfl
  · cases a <;> rfl

theorem compare_swap (a b : Numeric) : b.compare a = (a.compare b).swap := by
  have doubles : ((∃ x, a = float x) ∨ ∃ y, b = float y) → b.compare a = (a.compare b).swap := by
    intro mixed
    rw [compare_doubles mixed, compare_doubles mixed.symm]
    by_cases less : a.toFloat < b.toFloat
    · rw [if_pos less, if_neg (Double.lt_asymm less), if_pos less]
      rfl
    · rw [if_neg less, if_neg less]
      split <;> rfl
  cases a with
  | float x => exact doubles (.inl ⟨x, rfl⟩)
  | int i =>
    cases b with
    | float y => exact doubles (.inr ⟨y, rfl⟩)
    | int j => exact (Int.compare_swap ..).symm

/-- What is not greater is not greater as a double. -/
theorem not_lt_of_compare {a b : Numeric} (order : a.compare b ≠ .gt) : ¬ b.toFloat < a.toFloat := by
  have doubles : ((∃ x, a = float x) ∨ ∃ y, b = float y) → ¬ b.toFloat < a.toFloat := by
    intro mixed less
    rw [compare_doubles mixed, if_neg (Double.lt_asymm less), if_pos less] at order
    exact order rfl
  cases a with
  | float x => exact doubles (.inl ⟨x, rfl⟩)
  | int i =>
    cases b with
    | float y => exact doubles (.inr ⟨y, rfl⟩)
    | int j =>
      intro less
      have le : i.toInt ≤ j.toInt := not_lt.mp fun more => order (compare_gt_iff_gt.mpr more)
      exact absurd (Double.lt_iff.mp less).2.2 (not_lt.mpr (Double.place_ofInt64_mono le))

/-- Two different integers on the two sides of a double that both are equal to. -/
def Straddles (a b c : Numeric) : Prop :=
  ∃ i y k, a = int i ∧ b = float y ∧ c = int k ∧ k.toInt < i.toInt ∧
    a.compare b = .eq ∧ b.compare c = .eq

/-- Numbers are in one order, but for different integers that are equal to one double. -/
theorem compare_trans {a b c : Numeric} (number : b.IsNumber) (apart : ¬ Straddles a b c)
    (first : a.compare b ≠ .gt) (second : b.compare c ≠ .gt) : a.compare c ≠ .gt := by
  have order : ¬ c.toFloat < a.toFloat :=
    Double.not_lt_trans number (not_lt_of_compare first) (not_lt_of_compare second)
  have doubles : ((∃ x, a = float x) ∨ ∃ z, c = float z) → a.compare c ≠ .gt := by
    intro mixed
    rw [compare_doubles mixed, if_neg order]
    split <;> exact nofun
  cases a with
  | float x => exact doubles (.inl ⟨x, rfl⟩)
  | int i =>
    cases c with
    | float z => exact doubles (.inr ⟨z, rfl⟩)
    | int k =>
      cases b with
      | int j =>
        have low : i.toInt ≤ j.toInt := not_lt.mp fun more => first (compare_gt_iff_gt.mpr more)
        have high : j.toInt ≤ k.toInt := not_lt.mp fun more => second (compare_gt_iff_gt.mpr more)
        exact fun more => absurd (compare_gt_iff_gt.mp more) (not_lt.mpr (low.trans high))
      | float y =>
        -- the integers are in the order of their doubles, so the double in the middle is equal to both
        intro more
        have less : k.toInt < i.toInt := compare_gt_iff_gt.mp more
        have notLess : ¬ (int i).toFloat < (int k).toFloat :=
          not_lt_of_compare fun greater => absurd (compare_gt_iff_gt.mp greater) less.asymm
        have belowY := not_lt_of_compare first
        have aboveY := not_lt_of_compare second
        have left : (int i).compare (float y) = .eq := by
          rw [compare_doubles (.inr ⟨y, rfl⟩), if_neg (Double.not_lt_trans (isNumber_int k) aboveY notLess), if_neg belowY]
        have right : (float y).compare (int k) = .eq := by
          rw [compare_doubles (.inl ⟨y, rfl⟩), if_neg (Double.not_lt_trans (isNumber_int i) notLess belowY), if_neg aboveY]
        exact apart ⟨i, y, k, rfl, rfl, rfl, less, left, right⟩

end Numeric

end MiniSql
