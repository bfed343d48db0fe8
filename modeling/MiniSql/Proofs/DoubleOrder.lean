import Mathlib
import MiniSql.Number.Double

namespace MiniSql.Double

open Float.Model (UnpackedFloat)

/-- The place of a double among all others: its class, then its exponent, then its mantissa. Those below
zero are in the order of their negatives, from the last to the first. -/
def rank : UnpackedFloat → Int ×ₗ Int ×ₗ Int
  | .infinity .negative => toLex (-2, toLex (0, 0))
  | .finite .negative m e _ => toLex (-1, toLex (-e, -m))
  | .zero _ | .notANumber => toLex (0, toLex (0, 0))
  | .finite .positive m e _ => toLex (1, toLex (e, m))
  | .infinity .positive => toLex (2, toLex (0, 0))

theorem compare_then_eq_lt {e f : Int} {m n : Nat} :
    (compare e f).then (compare m n) = .lt ↔ e < f ∨ e = f ∧ m < n := by
  rw [Ordering.then_eq_lt, compare_lt_iff_lt, compare_eq_iff_eq, compare_lt_iff_lt]

theorem compare_then_eq_gt {e f : Int} {m n : Nat} :
    (compare e f).then (compare m n) = .gt ↔ f < e ∨ e = f ∧ n < m := by
  rw [Ordering.then_eq_gt, compare_gt_iff_gt, compare_eq_iff_eq, compare_gt_iff_gt]

theorem rank_lt_iff {u v : UnpackedFloat} :
    u.lt v = true ↔ u ≠ .notANumber ∧ v ≠ .notANumber ∧ rank u < rank v := by
  have signs : compare UnpackedFloat.Sign.negative .positive = .lt := rfl
  unfold UnpackedFloat.lt
  rw [beq_iff_eq]
  rcases u with (_ | _) | _ | s | ⟨_ | _, m, e, _⟩ <;> rcases v with (_ | _) | _ | t | ⟨_ | _, n, f, _⟩ <;>
    simp [UnpackedFloat.compare, rank, signs, Prod.Lex.toLex_lt_toLex, Ordering.swap_eq_lt, compare_then_eq_lt,
      compare_then_eq_gt]

def opposite (p : Int ×ₗ Int ×ₗ Int) : Int ×ₗ Int ×ₗ Int :=
  toLex (-(ofLex p).1, toLex (-(ofLex (ofLex p).2).1, -(ofLex (ofLex p).2).2))

theorem rank_neg (u : UnpackedFloat) : rank u.neg = opposite (rank u) := by
  rcases u with (_ | _) | _ | s | ⟨_ | _, m, e, _⟩ <;> simp [rank, opposite, UnpackedFloat.neg]

theorem opposite_le {p q : Int ×ₗ Int ×ₗ Int} (le : p ≤ q) : opposite q ≤ opposite p := by
  simp only [opposite, Prod.Lex.le_iff, ofLex_toLex] at le ⊢
  omega

def IsNumber (x : Float) : Prop :=
  x.toModel.unpack ≠ .notANumber

def place (x : Float) : Int ×ₗ Int ×ₗ Int :=
  rank x.toModel.unpack

theorem lt_iff {x y : Float} : x < y ↔ IsNumber x ∧ IsNumber y ∧ place x < place y := by
  have models : x < y ↔ x.toModel.unpack.lt y.toModel.unpack = true := decide_eq_true_iff
  rw [models, rank_lt_iff]
  rfl

/-- Of two doubles at most one is less than the other. -/
theorem lt_asymm {x y : Float} (less : x < y) : ¬ y < x := by
  intro greater
  exact (lt_iff.mp less).2.2.asymm (lt_iff.mp greater).2.2

/-- Not to be less goes on over a number. -/
theorem not_lt_trans {x y z : Float} (number : IsNumber y) (first : ¬ y < x) (second : ¬ z < y) : ¬ z < x := by
  intro less
  obtain ⟨numberZ, numberX, order⟩ := lt_iff.mp less
  have low : place x ≤ place y := not_lt.mp fun less => first (lt_iff.mpr ⟨number, numberX, less⟩)
  have high : place y ≤ place z := not_lt.mp fun less => second (lt_iff.mpr ⟨numberZ, number, less⟩)
  exact absurd order (not_lt.mpr (low.trans high))

section
open Float.Model (Format pack)
open Float.Model.UnpackedFloat

theorem sign_packComponents (s : UnpackedFloat.Sign) (e : BitVec 11) (m : BitVec 52) :
    UnpackedFloat.Sign.ofBitVec (unpackSign (packComponents .binary64 s e m)) = s := by
  simp only [unpackSign, packComponents, BitVec.extractLsb]
  rw [BitVec.extractLsb'_append_eq_of_le (by omega), BitVec.extractLsb'_append_eq_of_le (by omega)]
  cases s <;> rfl

/-- An exponent of eleven ones stands for no finite number. -/
theorem exponent_ne {n : Nat} (small : n + 1 < 2048) : BitVec.ofNat 11 n ≠ -1#11 := by
  intro same
  have values := congrArg BitVec.toNat same
  simp only [BitVec.toNat_ofNat] at values
  have ones : (-1#11 : BitVec 11).toNat = 2047 := rfl
  omega

theorem unpack_packComponents_ne {s : UnpackedFloat.Sign} {e : BitVec 11} {m : BitVec 52} (finite : e ≠ -1#11 ∨ m = 0#52) :
    unpack .binary64 (packComponents .binary64 s e m) ≠ .notANumber := by
  unfold unpack
  simp only [unpackMantissa_packComponents, unpackExponent_packComponents]
  split
  · rename_i ones
    rw [if_pos (finite.resolve_left fun other => other ones)]
    exact nofun
  · split
    · split <;> exact nofun
    · exact nofun

/-- What is packed as a number is read as one. -/
theorem unpack_pack_ne {u : UnpackedFloat} (number : u ≠ .notANumber) :
    (Float.Model.pack u).unpack ≠ .notANumber := by
  show unpack .binary64 (UnpackedFloat.pack .binary64 u) ≠ .notANumber
  cases u with
  | notANumber => exact absurd rfl number
  | infinity s => exact unpack_packComponents_ne (.inr rfl)
  | zero s => exact unpack_packComponents_ne (.inr rfl)
  | finite s m e pos =>
    unfold UnpackedFloat.pack
    simp only
    split
    · exact unpack_packComponents_ne (.inr rfl)
    · rename_i small
      split
      · exact unpack_packComponents_ne (.inl (exponent_ne (Nat.lt_of_not_le small)))
      · exact unpack_packComponents_ne (.inl (by decide))

theorem unpack_pack_zero (s : UnpackedFloat.Sign) : (Float.Model.pack (.zero s)).unpack = .zero s := by
  cases s <;> rfl

/-- A mantissa of 53 bits and an exponent in range are read as they are packed. -/
theorem unpack_pack_finite {s : UnpackedFloat.Sign} {m : Nat} {e : Int} {pos : 0 < m} (low : 2 ^ 52 ≤ m) (high : m < 2 ^ 53)
    (least : -1074 ≤ e) (most : e ≤ 971) : (Float.Model.pack (.finite s m e pos)).unpack = .finite s m e pos := by
  have size : m.log2 = 52 := by
    have atLeast := (Nat.le_log2 (by omega)).mpr low
    have below := (Nat.log2_lt (by omega)).mpr high
    omega
  have biased : (e + (Format.binary64.exponentBias : Int) + (Format.binary64.mantissaBitsWithoutImplicit : Int)).toNat =
      (e + 1075).toNat := by
    show (e + (1023 : Nat) + (52 : Nat)).toNat = _
    omega
  have nonzero : BitVec.ofNat 11 (e + 1075).toNat ≠ 0#11 := by
    intro same
    have values := congrArg BitVec.toNat same
    simp only [BitVec.toNat_ofNat] at values
    omega
  have mantissa : (1#1 ++ BitVec.ofNat 52 m).toNat = m := by
    rw [BitVec.toNat_append, ← Nat.shiftLeft_add_eq_or_of_lt (BitVec.ofNat 52 m).isLt, BitVec.toNat_ofNat,
      Nat.shiftLeft_eq]
    simp only [BitVec.toNat_ofNat]
    omega
  show unpack .binary64 (UnpackedFloat.pack .binary64 (.finite s m e pos)) = _
  unfold UnpackedFloat.pack
  simp only [size, biased]
  rw [if_neg (by omega), if_pos (show 52 + 1 = Format.binary64.mantissaBits from rfl)]
  unfold unpack
  simp only [unpackMantissa_packComponents, unpackExponent_packComponents, sign_packComponents]
  rw [if_neg (exponent_ne (by omega)), if_neg nonzero]
  have bias : (Format.binary64.exponentBias : Int) = 1023 := rfl
  simp only [mantissa, BitVec.toNat_ofNat, bias, finite.injEq, true_and]
  omega

end

end MiniSql.Double
