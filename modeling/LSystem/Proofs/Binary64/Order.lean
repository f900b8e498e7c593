import LSystem.Binary64.Order
import LSystem.Proofs.Binary64.Parts
set_option autoImplicit false

/-! # The rank of a float is its place among the floats

A float is unpacked into a sign, a significand and an exponent, and two floats are compared by these:
first the exponents, then the significands, and the other way about where both are negative. The rank
reads the same bits as one number. That both order the floats alike is a matter of place value: a
fraction stays below `2 ^ 52`, and where the exponent field is 0 no leading bit is added. So
`rank_eq_none_iff` and `atMost_iff_le` make any statement about ranks one about floats. -/

namespace LSystem.Binary64

open Float.Model (UnpackedFloat)
open Float.Model.UnpackedFloat (Sign)

/-! ## Parts -/

/-- What the rank makes of the bits. -/
theorem rank_eq (x : Float) :
    rank x = if infinityBits < unsignedBits x then none
      else some ((signOf x.toBits.toNat).apply (unsignedBits x)) := by
  have hlt : x.toBits.toNat < 2 ^ 64 := x.toBits.toBitVec.isLt
  unfold rank unsignedBits infinityBits signOf
  simp only [twoTo, Nat.pow_eq, gt_iff_lt]
  split_ifs <;> first | rfl | omega

/-- Floats without a minus are ranked by their bits. -/
theorem rank_of_positive {x : Float} (hx : isNegative x = false) (hle : unsignedBits x ≤ infinityBits) :
    rank x = some (unsignedBits x : Int) := by
  rw [rank_eq, if_neg (Nat.not_lt.2 hle)]
  have hminus := minus_signOf x
  rw [hx] at hminus
  cases hs : signOf x.toBits.toNat with
  | positive => rfl
  | negative =>
    rw [hs] at hminus
    cases hminus

/-- A rank is that of an unpacked float. The magnitude of a finite one is its place value. -/
def IsRankOf (r : Option Int) : UnpackedFloat → Prop
  | .notANumber => r = none
  | .infinity s => r = some (s.apply (2047 * 2 ^ 52))
  | .zero _ => r = some 0
  | .finite s m e _ => r = some (s.apply ((e + 1074) * 2 ^ 52 + m)) ∧
      e ≤ 971 ∧ m < 2 ^ 53 ∧ (e = -1074 ∨ -1074 < e ∧ 2 ^ 52 ≤ m)

theorem isRankOf_unpack (x : Float) : IsRankOf (rank x) x.toModel.unpack := by
  have hparts := isPartsOf_toBits x
  have hrank := rank_eq x
  unfold unsignedBits at hrank
  cases hu : x.toModel.unpack with
  | notANumber =>
    rw [hu] at hparts
    have hnan : infinityBits < x.toBits.toNat % 2 ^ 63 := hparts
    rwa [if_pos hnan] at hrank
  | infinity s =>
    rw [hu] at hparts
    obtain ⟨rfl, hinfinity⟩ := hparts
    rwa [hinfinity, if_neg (lt_irrefl _)] at hrank
  | zero s =>
    rw [hu] at hparts
    obtain ⟨rfl, hzero⟩ := hparts
    rw [hzero, if_neg (by decide)] at hrank
    rw [hrank]
    cases signOf x.toBits.toNat <;> rfl
  | finite s m e hm =>
    rw [hu] at hparts
    obtain ⟨rfl, hplace, he, hlt, hpart⟩ := hparts
    rw [if_neg (by unfold infinityBits; omega), ← hplace] at hrank
    exact ⟨hrank, he, hlt, hpart⟩

/-! ## Comparing -/

/-- Exponents and then significands are compared as place values are. -/
theorem compare_parts {m m' : Nat} {e e' : Int} (hm : m < 2 ^ 53) (hm' : m' < 2 ^ 53)
    (h : e = -1074 ∨ -1074 < e ∧ 2 ^ 52 ≤ m) (h' : e' = -1074 ∨ -1074 < e' ∧ 2 ^ 52 ≤ m') :
    (compare e e').then (compare m m') =
      compare ((e + 1074) * 2 ^ 52 + m) ((e' + 1074) * 2 ^ 52 + m') := by
  rcases lt_trichotomy ((e + 1074) * 2 ^ 52 + m) ((e' + 1074) * 2 ^ 52 + m') with hc | hc | hc
  · rw [compare_lt_iff_lt.2 hc, Ordering.then_eq_lt, compare_lt_iff_lt, compare_eq_iff_eq,
      compare_lt_iff_lt]
    omega
  · rw [compare_eq_iff_eq.2 hc, Ordering.then_eq_eq, compare_eq_iff_eq, compare_eq_iff_eq]
    omega
  · rw [compare_gt_iff_gt.2 hc, Ordering.then_eq_gt, compare_gt_iff_gt, compare_eq_iff_eq,
      compare_gt_iff_gt]
    omega

theorem compare_neg (a b : Int) : compare (-a) (-b) = (compare a b).swap := by
  rcases lt_trichotomy a b with h | h | h
  · rw [compare_lt_iff_lt.2 h, Ordering.swap, compare_gt_iff_gt]
    omega
  · rw [compare_eq_iff_eq.2 h, Ordering.swap, compare_eq_iff_eq]
    omega
  · rw [compare_gt_iff_gt.2 h, Ordering.swap, compare_lt_iff_lt]
    omega

theorem lt_eq_compare {a b : Int} : Ordering.lt = compare a b ↔ a < b := by
  rw [eq_comm, compare_lt_iff_lt]

theorem gt_eq_compare {a b : Int} : Ordering.gt = compare a b ↔ b < a := by
  rw [eq_comm, compare_gt_iff_gt]

/-- All but the infinities lie between these. -/
theorem IsRankOf.between {i : Int} {u : UnpackedFloat} (h : IsRankOf (some i) u)
    (hfinite : ∀ s, u = .infinity s → False) : -(2047 * 2 ^ 52) < i ∧ i < 2047 * 2 ^ 52 := by
  cases u with
  | notANumber => cases h
  | infinity s => exact absurd rfl (hfinite s)
  | zero s =>
    obtain rfl := Option.some.inj h
    decide
  | finite s m e hm =>
    obtain ⟨hi, he, hlt, hpart⟩ := h
    obtain rfl := Option.some.inj hi
    cases s <;> simp only [Sign.apply] <;> omega

/-- Unpacked floats are compared as their ranks are. -/
theorem IsRankOf.compare_eq {i j : Int} {u v : UnpackedFloat} (hu : IsRankOf (some i) u)
    (hv : IsRankOf (some j) v) : u.compare v = some (compare i j) := by
  fun_cases UnpackedFloat.compare u v
  case case1 => cases hu
  case case2 => cases hv
  case case3 s t =>
    -- two infinities
    obtain rfl := Option.some.inj hu
    obtain rfl := Option.some.inj hv
    cases s <;> cases t <;> rfl
  case case12 s t =>
    -- two zeros
    obtain rfl := Option.some.inj hu
    obtain rfl := Option.some.inj hv
    rfl
  case case13 =>
    -- two negative numbers
    obtain ⟨hi, -, hlt, hpart⟩ := hu
    obtain ⟨hj, -, hlt', hpart'⟩ := hv
    rw [compare_parts hlt hlt' hpart hpart', ← compare_neg, Option.some.inj hi, Option.some.inj hj]
    rfl
  case case16 =>
    -- two positive ones
    obtain ⟨hi, -, hlt, hpart⟩ := hu
    obtain ⟨hj, -, hlt', hpart'⟩ := hv
    rw [compare_parts hlt hlt' hpart hpart', Option.some.inj hi, Option.some.inj hj]
    rfl
  case case4 hfinite | case5 hfinite =>
    -- an infinity against what is none
    have hbetween := hv.between hfinite
    simp only [IsRankOf, Sign.apply, Option.some.injEq] at hu
    simp only [Option.some.injEq, lt_eq_compare, gt_eq_compare]
    omega
  case case6 hfinite | case7 hfinite =>
    have hbetween := hu.between hfinite
    simp only [IsRankOf, Sign.apply, Option.some.injEq] at hv
    simp only [Option.some.injEq, lt_eq_compare, gt_eq_compare]
    omega
  all_goals
    -- zero, or numbers of different signs
    simp only [IsRankOf, Sign.apply, Option.some.injEq] at hu hv
    simp only [Option.some.injEq, lt_eq_compare, gt_eq_compare]
    omega

/-- Only what is no number has no rank. -/
theorem IsRankOf.eq_none_iff {r : Option Int} {u : UnpackedFloat} (h : IsRankOf r u) :
    r = none ↔ u = .notANumber := by
  cases u with
  | notANumber => exact iff_of_true h rfl
  | infinity s =>
    obtain rfl := h
    simp
  | zero s =>
    obtain rfl := h
    simp
  | finite s m e hm =>
    obtain ⟨rfl, -⟩ := h
    simp

/-! ## Floats -/

/-- A float without rank is NaN. -/
theorem rank_eq_none_iff (x : Float) : rank x = none ↔ x.isNaN = true := by
  rw [(isRankOf_unpack x).eq_none_iff]
  exact UnpackedFloat.isNaN_iff.symm

/-- Floats are compared by their ranks. -/
theorem compare_unpack (a b : Float) :
    a.toModel.unpack.compare b.toModel.unpack = match rank a, rank b with
      | some i, some j => some (compare i j)
      | _, _ => none := by
  have ha := isRankOf_unpack a
  have hb := isRankOf_unpack b
  cases hi : rank a with
  | none =>
    rw [ha.eq_none_iff.1 hi]
    rfl
  | some i =>
    cases hj : rank b with
    | none =>
      rw [hb.eq_none_iff.1 hj]
      cases a.toModel.unpack <;> rfl
    | some j =>
      rw [hi] at ha
      rw [hj] at hb
      exact ha.compare_eq hb

theorem atMost_iff_le (a b : Float) : atMost a b = true ↔ a ≤ b := by
  have hle : a ≤ b ↔ (a.toModel.unpack.compare b.toModel.unpack).any (·.isLE) = true := by
    show decide _ = true ↔ _
    rw [decide_eq_true_iff]
    rfl
  rw [hle, compare_unpack, atMost]
  cases rank a <;> cases rank b <;> simp [Std.isLE_compare]

theorem same_eq_beq (a b : Float) : same a b = (a == b) := by
  have hbeq : (a == b) = (a.toModel.unpack.compare b.toModel.unpack == some .eq) := rfl
  rw [hbeq, compare_unpack, same]
  cases rank a <;> cases rank b <;> simp

/-! ## Order -/

theorem rank_zero : rank 0 = some 0 := rfl

theorem le_iff_rank {a b : Float} :
    a ≤ b ↔ ∃ i j, rank a = some i ∧ rank b = some j ∧ i ≤ j := by
  rw [← atMost_iff_le, atMost]
  cases rank a <;> cases rank b <;> simp

theorem le_of_le_of_le {a b c : Float} (hab : a ≤ b) (hbc : b ≤ c) : a ≤ c := by
  obtain ⟨i, j, hi, hj, hij⟩ := le_iff_rank.1 hab
  obtain ⟨j', k, hj', hk, hjk⟩ := le_iff_rank.1 hbc
  rw [hj] at hj'
  obtain rfl := Option.some.inj hj'
  exact le_iff_rank.2 ⟨i, k, hi, hk, Int.le_trans hij hjk⟩

theorem exists_rank_of_not_isNaN {a : Float} (h : ¬ a.isNaN) : ∃ i, rank a = some i := by
  rw [← rank_eq_none_iff] at h
  exact Option.ne_none_iff_exists'.1 h

theorem not_isNaN_of_rank {a : Float} {i : Int} (h : rank a = some i) : ¬ a.isNaN := by
  rw [← rank_eq_none_iff, h]
  exact Option.some_ne_none i

/-- Only numbers are compared. -/
theorem not_isNaN_of_le {a b : Float} (h : a ≤ b) : ¬ a.isNaN ∧ ¬ b.isNaN := by
  obtain ⟨i, j, hi, hj, -⟩ := le_iff_rank.1 h
  exact ⟨not_isNaN_of_rank hi, not_isNaN_of_rank hj⟩

end LSystem.Binary64
