import LSystem.Proofs.Binary64.Parts
set_option autoImplicit false

/-! # Products and quotients are rounded to the nearest float

A product or quotient of significands has more bits than fit. They are shifted out one at a time, and of what
has left two bits are kept: the last one, and whether there was any other before it. This is enough to tell
where the exact number lies between two neighbours (`Represents`), and so it is rounded once, to the nearest
float (`isNearest_mul`, `isNearest_div`). -/

namespace LSystem.Binary64

open Float.Model (UnpackedFloat Format totalExponent)
open Float.Model.UnpackedFloat (Sign Accuracy ExtendedMantissa)

/-! ## Rest bits -/

/-- A number lies as far above the significand as the two bits say. -/
def Represents (em : ExtendedMantissa) (q : ℚ) : Prop :=
  match em.roundBit, em.stickyBit with
  | false, false => q = em.mantissa
  | false, true => em.mantissa < q ∧ 2 * q < 2 * em.mantissa + 1
  | true, false => 2 * q = 2 * em.mantissa + 1
  | true, true => 2 * em.mantissa + 1 < 2 * q ∧ q < em.mantissa + 1

theorem Represents.between {em : ExtendedMantissa} {q : ℚ} (h : Represents em q) :
    em.mantissa ≤ q ∧ q < em.mantissa + 1 := by
  obtain ⟨m, round, sticky⟩ := em
  cases round <;> cases sticky <;> simp only [Represents] at h ⊢ <;> constructor <;> linarith

/-- One more bit is shifted out. -/
theorem Represents.shiftRightOne {em : ExtendedMantissa} {q : ℚ} (h : Represents em q) :
    Represents em.shiftRightOne (q / 2) := by
  obtain ⟨m, round, sticky⟩ := em
  have hsplit : (m : ℚ) = 2 * (m / 2 : Nat) + (m % 2 : Nat) := by
    exact_mod_cast (Nat.div_add_mod m 2).symm
  rcases Nat.mod_two_eq_zero_or_one m with hm | hm <;> rw [hm] at hsplit <;>
    cases round <;> cases sticky <;>
    simp [Represents, ExtendedMantissa.shiftRightOne, hm] at h hsplit ⊢ <;>
    (try constructor) <;> linarith

theorem Represents.shiftRight {em : ExtendedMantissa} {q : ℚ} (h : Represents em q) (n : Nat) :
    Represents (em >>> n) (q / 2 ^ n) := by
  show Represents (n.repeat ExtendedMantissa.shiftRightOne em) _
  induction n with
  | zero => simpa [Nat.repeat] using h
  | succ n ih =>
    rw [Nat.repeat, pow_succ, ← div_div]
    exact ih.shiftRightOne

/-- The rest bits decide which way to round. -/
theorem Represents.roundsTo {em : ExtendedMantissa} {q : ℚ} (h : Represents em q) :
    RoundsTo 1 q em.roundedMantissa := by
  obtain ⟨m, round, sticky⟩ := em
  cases round <;> cases sticky <;>
    simp only [Represents, ExtendedMantissa.roundedMantissa, ExtendedMantissa.accuracy,
      Accuracy.roundToNearestEven] at h ⊢
  · refine ⟨by linarith, by linarith, ?_⟩
    rintro (heq | heq) <;> linarith
  · refine ⟨by linarith, by linarith, ?_⟩
    rintro (heq | heq) <;> linarith
  · -- a tie goes to the even neighbour
    rcases Nat.mod_two_eq_zero_or_one m with hm | hm
    · refine ⟨?_, ?_, ?_⟩ <;> rw [hm] <;> push_cast
      · linarith
      · linarith
      · intro _
        omega
    · refine ⟨?_, ?_, ?_⟩ <;> rw [hm] <;> push_cast
      · linarith
      · linarith
      · intro _
        omega
  · refine ⟨by push_cast; linarith, by push_cast; linarith, ?_⟩
    rintro (heq | heq) <;> push_cast at heq <;> linarith

theorem mantissa_ofMantissaAndAccuracy (m : Nat) (a : Accuracy) :
    (ExtendedMantissa.ofMantissaAndAccuracy m a).mantissa = m := by
  rcases a with _ | o
  · rfl
  · cases o <;> rfl

theorem represents_exact (m : Nat) : Represents (.ofMantissaAndAccuracy m .exact) m := rfl

/-- Of a division it is the remainder that tells. -/
theorem represents_div (n : Nat) {d : Nat} (hd : 0 < d) :
    Represents (.ofMantissaAndAccuracy (n / d) (UnpackedFloat.accuracyOfFraction (n % d) d)) (n / d) := by
  have hdq : (0 : ℚ) < d := by exact_mod_cast hd
  have hsplit : (n / d : ℚ) = (n / d : Nat) + (n % d : Nat) / d := by
    rw [div_eq_iff hdq.ne', add_mul, div_mul_cancel₀ _ hdq.ne']
    exact_mod_cast (Nat.div_add_mod' n d).symm
  have hrest : n % d < d := Nat.mod_lt n hd
  rw [hsplit]
  generalize n / d = f at *
  generalize n % d = r at *
  have hone : (r / d : ℚ) < 1 := by
    rw [div_lt_one hdq]
    exact_mod_cast hrest
  unfold UnpackedFloat.accuracyOfFraction
  split_ifs with hr
  · rw [hr, Nat.cast_zero, zero_div, add_zero]
    exact represents_exact f
  have hpos : (0 : ℚ) < r / d := by
    have : (0 : ℚ) < r := by exact_mod_cast Nat.pos_of_ne_zero hr
    positivity
  rcases lt_trichotomy (2 * r) d with hlt | heq | hgt
  · rw [compare_lt_iff_lt.2 hlt]
    have hhalf : 2 * (r / d : ℚ) < 1 := by
      rw [← mul_div_assoc, div_lt_one hdq]
      exact_mod_cast hlt
    show (f : ℚ) < f + r / d ∧ 2 * (f + r / d : ℚ) < 2 * f + 1
    exact ⟨by linarith, by linarith⟩
  · rw [compare_eq_iff_eq.2 heq]
    have hhalf : 2 * (r / d : ℚ) = 1 := by
      rw [← mul_div_assoc, div_eq_one_iff_eq hdq.ne']
      exact_mod_cast heq
    show 2 * (f + r / d : ℚ) = 2 * f + 1
    linarith
  · rw [compare_gt_iff_gt.2 hgt]
    have hhalf : 1 < 2 * (r / d : ℚ) := by
      rw [← mul_div_assoc, one_lt_div hdq]
      exact_mod_cast hgt
    show 2 * (f : ℚ) + 1 < 2 * (f + r / d) ∧ (f + r / d : ℚ) < f + 1
    exact ⟨by linarith, by linarith⟩

/-! ## Rounding -/

theorem bits_ofParts_zero (s : Sign) :
    isNegative (ofParts (.zero s)) = minus s ∧ unsignedBits (ofParts (.zero s)) = 0 :=
  bits_ofParts (Nat.zero_le _) ⟨(signOf_add s (Nat.zero_le _)).symm, add_mod_of_le s (Nat.zero_le _)⟩

theorem isNearest_ofParts_zero (s : Sign) :
    isNegative (ofParts (.zero s)) = minus s ∧ IsNearest 0 (unsignedBits (ofParts (.zero s))) := by
  obtain ⟨hsign, hbits⟩ := bits_ofParts_zero s
  refine ⟨hsign, ?_⟩
  rw [hbits, ← magnitude_zero]
  exact isNearest_magnitude (Nat.zero_le _)

/-- A significand of no more than 53 bits, and of no less unless the exponent is the least, is packed as it
    is. Past the largest float that is infinity. -/
theorem bits_ofParts_finite (s : Sign) {m k : Nat} (hm : 0 < m) (hlt : m < 2 ^ 53)
    (hfull : k = 0 ∨ 2 ^ 52 ≤ m) :
    isNegative (ofParts (.finite s m (k - 1074) hm)) = minus s ∧
      unsignedBits (ofParts (.finite s m (k - 1074) hm)) = min (k * 2 ^ 52 + m) infinityBits := by
  rcases Nat.lt_or_ge k 2046 with hk | hk
  · have hinfinity : k * 2 ^ 52 + m < infinityBits := by
      unfold infinityBits
      omega
    rw [min_eq_left hinfinity.le]
    refine bits_ofParts hinfinity.le ?_
    refine ⟨(signOf_add s hinfinity.le).symm, ?_, by omega, hlt, by omega⟩
    rw [add_mod_of_le s hinfinity.le]
    push_cast
    ring
  · have hinfinity : infinityBits ≤ k * 2 ^ 52 + m := by
      unfold infinityBits
      omega
    rw [min_eq_right hinfinity]
    have hoverflow : UnpackedFloat.pack .binary64 (.finite s m (k - 1074) hm) =
        UnpackedFloat.pack .binary64 (.infinity s) := by
      have hbias : ((k - 1074 : Int) + Format.binary64.exponentBias
          + Format.binary64.mantissaBitsWithoutImplicit).toNat = k + 1 := by
        show ((k - 1074 : Int) + (1023 : Nat) + (52 : Nat)).toNat = k + 1
        omega
      simp only [UnpackedFloat.pack, hbias]
      exact if_pos (show 2 ^ 11 ≤ k + 1 + 1 by omega)
    have hsame : ofParts (.finite s m (k - 1074) hm) = ofParts (.infinity s) := by
      simp only [ofParts, Float.Model.pack, hoverflow]
    rw [hsame]
    exact bits_ofParts le_rfl ⟨(signOf_add s le_rfl).symm, add_mod_of_le s le_rfl⟩

theorem targetExponent_eq (m : Nat) (e : Int) :
    Format.binary64.targetExponent (totalExponent m e) = max (m.log2 + 1 + e - 53) (-1074) := rfl

/-- A significand that was rounded up to `2 ^ 53` carries; any other stays. -/
theorem exists_shiftToTargetExponent {n k : Nat} (hn : n ≤ 2 ^ 53) (hfull : k = 0 ∨ 2 ^ 52 ≤ n) :
    ∃ m j : Nat, UnpackedFloat.shiftToTargetExponent .binary64 n (k - 1074) .exact =
        (.ofMantissaAndAccuracy m .exact, (j - 1074 : Int)) ∧
      m < 2 ^ 53 ∧ (j = 0 ∨ 2 ^ 52 ≤ m) ∧ j * 2 ^ 52 + m = k * 2 ^ 52 + n := by
  rcases hn.lt_or_eq with hlt | rfl
  · have hlog : n.log2 ≤ 52 := by
      rcases Nat.eq_zero_or_pos n with rfl | hpos
      · exact Nat.zero_le _
      · exact Nat.le_of_lt_succ ((Nat.log2_lt hpos.ne').2 hlt)
    refine ⟨n, k, ?_, hlt, hfull, rfl⟩
    have hstay : (max ((n.log2 : Int) + 1 + (k - 1074) - 53) (-1074) - (k - 1074)).toNat = 0 := by omega
    simp only [UnpackedFloat.shiftToTargetExponent, targetExponent_eq, UnpackedFloat.shiftToExponent,
      hstay]
    congr 1
    omega
  · have hlog : (2 ^ 53 : Nat).log2 = 53 := Nat.log2_two_pow
    refine ⟨2 ^ 52, k + 1, ?_, by norm_num, .inr le_rfl, by ring⟩
    have hcarry : (max (((53 : Nat) : Int) + 1 + (k - 1074) - 53) (-1074) - (k - 1074)).toNat = 1 := by
      omega
    simp only [UnpackedFloat.shiftToTargetExponent, targetExponent_eq, UnpackedFloat.shiftToExponent,
      hlog, hcarry]
    congr 1
    omega

/-- A number is less than 53 bits of the unit that its exponent leads to, and no less than 52, unless the unit
    is the least. -/
theorem between_of_log2 {m : Nat} {e t : Int} {q : ℚ} (hlow : m ≤ q) (hhigh : q < m + 1)
    (hm : e ≤ -1074 ∨ 52 ≤ m.log2) (ht : t = max ((m.log2 : Int) + 1 + e - 53) (-1074)) :
    q * 2 ^ e < 2 ^ 53 * 2 ^ t ∧ (t = -1074 ∨ 2 ^ 52 * 2 ^ t ≤ q * 2 ^ e) := by
  constructor
  · have hsize : (m + 1 : ℚ) ≤ 2 ^ (m.log2 + 1 : Int) := by
      exact_mod_cast Nat.lt_log2_self (n := m)
    calc q * 2 ^ e < (m + 1) * 2 ^ e := by gcongr
      _ ≤ 2 ^ (m.log2 + 1 : Int) * 2 ^ e := by gcongr
      _ = 2 ^ (m.log2 + 1 + e : Int) := (zpow_add₀ two_ne_zero _ _).symm
      _ ≤ 2 ^ ((53 : Nat) + t : Int) := zpow_le_zpow_right₀ one_le_two (by omega)
      _ = 2 ^ 53 * 2 ^ t := by rw [zpow_add₀ two_ne_zero, zpow_natCast]
  · by_cases hleast : t = -1074
    · exact .inl hleast
    -- above the least exponent the leading bit stands at the 53rd place
    have hne : m ≠ 0 := by
      rintro rfl
      have : (0 : Nat).log2 = 0 := rfl
      omega
    have hsize : (2 : ℚ) ^ (m.log2 : Int) ≤ m := by
      exact_mod_cast Nat.log2_self_le hne
    refine .inr ?_
    calc (2 : ℚ) ^ 52 * 2 ^ t = 2 ^ ((52 : Nat) + t : Int) := by
          rw [zpow_add₀ two_ne_zero, zpow_natCast]
      _ = 2 ^ (m.log2 : Int) * 2 ^ e := by
          rw [← zpow_add₀ two_ne_zero]
          congr 1
          omega
      _ ≤ m * 2 ^ e := by gcongr
      _ ≤ q * 2 ^ e := by gcongr

/-- The bits that do not fit are shifted out. At the exponent that is reached the significand has 53 bits, or
    less where this is the least one, and it is rounded by the bits that have left. -/
theorem exists_roundsTo {m : Nat} {e : Int} {a : Accuracy} {q : ℚ}
    (hq : Represents (.ofMantissaAndAccuracy m a) q) (hm : e ≤ -1074 ∨ 2 ^ 52 ≤ m) :
    ∃ (em : ExtendedMantissa) (k : Nat),
      UnpackedFloat.shiftToTargetExponent .binary64 m e a = (em, (k - 1074 : Int)) ∧
      RoundsTo (2 ^ (k - 1074 : Int)) (q * 2 ^ e) em.roundedMantissa ∧
      q * 2 ^ e < 2 ^ 53 * 2 ^ (k - 1074 : Int) ∧
      (k = 0 ∨ 2 ^ 52 * 2 ^ (k - 1074 : Int) ≤ q * 2 ^ e) := by
  obtain ⟨hlow, hhigh⟩ := hq.between
  rw [mantissa_ofMantissaAndAccuracy] at hlow hhigh
  have hlog : e ≤ -1074 ∨ 52 ≤ m.log2 := by
    refine hm.imp_right ?_
    intro h
    exact (Nat.le_log2 (show m ≠ 0 by omega)).2 h
  obtain ⟨k, hk⟩ := Int.eq_ofNat_of_zero_le
    (show 0 ≤ max ((m.log2 : Int) + 1 + e - 53) (-1074) + 1074 by omega)
  obtain ⟨n, hn⟩ := Int.eq_ofNat_of_zero_le (show 0 ≤ (k - 1074 : Int) - e by omega)
  obtain ⟨hless, hfull⟩ :=
    between_of_log2 hlow hhigh hlog (show (k - 1074 : Int) = max (m.log2 + 1 + e - 53) (-1074) by omega)
  refine ⟨ExtendedMantissa.ofMantissaAndAccuracy m a >>> n, k, ?_, ?_, hless, ?_⟩
  · have hcount : (max ((m.log2 : Int) + 1 + e - 53) (-1074) - e).toNat = n := by omega
    simp only [UnpackedFloat.shiftToTargetExponent, targetExponent_eq, UnpackedFloat.shiftToExponent,
      hcount]
    congr 1
    omega
  · have hrounds := (hq.shiftRight n).roundsTo.scale (show (0 : ℚ) < 2 ^ (k - 1074 : Int) by positivity)
    have hscaled : q / 2 ^ n * 2 ^ (k - 1074 : Int) = q * 2 ^ e := by
      rw [show (k - 1074 : Int) = e + n by omega, zpow_add₀ two_ne_zero, zpow_natCast]
      field_simp
    rwa [one_mul, hscaled] at hrounds
  · refine hfull.imp_left ?_
    intro h
    omega

/-- **A significand with more bits than fit is rounded to the nearest float.** -/
theorem isNearest_roundWithAccuracy (s : Sign) {m : Nat} {e : Int} {a : Accuracy} {q : ℚ}
    (hq : Represents (.ofMantissaAndAccuracy m a) q) (hm : e ≤ -1074 ∨ 2 ^ 52 ≤ m) :
    isNegative (ofParts (UnpackedFloat.roundWithAccuracy .binary64 s m e a)) = minus s ∧
      IsNearest (q * 2 ^ e) (unsignedBits (ofParts (UnpackedFloat.roundWithAccuracy .binary64 s m e a))) := by
  obtain ⟨em, k, hshift, hrounds, hless, hfull⟩ := exists_roundsTo hq hm
  have hunit : (0 : ℚ) < 2 ^ (k - 1074 : Int) := by positivity
  have hle : em.roundedMantissa ≤ 2 ^ 53 := hrounds.le_of_lt hunit (by exact_mod_cast hless)
  have hge : k = 0 ∨ 2 ^ 52 ≤ em.roundedMantissa := by
    refine hfull.imp_right ?_
    intro h
    exact hrounds.le_of_le hunit (by exact_mod_cast h)
  have hnear := isNearest_of_roundsTo hle hfull hrounds
  obtain ⟨n, j, hcarry, hlt, hplace, hsame⟩ := exists_shiftToTargetExponent hle hge
  rw [← hsame] at hnear
  have hround : UnpackedFloat.roundWithAccuracy .binary64 s m e a =
      if h : n = 0 then .zero s else .finite s n (j - 1074) (Nat.pos_of_ne_zero h) := by
    simp only [UnpackedFloat.roundWithAccuracy, hshift, hcarry]
    rfl
  rw [hround]
  split_ifs with hzero
  · have hj : j = 0 := hplace.resolve_right (by omega)
    rw [hj, hzero] at hnear
    obtain ⟨hsign, hbits⟩ := bits_ofParts_zero s
    rw [hbits]
    exact ⟨hsign, hnear⟩
  · obtain ⟨hsign, hbits⟩ := bits_ofParts_finite s (Nat.pos_of_ne_zero hzero) hlt hplace
    rw [hbits]
    exact ⟨hsign, hnear⟩

/-! ## Operations -/

/-- A finite float is unpacked into a zero, or into a significand and an exponent of its magnitude. -/
theorem unpack_cases {x : Float} (hx : unsignedBits x < infinityBits) :
    (unsignedBits x = 0 ∧ x.toModel.unpack = .zero (signOf x.toBits.toNat)) ∨
    ∃ (m : Nat) (e : Int) (hm : 0 < m), x.toModel.unpack = .finite (signOf x.toBits.toNat) m e hm ∧
      magnitude (unsignedBits x) = m * 2 ^ e ∧ -1074 ≤ e ∧ (e = -1074 ∨ 2 ^ 52 ≤ m) := by
  have hparts := isPartsOf_toBits x
  cases hu : x.toModel.unpack with
  | notANumber => exact absurd hu (hparts.ne_notANumber hx.le)
  | infinity s =>
    rw [hu] at hparts
    exact absurd hparts.2 hx.ne
  | zero s =>
    rw [hu] at hparts
    obtain ⟨rfl, hzero⟩ := hparts
    exact .inl ⟨hzero, rfl⟩
  | finite s m e hm =>
    rw [hu] at hparts
    obtain ⟨rfl, hplace, -, hlt, hpart⟩ := hparts
    obtain ⟨k, hk⟩ := Int.eq_ofNat_of_zero_le (show 0 ≤ e + 1074 by omega)
    have hbits : unsignedBits x = k * 2 ^ 52 + m := by
      unfold unsignedBits
      omega
    refine .inr ⟨m, e, hm, rfl, ?_, by omega, by omega⟩
    rw [hbits, magnitude_parts hlt.le (by omega), show (k - 1074 : Int) = e by omega]

theorem minus_mul (s t : Sign) : minus (s * t) = (minus s ^^ minus t) := by
  cases s <;> cases t <;> rfl

theorem minus_div (s t : Sign) : minus (s / t) = (minus s ^^ minus t) := by
  cases s <;> cases t <;> rfl

/-- A significand is widened by zeros until the quotient has bits enough. -/
theorem exists_divCore {m m' : Nat} (hm : 0 < m) (hm' : 0 < m') (e e' : Int) :
    ∃ (n : Nat) (t : Int), UnpackedFloat.divCore .binary64 m e m' e' =
        (n / m', t, UnpackedFloat.accuracyOfFraction (n % m') m') ∧
      (n / m' * 2 ^ t : ℚ) = m * 2 ^ e / (m' * 2 ^ e') ∧ (t ≤ -1074 ∨ 2 ^ 52 ≤ n / m') := by
  obtain ⟨t, ht⟩ : ∃ t, t = min (e - e')
      (max (((m.log2 : Int) + 1 + e) - ((m'.log2 : Int) + 1 + e') - 53) (-1074)) := ⟨_, rfl⟩
  obtain ⟨k, hk⟩ := Int.eq_ofNat_of_zero_le (show 0 ≤ e - e' - t by omega)
  have hmq : (0 : ℚ) < m' := by exact_mod_cast hm'
  refine ⟨m * 2 ^ k, t, ?_, ?_, ?_⟩
  · have hcount : (e - e' - t).toNat = k := by omega
    rw [← Nat.shiftLeft_eq, ← hcount, ht]
    rfl
  · have he : e = t + k + e' := by omega
    push_cast
    rw [he, zpow_add₀ two_ne_zero, zpow_add₀ two_ne_zero, zpow_natCast]
    field_simp
  · rcases le_or_gt t (-1074) with hle | hgt
    · exact .inl hle
    refine .inr ((Nat.le_div_iff_mul_le hm').2 ?_)
    have hwide : 52 + (m'.log2 + 1) ≤ m.log2 + k := by omega
    calc 2 ^ 52 * m' ≤ 2 ^ 52 * 2 ^ (m'.log2 + 1) := Nat.mul_le_mul_left _ Nat.lt_log2_self.le
      _ = 2 ^ (52 + (m'.log2 + 1)) := (pow_add 2 _ _).symm
      _ ≤ 2 ^ (m.log2 + k) := Nat.pow_le_pow_right two_pos hwide
      _ = 2 ^ m.log2 * 2 ^ k := pow_add 2 _ _
      _ ≤ m * 2 ^ k := Nat.mul_le_mul_right _ (Nat.log2_self_le hm.ne')

section

variable {x y : Float} (hx : unsignedBits x < infinityBits) (hy : unsignedBits y < infinityBits)
include hx hy

/-- **A product is rounded to the nearest float.** -/
theorem isNearest_mul : isNegative (x * y) = (isNegative x ^^ isNegative y) ∧
    IsNearest (magnitude (unsignedBits x) * magnitude (unsignedBits y)) (unsignedBits (x * y)) := by
  have hmul : x * y = ofParts (UnpackedFloat.mul .binary64 x.toModel.unpack y.toModel.unpack) := rfl
  rw [hmul, ← minus_signOf x, ← minus_signOf y, ← minus_mul]
  rcases unpack_cases hx with ⟨hx0, hux⟩ | ⟨m, e, hm, hux, hvalue, he, hfull⟩
  · have hprod : UnpackedFloat.mul .binary64 x.toModel.unpack y.toModel.unpack =
        .zero (signOf x.toBits.toNat * signOf y.toBits.toNat) := by
      rcases unpack_cases hy with ⟨-, huy⟩ | ⟨m', e', hm', huy, -⟩ <;> rw [hux, huy] <;> rfl
    rw [hprod, hx0, magnitude_zero, zero_mul]
    exact isNearest_ofParts_zero _
  rcases unpack_cases hy with ⟨hy0, huy⟩ | ⟨m', e', hm', huy, hvalue', he', hfull'⟩
  · have hprod : UnpackedFloat.mul .binary64 x.toModel.unpack y.toModel.unpack =
        .zero (signOf x.toBits.toNat * signOf y.toBits.toNat) := by
      rw [hux, huy]
      rfl
    rw [hprod, hy0, magnitude_zero, mul_zero]
    exact isNearest_ofParts_zero _
  · have hbits : e + e' ≤ -1074 ∨ 2 ^ 52 ≤ m * m' := by
      rcases hfull with h | h
      · rcases hfull' with h' | h'
        · exact .inl (by omega)
        · exact .inr (h'.trans (Nat.le_mul_of_pos_left m' hm))
      · exact .inr (h.trans (Nat.le_mul_of_pos_right m hm'))
    have hround := isNearest_roundWithAccuracy (signOf x.toBits.toNat * signOf y.toBits.toNat)
      (represents_exact (m * m')) hbits
    have hproduct : ((m * m' : Nat) : ℚ) * 2 ^ (e + e') =
        magnitude (unsignedBits x) * magnitude (unsignedBits y) := by
      rw [hvalue, hvalue', zpow_add₀ two_ne_zero]
      push_cast
      ring
    rw [hproduct] at hround
    rw [hux, huy]
    exact hround

/-- **A quotient is rounded to the nearest float.** -/
theorem isNearest_div (hpos : 0 < unsignedBits y) : isNegative (x / y) = (isNegative x ^^ isNegative y) ∧
    IsNearest (magnitude (unsignedBits x) / magnitude (unsignedBits y)) (unsignedBits (x / y)) := by
  have hdiv : x / y = ofParts (UnpackedFloat.div .binary64 x.toModel.unpack y.toModel.unpack) := rfl
  rw [hdiv, ← minus_signOf x, ← minus_signOf y, ← minus_div]
  rcases unpack_cases hy with ⟨hy0, -⟩ | ⟨m', e', hm', huy, hvalue', he', hfull'⟩
  · omega
  rcases unpack_cases hx with ⟨hx0, hux⟩ | ⟨m, e, hm, hux, hvalue, he, hfull⟩
  · have hquot : UnpackedFloat.div .binary64 x.toModel.unpack y.toModel.unpack =
        .zero (signOf x.toBits.toNat / signOf y.toBits.toNat) := by
      rw [hux, huy]
      rfl
    rw [hquot, hx0, magnitude_zero, zero_div]
    exact isNearest_ofParts_zero _
  · obtain ⟨n, t, hcore, hvalues, hbits⟩ := exists_divCore hm hm' e e'
    have hround := isNearest_roundWithAccuracy (signOf x.toBits.toNat / signOf y.toBits.toNat)
      (represents_div n hm') hbits
    rw [hvalues, ← hvalue, ← hvalue'] at hround
    have hquot : UnpackedFloat.div .binary64 x.toModel.unpack y.toModel.unpack =
        UnpackedFloat.roundWithAccuracy .binary64 (signOf x.toBits.toNat / signOf y.toBits.toNat)
          (n / m') t (UnpackedFloat.accuracyOfFraction (n % m') m') := by
      rw [hux, huy]
      simp only [UnpackedFloat.div, hcore]
    rw [hquot]
    exact hround

end

end LSystem.Binary64
