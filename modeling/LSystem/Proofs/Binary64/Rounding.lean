import LSystem.Binary64.Basic
import Mathlib
set_option autoImplicit false

/-! # The float nearest to a number

The bits of a float, its sign apart, count the floats from zero upward, so `magnitude` is an increasing
function of them; infinity stands where the next float would be. A number is rounded to the bits whose
magnitude is nearest, and where two are equally near to the even ones. There is only one such choice
(`IsNearest.unique`), and `magnitudeBits` makes it (`isNearest_magnitudeBits`). -/

namespace LSystem.Binary64

/-! ## Magnitudes -/

/-- The number that bits without a sign stand for. -/
def magnitude (bits : Nat) : ℚ :=
  if bits / 2 ^ 52 = 0 then bits * 2 ^ (-1074 : Int)
  else ((2 ^ 52 + bits % 2 ^ 52 : Nat) : ℚ) * 2 ^ ((bits / 2 ^ 52 : Nat) - 1075 : Int)

/-- The bits of infinity, just above those of the largest float. -/
def infinityBits : Nat := 2047 * 2 ^ 52

/-- A significand may have its leading bit in place or, at the least exponent, do without one; at
    `2 ^ 53` it carries. -/
theorem magnitude_parts {k s : Nat} (hs : s ≤ 2 ^ 53) (hk : k = 0 ∨ 2 ^ 52 ≤ s) :
    magnitude (k * 2 ^ 52 + s) = s * 2 ^ (k - 1074 : Int) := by
  unfold magnitude
  rcases Nat.lt_or_ge s (2 ^ 52) with hsmall | hlarge
  · obtain rfl : k = 0 := by omega
    rw [if_pos (by omega)]
    simp
  rcases Nat.lt_or_ge s (2 ^ 53) with hlt | hge
  · have hfield : (k * 2 ^ 52 + s) / 2 ^ 52 = k + 1 := by omega
    have hfraction : 2 ^ 52 + (k * 2 ^ 52 + s) % 2 ^ 52 = s := by omega
    have hexponent : ((k + 1 : Nat) - 1075 : Int) = k - 1074 := by omega
    rw [if_neg (by omega), hfield, hfraction, hexponent]
  · obtain rfl : s = 2 ^ 53 := by omega
    have hfield : (k * 2 ^ 52 + 2 ^ 53) / 2 ^ 52 = k + 2 := by omega
    have hfraction : 2 ^ 52 + (k * 2 ^ 52 + 2 ^ 53) % 2 ^ 52 = 2 ^ 52 := by omega
    have hexponent : ((k + 2 : Nat) - 1075 : Int) = k - 1074 + 1 := by omega
    rw [if_neg (by omega), hfield, hfraction, hexponent, zpow_add_one₀ (by norm_num)]
    push_cast
    ring

/-- Every magnitude has a significand below `2 ^ 53`. -/
theorem exists_parts (b : Nat) :
    ∃ k s : Nat, b = k * 2 ^ 52 + s ∧ s < 2 ^ 53 ∧ (k = 0 ∨ 2 ^ 52 ≤ s) :=
  ⟨b / 2 ^ 52 - 1, b - (b / 2 ^ 52 - 1) * 2 ^ 52, by omega, by omega, by omega⟩

/-- From one magnitude to the next it is one unit of the significand. -/
theorem magnitude_succ {k s : Nat} (hs : s < 2 ^ 53) (hk : k = 0 ∨ 2 ^ 52 ≤ s) :
    magnitude (k * 2 ^ 52 + s + 1) = magnitude (k * 2 ^ 52 + s) + 2 ^ (k - 1074 : Int) := by
  rw [magnitude_parts hs.le hk, add_assoc, magnitude_parts (by omega) (by omega)]
  push_cast
  ring

theorem magnitude_strictMono : StrictMono magnitude := by
  refine strictMono_nat_of_lt_succ fun b => ?_
  obtain ⟨k, s, rfl, hs, hk⟩ := exists_parts b
  rw [magnitude_succ hs hk]
  have : (0 : ℚ) < 2 ^ (k - 1074 : Int) := by positivity
  linarith

@[simp] theorem magnitude_zero : magnitude 0 = 0 := by simp [magnitude]

/-- The least positive float. -/
theorem magnitude_one : magnitude 1 = 2 ^ (-1074 : Int) := by
  norm_num [magnitude]

theorem magnitude_infinityBits : magnitude infinityBits = 2 ^ 1024 := by
  have h := magnitude_parts (k := 2045) (s := 2 ^ 53) (by norm_num) (by norm_num)
  have hbits : 2045 * 2 ^ 52 + 2 ^ 53 = infinityBits := rfl
  have hexponent : ((2045 : Nat) - 1074 : Int) = (971 : Nat) := rfl
  rw [hbits, hexponent, zpow_natCast, Nat.cast_pow, Nat.cast_ofNat, ← pow_add] at h
  exact h

/-! ## The nearest bits -/

/-- The bits without a sign to which a number is rounded. -/
structure IsNearest (q : ℚ) (b : Nat) : Prop where
  le_infinityBits : b ≤ infinityBits
  least : ∀ c ≤ infinityBits, |magnitude b - q| ≤ |magnitude c - q|
  even : ∀ c ≤ infinityBits, c ≠ b → |magnitude b - q| = |magnitude c - q| → b % 2 = 0

/-- A magnitude is nearest to itself. -/
theorem isNearest_magnitude {b : Nat} (hb : b ≤ infinityBits) : IsNearest (magnitude b) b := by
  refine ⟨hb, fun c _ => ?_, fun c _ hne heq => ?_⟩
  · rw [sub_self, abs_zero]
    exact abs_nonneg _
  · rw [sub_self, abs_zero, eq_comm, abs_eq_zero, sub_eq_zero] at heq
    exact absurd (magnitude_strictMono.injective heq) hne

/-- Of two equally near magnitudes with even bits a third one lies between them, and is nearer. -/
theorem IsNearest.unique {q : ℚ} {b c : Nat} (hb : IsNearest q b) (hc : IsNearest q c) : b = c := by
  wlog hlt : b < c generalizing b c with hsymm
  · rcases Nat.lt_or_ge c b with hgt | hge
    · exact (hsymm hc hb hgt).symm
    · omega
  have heq : |magnitude b - q| = |magnitude c - q| :=
    le_antisymm (hb.least c hc.le_infinityBits) (hc.least b hb.le_infinityBits)
  have hbeven := hb.even c hc.le_infinityBits (by omega) heq
  have hceven := hc.even b hb.le_infinityBits (by omega) heq.symm
  have hclose := hb.least (b + 1) (hlt.trans_le hc.le_infinityBits)
  have hleft : magnitude b < magnitude (b + 1) := magnitude_strictMono (by omega)
  have hright : magnitude (b + 1) < magnitude c := magnitude_strictMono (by omega)
  have hmiddle : magnitude b + magnitude c = 2 * q := by
    rcases abs_eq_abs.1 heq with h | h <;> linarith
  have hnearer : |magnitude (b + 1) - q| < q - magnitude b :=
    abs_lt.2 ⟨by linarith, by linarith⟩
  rw [abs_sub_comm, abs_of_nonneg (show 0 ≤ q - magnitude b by linarith)] at hclose
  linarith

/-- Nearest are the bits that a number lies around, between the middles to all lesser and all greater
    ones. -/
theorem isNearest_of_middles {q : ℚ} {b : Nat} (hb : b ≤ infinityBits)
    (hbelow : ∀ c < b, magnitude c + magnitude b ≤ 2 * q)
    (habove : ∀ c > b, c ≤ infinityBits → 2 * q ≤ magnitude b + magnitude c)
    (heven : ∀ c ≤ infinityBits, c ≠ b → magnitude b + magnitude c = 2 * q → b % 2 = 0) :
    IsNearest q b := by
  refine ⟨hb, fun c hc => ?_, fun c hc hne heq => heven c hc hne ?_⟩
  · rcases lt_trichotomy c b with hlt | rfl | hgt
    · have hmono := magnitude_strictMono hlt
      have := hbelow c hlt
      rw [abs_sub_comm (magnitude c), abs_of_nonneg (show 0 ≤ q - magnitude c by linarith)]
      exact abs_le.2 ⟨by linarith, by linarith⟩
    · exact le_rfl
    · have hmono := magnitude_strictMono hgt
      have := habove c hgt hc
      rw [abs_of_nonneg (show 0 ≤ magnitude c - q by linarith)]
      exact abs_le.2 ⟨by linarith, by linarith⟩
  · rcases abs_eq_abs.1 heq with h | h
    · exact absurd (magnitude_strictMono.injective (by linarith)) hne
    · linarith

theorem isNearest_zero {q : ℚ} (h : 2 * q ≤ magnitude 1) : IsNearest q 0 := by
  refine isNearest_of_middles (Nat.zero_le _) (fun c hc => absurd hc (Nat.not_lt_zero c))
    (fun c hc _ => ?_) fun _ _ _ _ => rfl
  have := magnitude_strictMono.monotone (show 1 ≤ c from hc)
  rw [magnitude_zero]
  linarith

theorem isNearest_infinityBits {q : ℚ} (h : magnitude infinityBits ≤ q) :
    IsNearest q infinityBits := by
  refine isNearest_of_middles le_rfl (fun c hc => ?_) (fun c hc hle => absurd hc hle.not_gt)
    fun _ _ _ _ => rfl
  have := magnitude_strictMono hc
  linarith

/-! ## Rounding a significand -/

/-- A number is rounded to the whole number of units at most half a unit away, and to an even one at
    exactly half a unit. -/
structure RoundsTo (unit q : ℚ) (s : Nat) : Prop where
  below : 2 * (s * unit) ≤ 2 * q + unit
  above : 2 * q ≤ 2 * (s * unit) + unit
  even : 2 * (s * unit) = 2 * q + unit ∨ 2 * q = 2 * (s * unit) + unit → s % 2 = 0

theorem RoundsTo.scale {unit q a : ℚ} {s : Nat} (h : RoundsTo unit q s) (ha : 0 < a) :
    RoundsTo (unit * a) (q * a) s := by
  have hs : 2 * (s * (unit * a)) = 2 * (s * unit) * a := by ring
  have hs' : 2 * (s * (unit * a)) + unit * a = (2 * (s * unit) + unit) * a := by ring
  have hq : 2 * (q * a) = 2 * q * a := by ring
  have hq' : 2 * (q * a) + unit * a = (2 * q + unit) * a := by ring
  refine ⟨?_, ?_, fun htie => h.even (htie.imp (fun heq => ?_) fun heq => ?_)⟩
  · rw [hs, hq']
    exact mul_le_mul_of_nonneg_right h.below ha.le
  · rw [hq, hs']
    exact mul_le_mul_of_nonneg_right h.above ha.le
  · rw [hs, hq'] at heq
    exact mul_right_cancel₀ ha.ne' heq
  · rw [hq, hs'] at heq
    exact mul_right_cancel₀ ha.ne' heq

theorem RoundsTo.le_of_lt {unit q : ℚ} {s n : Nat} (h : RoundsTo unit q s) (hunit : 0 < unit)
    (hq : q < n * unit) : s ≤ n := by
  have hlt : ((2 * s : Nat) : ℚ) * unit < (2 * n + 1 : Nat) * unit := by
    push_cast
    linarith [h.below]
  have hdouble : 2 * s < 2 * n + 1 := by exact_mod_cast lt_of_mul_lt_mul_right hlt hunit.le
  omega

theorem RoundsTo.le_of_le {unit q : ℚ} {s n : Nat} (h : RoundsTo unit q s) (hunit : 0 < unit)
    (hq : n * unit ≤ q) : n ≤ s := by
  have hle : ((2 * n : Nat) : ℚ) * unit ≤ (2 * s + 1 : Nat) * unit := by
    push_cast
    linarith [h.above]
  have hdouble : 2 * n ≤ 2 * s + 1 := by exact_mod_cast le_of_mul_le_mul_right hle hunit
  omega

theorem roundsTo_roundQuotient (num : Nat) {den : Nat} (hden : 0 < den) :
    RoundsTo den num (roundQuotient num den) := by
  have hsplit : den * (num / den) + num % den = num := Nat.div_add_mod num den
  have hrest : num % den < den := Nat.mod_lt _ hden
  have h (s : Nat) (hs : s = roundQuotient num den) : 2 * (s * den) ≤ 2 * num + den ∧
      2 * num ≤ 2 * (s * den) + den ∧
      (2 * (s * den) = 2 * num + den ∨ 2 * num = 2 * (s * den) + den → s % 2 = 0) := by
    rw [hs]
    unfold roundQuotient
    generalize num / den = f at *
    generalize num % den = r at *
    subst hsplit
    dsimp only
    split_ifs with hdown
    · rw [Nat.mul_comm f]
      omega
    · rw [Nat.mul_comm (f + 1), Nat.mul_add]
      omega
  obtain ⟨hbelow, habove, heven⟩ := h _ rfl
  exact ⟨by exact_mod_cast hbelow, by exact_mod_cast habove,
    fun htie => heven (by exact_mod_cast htie)⟩

/-- Scaling takes a power of two out of a quotient. -/
theorem scaleDown_spec (num : Nat) {den : Nat} (hden : 0 < den) (e : Int) :
    0 < (scaleDown num den e).2 ∧
      ((scaleDown num den e).1 / (scaleDown num den e).2 : ℚ) = num / den / 2 ^ e := by
  unfold scaleDown
  split_ifs with he
  · obtain ⟨n, rfl⟩ := Int.eq_ofNat_of_zero_le he
    refine ⟨Nat.mul_pos hden (Nat.pow_pos two_pos), ?_⟩
    simp [twoTo, div_div]
  · obtain ⟨n, hn⟩ := Int.eq_ofNat_of_zero_le (show 0 ≤ -e by omega)
    obtain rfl : e = -n := by omega
    refine ⟨hden, ?_⟩
    simp [twoTo]
    ring

section Significand

variable {q : ℚ} {k s c : Nat}

/-- With `k` above 0 the number must not lie below the least full significand, for there the magnitudes
    are closer together. -/
theorem middle_below (hs : s ≤ 2 ^ 53) (hfull : k = 0 ∨ 2 ^ 52 ≤ s)
    (hk : k = 0 ∨ 2 ^ 52 * 2 ^ (k - 1074 : Int) ≤ q) (h : RoundsTo (2 ^ (k - 1074 : Int)) q s)
    (hc : c < k * 2 ^ 52 + s) :
    magnitude c + magnitude (k * 2 ^ 52 + s) ≤ 2 * q ∧
      (magnitude c + magnitude (k * 2 ^ 52 + s) = 2 * q → s % 2 = 0) := by
  have hunit : (0 : ℚ) < 2 ^ (k - 1074 : Int) := by positivity
  have hvalue := magnitude_parts hs hfull
  have hmono := magnitude_strictMono hc
  rcases le_or_gt (magnitude (k * 2 ^ 52 + s)) q with hle | hgt
  · exact ⟨by linarith, fun heq => by linarith⟩
  -- a unit further down there still is a float
  have hroom : k = 0 ∨ 2 ^ 52 < s := by
    refine hk.imp_right fun hq => ?_
    have hlt := hq.trans_lt (hvalue ▸ hgt)
    exact_mod_cast lt_of_mul_lt_mul_right hlt hunit.le
  obtain ⟨r, rfl⟩ : ∃ r, s = r + 1 := ⟨s - 1, by omega⟩
  have hnext := magnitude_succ (k := k) (s := r) (by omega) (by omega)
  have hle : magnitude c ≤ magnitude (k * 2 ^ 52 + r) := magnitude_strictMono.monotone (by omega)
  have hbelow := h.below
  rw [← hvalue, ← add_assoc] at hbelow
  rw [← add_assoc]
  refine ⟨by linarith, fun heq => h.even (.inl ?_)⟩
  rw [← hvalue, ← add_assoc]
  linarith

theorem middle_above (hs : s ≤ 2 ^ 53) (hfull : k = 0 ∨ 2 ^ 52 ≤ s)
    (h : RoundsTo (2 ^ (k - 1074 : Int)) q s) (hc : k * 2 ^ 52 + s < c) :
    2 * q ≤ magnitude (k * 2 ^ 52 + s) + magnitude c ∧
      (magnitude (k * 2 ^ 52 + s) + magnitude c = 2 * q → s % 2 = 0) := by
  have hunit : (0 : ℚ) < 2 ^ (k - 1074 : Int) := by positivity
  have hvalue := magnitude_parts hs hfull
  have hnext : magnitude (k * 2 ^ 52 + s) + 2 ^ (k - 1074 : Int) ≤ magnitude (k * 2 ^ 52 + s + 1) := by
    rcases hs.lt_or_eq with hlt | rfl
    · exact (magnitude_succ hlt hfull).ge
    · have hcarry : k * 2 ^ 52 + 2 ^ 53 = (k + 1) * 2 ^ 52 + 2 ^ 52 := by ring
      have hwider : (2 : ℚ) ^ (k - 1074 : Int) ≤ 2 ^ ((k + 1 : Nat) - 1074 : Int) :=
        zpow_le_zpow_right₀ one_le_two (by omega)
      rw [hcarry, magnitude_succ (by norm_num) (.inr le_rfl)]
      linarith
  have hle : magnitude (k * 2 ^ 52 + s + 1) ≤ magnitude c := magnitude_strictMono.monotone hc
  have habove := h.above
  rw [← hvalue] at habove
  refine ⟨by linarith, fun heq => h.even (.inr ?_)⟩
  rw [← hvalue]
  linarith

/-- A significand rounded once gives the nearest bits. Past the largest float that is infinity. -/
theorem isNearest_of_roundsTo (hs : s ≤ 2 ^ 53) (hk : k = 0 ∨ 2 ^ 52 * 2 ^ (k - 1074 : Int) ≤ q)
    (h : RoundsTo (2 ^ (k - 1074 : Int)) q s) :
    IsNearest q (min (k * 2 ^ 52 + s) infinityBits) := by
  have hfull : k = 0 ∨ 2 ^ 52 ≤ s :=
    hk.imp_right fun hq => h.le_of_le (by positivity) (by exact_mod_cast hq)
  rcases le_or_gt (k * 2 ^ 52 + s) infinityBits with hle | hgt
  · rw [min_eq_left hle]
    refine isNearest_of_middles hle (fun c hc => (middle_below hs hfull hk h hc).1)
      (fun c hc _ => (middle_above hs hfull h hc).1) fun c _ hne heq => ?_
    have heven : s % 2 = 0 := by
      rcases Nat.lt_or_gt_of_ne hne with hlt | hgt
      · exact (middle_below hs hfull hk h hlt).2 (by rw [add_comm, heq])
      · exact (middle_above hs hfull h hgt).2 heq
    omega
  · rw [min_eq_right hgt.le]
    have hmiddle := (middle_below hs hfull hk h hgt).1
    have hmono := magnitude_strictMono hgt
    exact isNearest_infinityBits (by linarith)

end Significand

/-- The binary logarithms of numerator and denominator tell the size of a quotient. -/
theorem div_between {num den : Nat} (hnum : num ≠ 0) (hden : den ≠ 0) :
    (2 : ℚ) ^ (num.log2 - den.log2 - 1 : Int) < num / den ∧
      (num / den : ℚ) < 2 ^ (num.log2 - den.log2 + 1 : Int) := by
  have hd : (0 : ℚ) < den := by exact_mod_cast Nat.pos_of_ne_zero hden
  have hnumlow : (2 : ℚ) ^ (num.log2 : Int) ≤ num := by
    exact_mod_cast Nat.log2_self_le hnum
  have hnumhigh : (num : ℚ) < 2 ^ (num.log2 + 1 : Int) := by
    exact_mod_cast Nat.lt_log2_self (n := num)
  have hdenlow : (2 : ℚ) ^ (den.log2 : Int) ≤ den := by
    exact_mod_cast Nat.log2_self_le hden
  have hdenhigh : (den : ℚ) < 2 ^ (den.log2 + 1 : Int) := by
    exact_mod_cast Nat.lt_log2_self (n := den)
  constructor
  · rw [lt_div_iff₀ hd]
    calc (2 : ℚ) ^ (num.log2 - den.log2 - 1 : Int) * den
        < 2 ^ (num.log2 - den.log2 - 1 : Int) * 2 ^ (den.log2 + 1 : Int) := by gcongr
      _ = 2 ^ (num.log2 : Int) := by
          rw [← zpow_add₀ two_ne_zero]
          congr 1
          ring
      _ ≤ num := hnumlow
  · rw [div_lt_iff₀ hd]
    calc (num : ℚ) < 2 ^ (num.log2 + 1 : Int) := hnumhigh
      _ = 2 ^ (num.log2 - den.log2 + 1 : Int) * 2 ^ (den.log2 : Int) := by
          rw [← zpow_add₀ two_ne_zero]
          congr 1
          ring
      _ ≤ 2 ^ (num.log2 - den.log2 + 1 : Int) * den := by gcongr

/-- Rounding a quotient to whole units of `2 ^ e`. -/
theorem roundsTo_scaleDown (num : Nat) {den : Nat} (hden : 0 < den) (e : Int) :
    RoundsTo (2 ^ e) (num / den)
      (roundQuotient (scaleDown num den e).1 (scaleDown num den e).2) := by
  obtain ⟨hd, hratio⟩ := scaleDown_spec num hden e
  have hdq : (0 : ℚ) < (scaleDown num den e).2 := by exact_mod_cast hd
  have hunit : (0 : ℚ) < 2 ^ e := by positivity
  have h := (roundsTo_roundQuotient (scaleDown num den e).1 hd).scale (div_pos hunit hdq)
  rw [mul_div_cancel₀ _ hdq.ne', mul_div_left_comm, hratio, mul_div_cancel₀ _ hunit.ne'] at h
  exact h

/-- The exponent that leaves a significand of 53 bits, or the least one. -/
def exponentOf (num den : Nat) : Int :=
  let low : Int := max ((num.log2 : Int) - (den.log2 : Int) - 53) (-1074)
  if (scaleDown num den low).1 / (scaleDown num den low).2 < twoTo 53 then low else low + 1

theorem exponentOf_spec {num den : Nat} (hnum : num ≠ 0) (hden : 0 < den) :
    -1074 ≤ exponentOf num den ∧
      (exponentOf num den = -1074 ∨ 2 ^ 52 * 2 ^ exponentOf num den ≤ (num / den : ℚ)) ∧
      (num / den : ℚ) < 2 ^ 53 * 2 ^ exponentOf num den := by
  obtain ⟨hlow, hhigh⟩ := div_between hnum hden.ne'
  unfold exponentOf
  extract_lets low
  obtain ⟨hd, hratio⟩ := scaleDown_spec num hden low
  have hdq : (0 : ℚ) < (scaleDown num den low).2 := by exact_mod_cast hd
  have hunit : (0 : ℚ) < 2 ^ low := by positivity
  have hfloor (m : Nat) : m ≤ (scaleDown num den low).1 / (scaleDown num den low).2 ↔
      m * 2 ^ low ≤ (num / den : ℚ) := by
    rw [Nat.le_div_iff_mul_le hd, ← le_div_iff₀ hunit, ← hratio, le_div_iff₀ hdq]
    exact_mod_cast Iff.rfl
  have hexact : (2 : ℚ) ^ 52 * 2 ^ (low + 1) = (2 ^ 53 : Nat) * 2 ^ low := by
    rw [zpow_add_one₀ two_ne_zero]
    push_cast
    ring
  split_ifs with hfits
  · refine ⟨le_max_right _ _, ?_, ?_⟩
    · rcases max_choice ((num.log2 : Int) - (den.log2 : Int) - 53) (-1074) with h | h
      · refine .inr (le_of_eq_of_le ?_ hlow.le)
        rw [show low = (num.log2 : Int) - (den.log2 : Int) - 53 from h, ← zpow_natCast,
          ← zpow_add₀ two_ne_zero]
        congr 1
        push_cast
        ring
      · exact .inl h
    · have hlt := (hfloor (2 ^ 53)).not.1 (Nat.not_le.2 hfits)
      exact_mod_cast not_le.1 hlt
  · have hle := (hfloor (2 ^ 53)).1 (Nat.not_lt.1 hfits)
    refine ⟨(le_max_right _ _).trans (Int.le_add_one le_rfl), .inr (hexact.trans_le hle), ?_⟩
    calc (num / den : ℚ) < 2 ^ (num.log2 - den.log2 + 1 : Int) := hhigh
      _ ≤ 2 ^ (53 + (low + 1)) := zpow_le_zpow_right₀ one_le_two (by omega)
      _ = 2 ^ 53 * 2 ^ (low + 1) := by
          rw [zpow_add₀ two_ne_zero]
          rfl

/-- **A quotient is rounded to the nearest bits.** -/
theorem isNearest_magnitudeBits (num : Nat) {den : Nat} (hden : 0 < den) :
    IsNearest (num / den) (magnitudeBits num den) := by
  by_cases hnum : num = 0
  · rw [magnitudeBits, if_pos hnum, hnum, Nat.cast_zero, zero_div]
    exact magnitude_zero ▸ isNearest_magnitude (Nat.zero_le _)
  obtain ⟨hleast, hfull, hfits⟩ := exponentOf_spec hnum hden
  have hrounds := roundsTo_scaleDown num hden (exponentOf num den)
  have hbits : magnitudeBits num den = min ((exponentOf num den + 1074).toNat * 2 ^ 52 +
      roundQuotient (scaleDown num den (exponentOf num den)).1
        (scaleDown num den (exponentOf num den)).2) infinityBits := by
    rw [magnitudeBits, if_neg hnum]
    rfl
  obtain ⟨k, hk⟩ := Int.eq_ofNat_of_zero_le (show 0 ≤ exponentOf num den + 1074 by omega)
  have he : exponentOf num den = k - 1074 := by omega
  rw [hbits, hk, Int.toNat_natCast]
  rw [he] at hfull hfits hrounds ⊢
  have hs := hrounds.le_of_lt (n := 2 ^ 53) (by positivity) (by exact_mod_cast hfits)
  exact isNearest_of_roundsTo hs (hfull.imp_left fun h => by omega) hrounds

/-! ## Floats -/

/-- The bits of a float without its sign. -/
def unsignedBits (x : Float) : Nat := x.toBits.toNat % 2 ^ 63

/-- Whether a float has a minus sign. -/
def isNegative (x : Float) : Bool := x.toBits.toNat / 2 ^ 63 == 1

/-- What the parts of a finite float say of its bits. -/
theorem parts_of_decode {x : Float} {negative : Bool} {m : Nat} {e : Int}
    (h : decode x = .finite negative m e) :
    negative = isNegative x ∧ unsignedBits x < infinityBits ∧
      magnitude (unsignedBits x) = m * 2 ^ e := by
  have hlt : x.toBits.toNat < 2 ^ 64 := x.toBits.toBitVec.isLt
  unfold decode at h
  simp only [twoTo, Nat.pow_eq] at h
  have hfield : unsignedBits x / 2 ^ 52 = x.toBits.toNat / 2 ^ 52 % 2 ^ 11 := by
    unfold unsignedBits
    omega
  have hfraction : unsignedBits x % 2 ^ 52 = x.toBits.toNat % 2 ^ 52 := by
    unfold unsignedBits
    omega
  rw [← hfield, ← hfraction] at h
  unfold magnitude infinityBits
  split_ifs at h with hfull hzero hsub
  · obtain ⟨rfl, rfl, rfl⟩ := Value.finite.inj h
    refine ⟨rfl, by omega, ?_⟩
    rw [if_pos hsub, Nat.mod_eq_of_lt (by omega)]
  · obtain ⟨rfl, rfl, rfl⟩ := Value.finite.inj h
    have : unsignedBits x / 2 ^ 52 < 2 ^ 11 := hfield ▸ Nat.mod_lt _ (by norm_num)
    refine ⟨rfl, by omega, ?_⟩
    rw [if_neg hsub]

/-- **Rounding leads to the float whose magnitude is nearest.** -/
theorem nearest_eq {x : Float} {num den : Nat} (hden : 0 < den)
    (h : IsNearest (num / den) (unsignedBits x)) : nearest (isNegative x) num den = x := by
  have hlt : x.toBits.toNat < 2 ^ 64 := x.toBits.toBitVec.isLt
  have hbits : magnitudeBits num den = unsignedBits x := (isNearest_magnitudeBits num hden).unique h
  have hwhole : (if isNegative x then twoTo 63 else 0) + magnitudeBits num den = x.toBits.toNat := by
    rw [hbits, isNegative, unsignedBits]
    simp only [twoTo, Nat.pow_eq, beq_iff_eq]
    split_ifs <;> omega
  rw [nearest, hwhole, UInt64.ofNat_toNat, Float.ofBits_toBits]

end LSystem.Binary64
