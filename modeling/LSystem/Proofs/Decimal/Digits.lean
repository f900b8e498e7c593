import LSystem.Proofs.Binary64.Spacing
import LSystem.Proofs.Decimal.Shortest
set_option autoImplicit false

/-! # Seventeen digits are enough

The search for the shortest decimal tries 1, 2, … up to 17 digits. It starts at the right power of ten
(`decade_spec`), and on the grid of 17 digits the nearer neighbour of a float is closer to it than half the
way to any other float, because `10 ^ 16` exceeds `2 ^ 53`. So the search succeeds, and the digits fit
64 bits (`digits_shortest_le`). -/

namespace LSystem.Decimal

open Binary64

/-! ## The power of ten -/

/-- The power of ten that is searched for is found within the steps that it lies away. -/
theorem decade_spec {num den : Nat} (hden : 0 < den) (fuel : Nat) {k : Int}
    (hlow : (10 : ℚ) ^ (k - 1) ≤ num / den) (hhigh : (num / den : ℚ) < 10 ^ (k + fuel)) :
    (10 : ℚ) ^ (decade num den fuel k - 1) ≤ num / den ∧
      (num / den : ℚ) < 10 ^ decade num den fuel k := by
  induction fuel generalizing k with
  | zero => exact ⟨hlow, by simpa [decade] using hhigh⟩
  | succ fuel ih =>
    obtain ⟨hd, hvalue⟩ := quotient_spec ⟨1, k⟩
    have hdq : (0 : ℚ) < (quotient ⟨1, k⟩).2 := by exact_mod_cast hd
    have hdenq : (0 : ℚ) < den := by exact_mod_cast hden
    have hpower : (10 : ℚ) ^ k = (quotient ⟨1, k⟩).1 / (quotient ⟨1, k⟩).2 := by simp [hvalue, value]
    have hless : num * (quotient ⟨1, k⟩).2 < (quotient ⟨1, k⟩).1 * den ↔ (num / den : ℚ) < 10 ^ k := by
      rw [hpower, div_lt_div_iff₀ hdenq hdq]
      exact_mod_cast Iff.rfl
    unfold decade
    dsimp only
    split_ifs with h
    · exact ⟨hlow, hless.1 h⟩
    · refine ih ?_ ?_
      · rw [add_sub_cancel_right]
        exact not_lt.1 (mt hless.2 h)
      · rwa [show k + 1 + fuel = k + (fuel + 1 : Nat) by push_cast; ring]

/-- On the whole range of the floats 0.30103 will do for the logarithm of 2. -/
theorem powers_above : ∀ n < 1100, 10 ^ (n * 30103 / 100000) ≤ 10 * 2 ^ n ∧
    2 ^ (n + 2) ≤ 10 ^ (n * 30103 / 100000 + 5) := by
  decide +kernel

theorem powers_below : ∀ n < 1100, 2 ^ n ≤ 10 ^ ((n * 30103 + 99999) / 100000 + 1) ∧
    4 * 10 ^ ((n * 30103 + 99999) / 100000) ≤ 10 ^ 5 * 2 ^ n := by
  decide +kernel

theorem powers_between {t : Int} (hlow : -1100 < t) (hhigh : t < 1100) :
    (10 : ℚ) ^ (t * 30103 / 100000 - 1) ≤ 2 ^ t ∧ (2 : ℚ) ^ (t + 2) ≤ 10 ^ (t * 30103 / 100000 + 5) := by
  rcases le_or_gt 0 t with hpos | hneg
  · obtain ⟨n, rfl⟩ := Int.eq_ofNat_of_zero_le hpos
    obtain ⟨hleft, hright⟩ := powers_above n (by omega)
    obtain ⟨a, ha⟩ : ∃ a, a = n * 30103 / 100000 := ⟨_, rfl⟩
    rw [show (n : Int) * 30103 / 100000 = a by omega]
    rw [← ha] at hleft hright
    constructor
    · rw [zpow_sub_one₀ (by norm_num), ← div_eq_mul_inv, div_le_iff₀' (by norm_num)]
      exact_mod_cast hleft
    · exact_mod_cast hright
  · obtain ⟨n, hn⟩ := Int.eq_ofNat_of_zero_le (show 0 ≤ -t by omega)
    obtain ⟨hleft, hright⟩ := powers_below n (by omega)
    obtain ⟨a, ha⟩ : ∃ a, a = (n * 30103 + 99999) / 100000 := ⟨_, rfl⟩
    rw [show t * 30103 / 100000 = -a by omega, show t = -n by omega]
    rw [← ha] at hleft hright
    constructor
    · rw [show (-a - 1 : Int) = -(a + 1 : Nat) by push_cast; ring, zpow_neg, zpow_neg, zpow_natCast,
        zpow_natCast]
      refine inv_anti₀ (by positivity) ?_
      exact_mod_cast hleft
    · rw [zpow_add₀ two_ne_zero, zpow_add₀ (by norm_num), zpow_neg, zpow_neg, zpow_natCast, zpow_natCast,
        ← div_eq_inv_mul, ← div_eq_inv_mul, div_le_div_iff₀ (by positivity) (by positivity)]
      exact_mod_cast hright

/-! ## The grid -/

theorem overPower_spec (num : Nat) {den : Nat} (hden : 0 < den) (g : Int) :
    0 < (overPower num den g).2 ∧
      ((overPower num den g).1 / (overPower num den g).2 : ℚ) = num / den / 10 ^ g := by
  unfold overPower
  split_ifs with hg
  · obtain ⟨n, rfl⟩ := Int.eq_ofNat_of_zero_le hg
    refine ⟨Nat.mul_pos hden (Nat.pow_pos (by norm_num)), ?_⟩
    simp [div_div]
  · obtain ⟨n, hn⟩ := Int.eq_ofNat_of_zero_le (show 0 ≤ -g by omega)
    obtain rfl : g = -n := by omega
    refine ⟨hden, ?_⟩
    simp
    ring

theorem roundQuotient_le (num den : Nat) : roundQuotient num den ≤ num / den + 1 := by
  unfold roundQuotient
  dsimp only
  split_ifs <;> omega

section Grid

variable {bits num den : Nat} {g k : Int} (hden : 0 < den)
include hden

/-- A number below `10 ^ (g + n)` has at most `n` digits on the grid of `10 ^ g`. -/
theorem digits_le_of_neighbour? {d : Decimal} {n : Nat} (hlt : (num / den : ℚ) < 10 ^ (g + n))
    (h : neighbour? bits num den g = some d) : d.digits ≤ 10 ^ n := by
  obtain ⟨hd, hratio⟩ := overPower_spec num hden g
  have hdq : (0 : ℚ) < (overPower num den g).2 := by exact_mod_cast hd
  have hpower : (0 : ℚ) < 10 ^ g := by positivity
  have hfloor : (overPower num den g).1 / (overPower num den g).2 < 10 ^ n := by
    rw [Nat.div_lt_iff_lt_mul hd]
    have hless : (num / den / 10 ^ g : ℚ) < 10 ^ n := by
      rw [div_lt_iff₀ hpower, ← zpow_natCast, ← zpow_add₀ (by norm_num), add_comm]
      exact hlt
    rw [← hratio, div_lt_iff₀ hdq] at hless
    exact_mod_cast hless
  have hround := roundQuotient_le (overPower num den g).1 (overPower num den g).2
  unfold neighbour? at h
  dsimp only at h
  split_ifs at h <;> obtain rfl := Option.some.inj h <;> dsimp only <;> omega

theorem digits_le_of_search {d : Decimal} {fuel used : Nat} (hlt : (num / den : ℚ) < 10 ^ k)
    (h : search bits num den k fuel used = some d) : d.digits ≤ 10 ^ (used + fuel) := by
  fun_induction search bits num den k fuel used with
  | case1 => cases h
  | case2 fuel used d' hd' =>
    obtain rfl := Option.some.inj h
    have hlt' : (num / den : ℚ) < 10 ^ (k - (used + 1) + (used + 1 : Nat)) := by
      rwa [show k - (used + 1) + (used + 1 : Nat) = k by push_cast; ring]
    exact (digits_le_of_neighbour? hden hlt' hd').trans (Nat.pow_le_pow_right (by norm_num) (by omega))
  | case3 fuel used hnone ih =>
    rw [show used + (fuel + 1) = used + 1 + fuel by ring]
    exact ih h

/-- On a grid of 17 digits one of the neighbours of a float reads back as this float. -/
theorem neighbour?_ne_none (hbits : bits ≤ infinityBits) (hvalue : (num / den : ℚ) = magnitude bits)
    (hg : (10 : ℚ) ^ (g + 16) ≤ num / den) : neighbour? bits num den g ≠ none := by
  obtain ⟨hd, hratio⟩ := overPower_spec num hden g
  have hdq : (0 : ℚ) < (overPower num den g).2 := by exact_mod_cast hd
  have hpower : (0 : ℚ) < 10 ^ g := by positivity
  obtain ⟨n, hn⟩ : ∃ n, n = (overPower num den g).1 / (overPower num den g).2 := ⟨_, rfl⟩
  -- the number lies between the two neighbours, so it is within half a step of one of them
  have hlow : (n : ℚ) * 10 ^ g ≤ magnitude bits := by
    rw [← hvalue, ← le_div_iff₀ hpower, ← hratio, le_div_iff₀ hdq, hn]
    exact_mod_cast Nat.div_mul_le_self _ _
  have hhigh : magnitude bits < (n + 1 : Nat) * 10 ^ g := by
    rw [← hvalue, ← div_lt_iff₀ hpower, ← hratio, div_lt_iff₀ hdq, hn]
    rw [← Nat.cast_mul, mul_comm]
    exact_mod_cast Nat.lt_mul_div_succ _ hd
  have hstep : (10 : ℚ) ^ 16 * 10 ^ g ≤ magnitude bits := by
    rw [← hvalue, ← zpow_natCast, ← zpow_add₀ (by norm_num), add_comm]
    exact hg
  have hclose (d : Decimal) (h : 2 * |d.value - magnitude bits| ≤ 10 ^ g) : d.roundedBits = bits := by
    refine d.isNearest_roundedBits.unique (IsNearest.of_close hbits ?_)
    nlinarith
  intro hnone
  unfold neighbour? at hnone
  dsimp only at hnone
  rw [← hn] at hnone
  have hsucc : ((n + 1 : Nat) : ℚ) * 10 ^ g = n * 10 ^ g + 10 ^ g := by
    push_cast
    ring
  rcases le_total (2 * (magnitude bits - n * 10 ^ g)) (10 ^ g) with hle | hge
  · have hbelow : roundedBits ⟨n, g⟩ = bits := by
      refine hclose ⟨n, g⟩ ?_
      rw [value, abs_sub_comm, abs_of_nonneg (sub_nonneg.2 hlow)]
      exact hle
    simp only [hbelow, if_true] at hnone
    split_ifs at hnone
  · have habove : roundedBits ⟨n + 1, g⟩ = bits := by
      refine hclose ⟨n + 1, g⟩ ?_
      rw [value, abs_of_nonneg (sub_nonneg.2 hhigh.le)]
      linarith
    simp only [habove, if_true] at hnone
    split_ifs at hnone

end Grid

/-! ## The shortest decimal -/

theorem search_ne_none {bits num den : Nat} {k : Int} (fuel used : Nat)
    (h : neighbour? bits num den (k - (used + fuel + 1 : Nat)) ≠ none) :
    search bits num den k (fuel + 1) used ≠ none := by
  induction fuel generalizing used with
  | zero =>
    unfold search
    split
    · simp
    · next hnone => exact absurd (by simpa using hnone) h
  | succ fuel ih =>
    unfold search
    split
    · simp
    · refine ih (used + 1) ?_
      rwa [show used + 1 + fuel + 1 = used + (fuel + 1) + 1 by ring]

theorem digits_trim_le (d : Decimal) : d.trim.digits ≤ d.digits := by
  fun_induction trim d with
  | case1 d h ih => exact ih.trans (Nat.div_le_self _ _)
  | case2 d h => exact le_rfl

/-- The logarithms of numerator and denominator lead to the power of ten next above a float. -/
theorem decade_of_magnitude {num den b : Nat} (hden : 0 < den) (hvalue : (num / den : ℚ) = magnitude b)
    (hpos : 0 < magnitude b) (hb : b < infinityBits) {k : Int}
    (hk : k = decade num den 5 (((num.log2 : Int) - den.log2 - 1) * 30103 / 100000)) :
    (10 : ℚ) ^ (k - 1) ≤ num / den ∧ (num / den : ℚ) < 10 ^ k := by
  have hleast : (2 : ℚ) ^ (-1074 : Int) ≤ magnitude b := by
    have hb0 : b ≠ 0 := by
      rintro rfl
      exact absurd magnitude_zero hpos.ne'
    rw [← magnitude_one]
    exact magnitude_strictMono.monotone (Nat.one_le_iff_ne_zero.2 hb0)
  have hmost : magnitude b < 2 ^ (1024 : Int) := by
    have hlt := magnitude_strictMono hb
    rw [magnitude_infinityBits] at hlt
    exact_mod_cast hlt
  have hnum : num ≠ 0 := by
    rintro rfl
    rw [Nat.cast_zero, zero_div] at hvalue
    exact hpos.ne hvalue
  obtain ⟨hlow, hhigh⟩ := div_between hnum hden.ne'
  obtain ⟨t, ht⟩ : ∃ t, t = (num.log2 : Int) - den.log2 - 1 := ⟨_, rfl⟩
  rw [show (num.log2 : Int) - den.log2 + 1 = t + 2 by omega] at hhigh
  rw [← ht] at hlow hk
  have hbelow : t < 1024 := by
    rw [hvalue] at hlow
    exact (zpow_lt_zpow_iff_right₀ one_lt_two).1 (hlow.trans hmost)
  have habove : -1074 < t + 2 := by
    rw [hvalue] at hhigh
    exact (zpow_lt_zpow_iff_right₀ one_lt_two).1 (hleast.trans_lt hhigh)
  obtain ⟨hstart, hend⟩ := powers_between (show -1100 < t by omega) (show t < 1100 by omega)
  rw [hk]
  exact decade_spec hden 5 (hstart.trans hlow.le) (hhigh.trans_le hend)

/-- **Seventeen digits are enough for every float.** -/
theorem digits_shortest_le {m : Nat} {e : Int} {b : Nat} (hm : m ≠ 0) (hb : b < infinityBits)
    (h : magnitude b = m * 2 ^ e) : (shortest m e).digits ≤ 10 ^ 17 := by
  obtain ⟨hden, hvalue, hbits⟩ := scaleDown_of_magnitude hb.le h
  have hpos : 0 < magnitude b := by
    rw [h]
    positivity
  unfold shortest
  dsimp only
  rw [hbits]
  obtain ⟨k, hk⟩ : ∃ k, k = decade (scaleDown m 1 (-e)).1 (scaleDown m 1 (-e)).2 5
      ((((scaleDown m 1 (-e)).1.log2 : Int) - (scaleDown m 1 (-e)).2.log2 - 1) * 30103 / 100000) := ⟨_, rfl⟩
  obtain ⟨hlow, hhigh⟩ := decade_of_magnitude hden hvalue hpos hb hk
  have hgrid := neighbour?_ne_none hden hb.le hvalue (g := k - 17)
    (by rwa [show k - 17 + 16 = k - 1 by ring])
  obtain ⟨d, hd⟩ := Option.ne_none_iff_exists'.1 (search_ne_none 16 0 hgrid)
  rw [← hk, hd, Option.getD_some]
  exact (digits_trim_le d).trans (digits_le_of_search hden hhigh hd)

end LSystem.Decimal
