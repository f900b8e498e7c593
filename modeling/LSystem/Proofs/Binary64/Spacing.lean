import LSystem.Proofs.Binary64.Rounding
set_option autoImplicit false

/-! # How densely floats lie

Each float exceeds the one below it by a factor of at least `grain`, and rounding changes a number by no more
than this factor, unless it is very small. So errors are counted in factors of `grain` (`Near`): under products
and quotients the counts add up, and numbers that differ by `n` factors are rounded to floats at most `n + 1`
places apart (`IsNearest.apart`). -/

namespace LSystem.Binary64

/-! ## Factors -/

/-- The least factor from one float to the next. -/
def grain : ℚ := 1 + 1 / 2 ^ 53

theorem grain_pow_pos (n : Nat) : 0 < grain ^ n := pow_pos (by norm_num [grain]) n

theorem one_le_grain : 1 ≤ grain := by norm_num [grain]

/-- Neither number exceeds the other by more than `n` factors. -/
structure Near (n : Nat) (q r : ℚ) : Prop where
  le_mul : r ≤ grain ^ n * q
  mul_ge : q ≤ grain ^ n * r

namespace Near

variable {m n : Nat} {q r q' r' s : ℚ}

theorem refl (q : ℚ) : Near 0 q q := by
  constructor <;> rw [pow_zero, one_mul]

theorem eq (h : Near 0 q r) : q = r := by
  have hle := h.le_mul
  have hge := h.mul_ge
  rw [pow_zero, one_mul] at hle hge
  exact le_antisymm hge hle

theorem trans (h : Near m q r) (h' : Near n r s) : Near (m + n) q s := by
  constructor
  · calc s ≤ grain ^ n * r := h'.le_mul
      _ ≤ grain ^ n * (grain ^ m * q) := mul_le_mul_of_nonneg_left h.le_mul (grain_pow_pos n).le
      _ = grain ^ (m + n) * q := by ring
  · calc q ≤ grain ^ m * r := h.mul_ge
      _ ≤ grain ^ m * (grain ^ n * s) := mul_le_mul_of_nonneg_left h'.mul_ge (grain_pow_pos m).le
      _ = grain ^ (m + n) * s := by ring

theorem mul (h : Near m q r) (h' : Near n q' r') (hq : 0 ≤ q) (hr : 0 ≤ r) (hq' : 0 ≤ q')
    (hr' : 0 ≤ r') : Near (m + n) (q * q') (r * r') := by
  have hm := (grain_pow_pos m).le
  constructor
  · calc r * r' ≤ grain ^ m * q * (grain ^ n * q') :=
          mul_le_mul h.le_mul h'.le_mul hr' (mul_nonneg hm hq)
      _ = grain ^ (m + n) * (q * q') := by ring
  · calc q * q' ≤ grain ^ m * r * (grain ^ n * r') :=
          mul_le_mul h.mul_ge h'.mul_ge hq' (mul_nonneg hm hr)
      _ = grain ^ (m + n) * (r * r') := by ring

theorem inv (h : Near n q r) (hq : 0 < q) (hr : 0 < r) : Near n q⁻¹ r⁻¹ := by
  constructor
  · rw [← div_eq_mul_inv, inv_eq_one_div, div_le_div_iff₀ hr hq, one_mul]
    exact h.mul_ge
  · rw [← div_eq_mul_inv, inv_eq_one_div, div_le_div_iff₀ hq hr, one_mul]
    exact h.le_mul

theorem div (h : Near m q r) (h' : Near n q' r') (hq : 0 ≤ q) (hr : 0 ≤ r) (hq' : 0 < q')
    (hr' : 0 < r') : Near (m + n) (q / q') (r / r') := by
  rw [div_eq_mul_inv, div_eq_mul_inv]
  exact h.mul (h'.inv hq' hr') hq hr (inv_nonneg.2 hq'.le) (inv_nonneg.2 hr'.le)

end Near

/-! ## Neighbours -/

theorem magnitude_nonneg (c : Nat) : 0 ≤ magnitude c := by
  rw [← magnitude_zero]
  exact magnitude_strictMono.monotone (Nat.zero_le c)

theorem grain_mul_le (c : Nat) : grain * magnitude c ≤ magnitude (c + 1) := by
  obtain ⟨k, s, rfl, hs, hk⟩ := exists_parts c
  rw [magnitude_succ hs hk, magnitude_parts hs.le hk, grain, add_mul, one_mul]
  have hle : (s : ℚ) ≤ 2 ^ 53 := by exact_mod_cast hs.le
  have hunit : (0 : ℚ) < 2 ^ (k - 1074 : Int) := by positivity
  have hshare : 1 / 2 ^ 53 * (s * 2 ^ (k - 1074 : Int) : ℚ) ≤ 2 ^ (k - 1074 : Int) := by
    rw [← mul_assoc, one_div_mul_eq_div]
    exact mul_le_of_le_one_left hunit.le ((div_le_one (by norm_num)).2 hle)
  linarith

theorem grain_pow_mul_le (n c : Nat) : grain ^ n * magnitude c ≤ magnitude (c + n) := by
  induction n with
  | zero => simp
  | succ n ih =>
    calc grain ^ (n + 1) * magnitude c = grain * (grain ^ n * magnitude c) := by ring
      _ ≤ grain * magnitude (c + n) := mul_le_mul_of_nonneg_left ih (zero_le_one.trans one_le_grain)
      _ ≤ magnitude (c + n + 1) := grain_mul_le (c + n)

/-- Every number in the range of the floats lies between two neighbours. -/
theorem exists_neighbours {q : ℚ} (hq : 0 ≤ q) (hlt : q < magnitude infinityBits) :
    ∃ c < infinityBits, magnitude c ≤ q ∧ q < magnitude (c + 1) := by
  classical
  obtain ⟨c, hc⟩ : ∃ c, c = Nat.findGreatest (fun c => magnitude c ≤ q) infinityBits := ⟨_, rfl⟩
  have hle : c ≤ infinityBits := hc ▸ Nat.findGreatest_le _
  have hbelow : magnitude c ≤ q := by
    rw [hc]
    refine Nat.findGreatest_spec (P := fun c => magnitude c ≤ q) (Nat.zero_le _) ?_
    rwa [magnitude_zero]
  have hne : c ≠ infinityBits := by
    intro h
    rw [h] at hbelow
    exact absurd hbelow hlt.not_ge
  refine ⟨c, by omega, hbelow, ?_⟩
  exact not_le.1 (Nat.findGreatest_is_greatest (P := fun c => magnitude c ≤ q)
    (n := infinityBits) (by omega) (by omega))

/-! ## Rounding -/

namespace IsNearest

variable {q r : ℚ} {b c : Nat}

theorem le_of_le (h : IsNearest q b) (hc : c ≤ infinityBits) (hq : q ≤ magnitude c) : b ≤ c := by
  by_contra hlt
  have hmono := magnitude_strictMono (Nat.lt_of_not_le hlt)
  have hleast := h.least c hc
  rw [abs_of_nonneg (by linarith), abs_of_nonneg (by linarith)] at hleast
  linarith

theorem ge_of_le (h : IsNearest q b) (hc : c ≤ infinityBits) (hq : magnitude c ≤ q) : c ≤ b := by
  by_contra hlt
  have hmono := magnitude_strictMono (Nat.lt_of_not_le hlt)
  have hleast := h.least c hc
  rw [abs_of_nonpos (by linarith), abs_of_nonpos (by linarith)] at hleast
  linarith

/-- A number lies below the successor of the float that it is rounded to. -/
theorem le_magnitude_succ (h : IsNearest q b) (hb : b < infinityBits) : q ≤ magnitude (b + 1) := by
  by_contra hlt
  have := h.ge_of_le (Nat.succ_le_of_lt hb) (not_le.1 hlt).le
  omega

/-- A number is rounded by at most half the unit of the float below it, which is no greater than the float
    it is rounded to. -/
theorem exists_unit (h : IsNearest q b) (hq : 0 ≤ q) (hlt : q < magnitude infinityBits) :
    ∃ k s : Nat, (k = 0 ∨ 2 ^ 52 ≤ s) ∧ q < magnitude (k * 2 ^ 52 + s + 1) ∧
      s * 2 ^ (k - 1074 : Int) ≤ q ∧ s * 2 ^ (k - 1074 : Int) ≤ magnitude b ∧
      2 * |magnitude b - q| ≤ 2 ^ (k - 1074 : Int) := by
  obtain ⟨c, hc, hbelow, habove⟩ := exists_neighbours hq hlt
  have hbc := magnitude_strictMono.monotone (h.ge_of_le hc.le hbelow)
  have hdown := h.least c hc.le
  have hup := h.least (c + 1) hc
  obtain ⟨k, s, hcs, hs, hk⟩ := exists_parts c
  have hvalue : magnitude c = s * 2 ^ (k - 1074 : Int) := by
    rw [hcs, magnitude_parts hs.le hk]
  have hnext : magnitude (c + 1) = magnitude c + 2 ^ (k - 1074 : Int) := by
    rw [hcs, magnitude_succ hs hk]
  rw [hvalue] at hbelow hbc
  refine ⟨k, s, hk, by rwa [← hcs], hbelow, hbc, ?_⟩
  rw [← hvalue] at hbelow
  rw [abs_sub_comm (magnitude c), abs_of_nonneg (sub_nonneg.2 hbelow)] at hdown
  rw [abs_of_nonneg (sub_nonneg.2 habove.le)] at hup
  linarith

/-- The fewer bits the significand has, the more factors rounding can cost. -/
theorem near {j : Nat} (h : IsNearest q b) (hj : j ≤ 52) (hq : magnitude (2 ^ j) ≤ q)
    (hlt : q < magnitude infinityBits) : Near (2 ^ (52 - j)) q (magnitude b) := by
  obtain ⟨k, s, hk, habove, hsq, hsb, hhalf⟩ := h.exists_unit ((magnitude_nonneg _).trans hq) hlt
  have hjs : 2 ^ j ≤ s := by
    have hpow : 2 ^ j ≤ 2 ^ 52 := Nat.pow_le_pow_right two_pos hj
    by_contra hlt
    have := magnitude_strictMono.monotone (show k * 2 ^ 52 + s + 1 ≤ 2 ^ j by omega)
    linarith
  have hunit : (0 : ℚ) < 2 ^ (k - 1074 : Int) := by positivity
  have hshare : (2 : ℚ) ^ (k - 1074 : Int) ≤ 2 * ((2 ^ (52 - j) : Nat) * (1 / 2 ^ 53)
      * (s * 2 ^ (k - 1074 : Int))) := by
    have hbits : 2 ^ 52 ≤ 2 ^ (52 - j) * s := by
      calc 2 ^ 52 = 2 ^ (52 - j) * 2 ^ j := by rw [← pow_add, Nat.sub_add_cancel hj]
        _ ≤ 2 ^ (52 - j) * s := Nat.mul_le_mul_left _ hjs
    have hbitsq : (2 : ℚ) ^ 52 ≤ (2 ^ (52 - j) : Nat) * s := by exact_mod_cast hbits
    nlinarith
  have hgrain : 1 + (2 ^ (52 - j) : Nat) * (1 / 2 ^ 53) ≤ grain ^ 2 ^ (52 - j) :=
    one_add_mul_le_pow (by norm_num) _
  have hfactor {r r' : ℚ} (hr : 0 ≤ r) (hsr : s * 2 ^ (k - 1074 : Int) ≤ r)
      (hdiff : 2 * (r' - r) ≤ 2 ^ (k - 1074 : Int)) : r' ≤ grain ^ 2 ^ (52 - j) * r := by
    have hscale : (2 ^ (52 - j) : Nat) * (1 / 2 ^ 53) * (s * 2 ^ (k - 1074 : Int) : ℚ) ≤
        (2 ^ (52 - j) : Nat) * (1 / 2 ^ 53) * r := mul_le_mul_of_nonneg_left hsr (by positivity)
    have := mul_le_mul_of_nonneg_right hgrain hr
    linarith
  have hdiff := abs_le.1 (le_refl |magnitude b - q|)
  exact ⟨hfactor ((magnitude_nonneg _).trans hq) hsq (by linarith),
    hfactor (magnitude_nonneg b) hsb (by linarith)⟩

/-- What is closer to a float than half the way to any other is rounded to it. -/
theorem of_close (hb : b ≤ infinityBits) (hclose : 2 * (2 ^ 53 + 1) * |q - magnitude b| < magnitude b) :
    IsNearest q b := by
  have hdiff := abs_le.1 (le_refl |q - magnitude b|)
  have hgrain : grain = 1 + 1 / 2 ^ 53 := rfl
  have hbelow : ∀ c < b, magnitude c + magnitude b < 2 * q := by
    intro c hc
    have hmono := magnitude_strictMono.monotone (show c + 1 ≤ b from hc)
    have hstep := grain_mul_le c
    rw [hgrain] at hstep
    linarith
  have habove : ∀ c > b, 2 * q < magnitude b + magnitude c := by
    intro c hc
    have hmono := magnitude_strictMono.monotone (show b + 1 ≤ c from hc)
    have hstep := grain_mul_le b
    rw [hgrain] at hstep
    linarith
  refine isNearest_of_middles hb (fun c hc => (hbelow c hc).le) (fun c hc _ => (habove c hc).le) ?_
  intro c _ hne htie
  rcases Nat.lt_or_gt_of_ne hne with hlt | hgt
  · linarith [hbelow c hlt]
  · linarith [habove c hgt]

theorem le_add_of_le_mul {n : Nat} (h : IsNearest q b) (h' : IsNearest r c) (hb : b < infinityBits)
    (hqr : r ≤ grain ^ n * q) : c ≤ b + (n + 1) := by
  rcases Nat.lt_or_ge infinityBits (b + (n + 1)) with hgt | hle
  · exact h'.le_infinityBits.trans hgt.le
  refine h'.le_of_le hle ?_
  calc r ≤ grain ^ n * q := hqr
    _ ≤ grain ^ n * magnitude (b + 1) :=
      mul_le_mul_of_nonneg_left (h.le_magnitude_succ hb) (grain_pow_pos n).le
    _ ≤ magnitude (b + 1 + n) := grain_pow_mul_le n (b + 1)
    _ = magnitude (b + (n + 1)) := by rw [Nat.add_assoc, Nat.add_comm 1 n]

/-- **Numbers that differ by few factors are rounded to floats that are few places apart.** -/
theorem apart {n : Nat} (h : IsNearest q b) (h' : IsNearest r c) (hb : b < infinityBits)
    (hqr : Near n q r) : c ≤ b + (n + 1) ∧ b ≤ c + (n + 1) := by
  refine ⟨h.le_add_of_le_mul h' hb hqr.le_mul, ?_⟩
  rcases Nat.lt_or_ge c infinityBits with hlt | hge
  · exact h'.le_add_of_le_mul h hlt hqr.mul_ge
  · omega

end IsNearest

end LSystem.Binary64
