import LSystem.Decimal.Shortest
import LSystem.Proofs.Binary64.Rounding
set_option autoImplicit false

/-! # Decimals read back as the float they were made of

A decimal stands for a rational number, and `toFloat` gives the float nearest to it, whatever its
digits (`toFloat_eq`). The decimal that `shortest` makes of a float is one to which this float is nearest
(`isNearest_shortest`): it is either a candidate that was tried, or the exact value. -/

namespace LSystem.Decimal

open Binary64

/-! ## Values -/

/-- The number that a decimal stands for. -/
def value (d : Decimal) : ℚ := d.digits * 10 ^ d.exponent

theorem quotient_spec (d : Decimal) :
    0 < d.quotient.2 ∧ (d.quotient.1 / d.quotient.2 : ℚ) = d.value := by
  obtain ⟨digits, e⟩ := d
  unfold quotient value
  dsimp only
  split_ifs with he
  · obtain ⟨n, rfl⟩ := Int.eq_ofNat_of_zero_le he
    refine ⟨Nat.one_pos, ?_⟩
    simp
  · obtain ⟨n, hn⟩ := Int.eq_ofNat_of_zero_le (show 0 ≤ -e by omega)
    obtain rfl : e = -n := by omega
    refine ⟨Nat.pow_pos (by norm_num), ?_⟩
    simp [div_eq_mul_inv]

theorem isNearest_roundedBits (d : Decimal) : IsNearest d.value d.roundedBits := by
  obtain ⟨hden, hvalue⟩ := d.quotient_spec
  rw [← hvalue]
  exact isNearest_magnitudeBits _ hden

/-- Zero is nearest to nothing but zero. -/
theorem digits_ne_zero {d : Decimal} {b : Nat} (h : IsNearest d.value b) (hb : b ≠ 0) : d.digits ≠ 0 := by
  intro hzero
  rw [value, hzero, Nat.cast_zero, zero_mul, ← magnitude_zero] at h
  exact hb (h.unique (isNearest_magnitude (Nat.zero_le _)))

@[simp] theorem value_trim (d : Decimal) : d.trim.value = d.value := by
  fun_induction trim d with
  | case1 d h ih =>
    have hdigits : (d.digits : ℚ) = (d.digits / 10 : Nat) * 10 := by
      exact_mod_cast (Nat.div_mul_cancel (Nat.dvd_of_mod_eq_zero h.2)).symm
    rw [ih, value, value, hdigits, zpow_add_one₀ (by norm_num)]
    ring
  | case2 d h => rfl

/-! ## The shortest decimal -/

/-- Both neighbours on a grid are tried, so whichever is taken has been tried. -/
theorem roundedBits_of_neighbour? {bits num den : Nat} {g : Int} {d : Decimal}
    (h : neighbour? bits num den g = some d) : d.roundedBits = bits := by
  unfold neighbour? at h
  dsimp only at h
  split_ifs at h with hbelow habove habove
  · obtain rfl := Option.some.inj h
    unfold roundQuotient
    dsimp only
    split_ifs
    · exact hbelow
    · exact habove
  · exact Option.some.inj h ▸ hbelow
  · exact Option.some.inj h ▸ habove

theorem roundedBits_of_search {bits num den : Nat} {k : Int} {fuel used : Nat} {d : Decimal}
    (h : search bits num den k fuel used = some d) : d.roundedBits = bits := by
  fun_induction search bits num den k fuel used with
  | case1 => cases h
  | case2 used fuel d' hd' => exact Option.some.inj h ▸ roundedBits_of_neighbour? hd'
  | case3 used fuel hnone ih => exact ih h

theorem value_exact (m : Nat) (e : Int) : (exact m e).value = m * 2 ^ e := by
  unfold exact value
  split_ifs with he
  · obtain ⟨n, rfl⟩ := Int.eq_ofNat_of_zero_le he
    simp
  · obtain ⟨n, hn⟩ := Int.eq_ofNat_of_zero_le (show 0 ≤ -e by omega)
    obtain rfl : e = -n := by omega
    have hten : (10 : ℚ) ^ n = 5 ^ n * 2 ^ n := by rw [← mul_pow]; norm_num
    simp [hten]
    field_simp

/-- The search starts from a fraction of the magnitude, and from its bits. -/
theorem scaleDown_of_magnitude {m : Nat} {e : Int} {b : Nat} (hb : b ≤ infinityBits)
    (h : magnitude b = m * 2 ^ e) :
    0 < (scaleDown m 1 (-e)).2 ∧
      ((scaleDown m 1 (-e)).1 / (scaleDown m 1 (-e)).2 : ℚ) = magnitude b ∧
      magnitudeBits (scaleDown m 1 (-e)).1 (scaleDown m 1 (-e)).2 = b := by
  obtain ⟨hden, hratio⟩ := scaleDown_spec m Nat.one_pos (-e)
  have hvalue : ((scaleDown m 1 (-e)).1 / (scaleDown m 1 (-e)).2 : ℚ) = magnitude b := by
    rw [hratio, h]
    simp
  have hnear := isNearest_magnitudeBits (scaleDown m 1 (-e)).1 hden
  rw [hvalue] at hnear
  exact ⟨hden, hvalue, hnear.unique (isNearest_magnitude hb)⟩

/-- **The shortest decimal reads back**: the magnitude it was made of is the nearest one. -/
theorem isNearest_shortest {m : Nat} {e : Int} {b : Nat} (hb : b ≤ infinityBits)
    (h : magnitude b = m * 2 ^ e) : IsNearest (shortest m e).value b := by
  obtain ⟨-, -, hbits⟩ := scaleDown_of_magnitude hb h
  unfold shortest
  dsimp only
  rw [value_trim, hbits]
  cases hsearch : search b (scaleDown m 1 (-e)).1 (scaleDown m 1 (-e)).2 _ 17 0 with
  | some d => exact roundedBits_of_search hsearch ▸ d.isNearest_roundedBits
  | none =>
    rw [Option.getD_none, value_exact, ← h]
    exact isNearest_magnitude hb

/-! ## Rounding decimals -/

theorem digits_between {n : Nat} (hn : n ≠ 0) :
    10 ^ ((Nat.toDigits 10 n).length - 1) ≤ n ∧ n < 10 ^ (Nat.toDigits 10 n).length := by
  have hpos : 0 < (Nat.toDigits 10 n).length := Nat.length_toDigits_pos
  refine ⟨?_, (Nat.length_toDigits_le_iff (by norm_num) hpos).1 le_rfl⟩
  rcases Nat.eq_zero_or_pos ((Nat.toDigits 10 n).length - 1) with hone | hmore
  · rw [hone, pow_zero]
    exact Nat.one_le_iff_ne_zero.2 hn
  · by_contra hlt
    have := (Nat.length_toDigits_le_iff (by norm_num) hmore).2 (Nat.not_le.1 hlt)
    omega

/-- The number of digits tells the size of a decimal. -/
theorem value_between {d : Decimal} (hd : d.digits ≠ 0) {size : Int}
    (hsize : size = (Nat.toDigits 10 d.digits).length + d.exponent) :
    10 ^ (size - 1) ≤ d.value ∧ d.value < 10 ^ size := by
  obtain ⟨hlow, hhigh⟩ := digits_between hd
  have hpos : 0 < (Nat.toDigits 10 d.digits).length := Nat.length_toDigits_pos
  have hpower : (0 : ℚ) < 10 ^ d.exponent := by positivity
  have hlast : size - 1 = ((Nat.toDigits 10 d.digits).length - 1 : Nat) + d.exponent := by omega
  constructor
  · rw [hlast, zpow_add₀ (by norm_num), zpow_natCast, value]
    exact mul_le_mul_of_nonneg_right (by exact_mod_cast hlow) hpower.le
  · rw [hsize, zpow_add₀ (by norm_num), zpow_natCast, value]
    exact mul_lt_mul_of_pos_right (by exact_mod_cast hhigh) hpower

theorem cast_twoTo (n : Nat) : ((twoTo n : Nat) : ℚ) = 2 ^ n := by simp

/-- What is too small for a float is nearest to zero. -/
theorem isNearest_zero_of_lt {q : ℚ} (h : q < 10 ^ (-330 : Int)) : IsNearest q 0 := by
  have hpow : 2 * 2 ^ 1074 ≤ 10 ^ 330 := by decide +kernel
  refine isNearest_zero ?_
  calc 2 * q ≤ 2 * 10 ^ (-330 : Int) := by gcongr
    _ ≤ 2 ^ (-1074 : Int) := by
      have hcast : ((2 * 2 ^ 1074 : Nat) : ℚ) ≤ (10 ^ 330 : Nat) := Nat.cast_le.2 hpow
      rw [Nat.cast_mul, Nat.cast_pow, Nat.cast_pow, Nat.cast_ofNat, Nat.cast_ofNat] at hcast
      rw [zpow_neg, zpow_neg, ← div_eq_mul_inv, ← one_div,
        div_le_div_iff₀ (by positivity) (by positivity), one_mul, zpow_ofNat, zpow_ofNat]
      exact hcast
    _ = magnitude 1 := magnitude_one.symm

/-- What is too large for a float is nearest to infinity. -/
theorem isNearest_infinityBits_of_le {q : ℚ} (h : 10 ^ (310 : Int) ≤ q) : IsNearest q infinityBits := by
  have hpow : 2 ^ 1024 ≤ 10 ^ 310 := by decide +kernel
  refine isNearest_infinityBits (le_trans ?_ h)
  rw [magnitude_infinityBits]
  exact_mod_cast hpow

/-- **A decimal is rounded to the float that is nearest to it.** -/
theorem toFloat_eq {d : Decimal} {x : Float} (h : IsNearest d.value (unsignedBits x)) :
    d.toFloat (isNegative x) = x := by
  unfold toFloat
  extract_lets size
  split_ifs with hsmall hlarge
  · have hlt : d.value < 10 ^ (-330 : Int) := by
      rcases eq_or_ne d.digits 0 with hzero | hne
      · rw [value, hzero, Nat.cast_zero, zero_mul]
        positivity
      · have hsize : size < -330 := hsmall.resolve_left hne
        exact (value_between hne rfl).2.trans_le (zpow_le_zpow_right₀ (by norm_num) hsize.le)
    have hbits : unsignedBits x = 0 := h.unique (isNearest_zero_of_lt hlt)
    refine nearest_eq Nat.one_pos ?_
    rw [hbits]
    simpa using isNearest_magnitude (Nat.zero_le infinityBits)
  · have hne : d.digits ≠ 0 := fun hzero => hsmall (.inl hzero)
    have hle : 10 ^ (310 : Int) ≤ d.value :=
      (zpow_le_zpow_right₀ (by norm_num) (by omega)).trans (value_between hne rfl).1
    have hbits : unsignedBits x = infinityBits := h.unique (isNearest_infinityBits_of_le hle)
    have hvalue : magnitude infinityBits = (twoTo 1024 : Nat) / (1 : Nat) := by
      rw [magnitude_infinityBits, Nat.cast_one, div_one, cast_twoTo]
    refine nearest_eq Nat.one_pos ?_
    rw [hbits, ← hvalue]
    exact isNearest_magnitude le_rfl
  · obtain ⟨hden, hvalue⟩ := d.quotient_spec
    exact nearest_eq hden (hvalue ▸ h)

end LSystem.Decimal
