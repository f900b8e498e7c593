import LSystem.Proofs.Binary64.Approximation
import LSystem.Proofs.Binary64.Order
import LSystem.Proofs.Decimal.Digits
import LSystem.Proofs.Json.Numeral
set_option autoImplicit false

/-! # Numerals read the quick way

The quick reader rounds more than once: the digits, the power of ten, and their product or quotient; below
`10 ^ (-308)` it divides twice. What it makes of the numeral of a float is still at most `places` away from it
(`exists_toFloat?`), and never too large for a finite float. -/

namespace LSystem.Json.Numeral

open Binary64

/-! ## Digits -/

theorem le_ofDigitChars (ds : List Char) (n : Nat) : n ≤ Nat.ofDigitChars 10 ds n := by
  induction ds generalizing n with
  | nil => exact le_rfl
  | cons c cs ih =>
    rw [Nat.ofDigitChars_cons]
    exact le_trans (by omega) (ih _)

/-- While all digits fit they are gathered like any number. -/
theorem gatherWhole_eq {n : Nat} {ds : List Char} (h : Nat.ofDigitChars 10 ds n < 2 ^ 64) :
    gatherWhole n ds = (Nat.ofDigitChars 10 ds n, 0) := by
  induction ds generalizing n with
  | nil => rfl
  | cons c cs ih =>
    have hdigit : n * 10 + digit c = 10 * n + (c.toNat - '0'.toNat) := by rw [digit, Nat.mul_comm]
    rw [Nat.ofDigitChars_cons] at h ⊢
    have hfits : fits n c = true := by
      rw [fits, hdigit]
      exact decide_eq_true ((le_ofDigitChars cs _).trans_lt h)
    rw [gatherWhole, if_pos hfits, hdigit, ih h]

theorem gatherFraction_eq {n : Nat} (p : Int) {ds : List Char} (h : Nat.ofDigitChars 10 ds n < 2 ^ 64) :
    gatherFraction n p ds = (Nat.ofDigitChars 10 ds n, p - ds.length) := by
  induction ds generalizing n p with
  | nil => simp [gatherFraction, Nat.ofDigitChars_nil]
  | cons c cs ih =>
    have hdigit : n * 10 + digit c = 10 * n + (c.toNat - '0'.toNat) := by rw [digit, Nat.mul_comm]
    rw [Nat.ofDigitChars_cons] at h ⊢
    have hfits : fits n c = true := by
      rw [fits, hdigit]
      exact decide_eq_true ((le_ofDigitChars cs _).trans_lt h)
    rw [gatherFraction, if_pos hfits, hdigit, ih _ h, List.length_cons]
    congr 1
    push_cast
    ring

/-- A numeral whose digits fit is read by its digits and its power of ten. -/
theorem toFloat?_eq {n : Numeral} (hdigits : n.toDecimal.digits < 2 ^ 64)
    (hexponent : (n.exponent.getD 0).natAbs < 2 ^ 31) :
    n.toFloat? = (scaled (Binary64.ofNat n.toDecimal.digits) n.toDecimal.exponent 4).map
      fun f => if n.negative then -f else f := by
  have hall : Nat.ofDigitChars 10 n.fraction (Nat.ofDigitChars 10 n.whole 0) < 2 ^ 64 := by
    rwa [← Nat.ofDigitChars_append]
  have hwhole : Nat.ofDigitChars 10 n.whole 0 < 2 ^ 64 := (le_ofDigitChars n.fraction _).trans_lt hall
  have hpower : (0 : Int) - n.fraction.length + n.exponent.getD 0 = n.toDecimal.exponent := by
    rw [toDecimal]
    ring
  unfold toFloat?
  rw [gatherWhole_eq hwhole]
  dsimp only
  rw [gatherFraction_eq 0 hall, ← Nat.ofDigitChars_append]
  dsimp only
  have hsmall : ¬ twoTo 31 ≤ (n.exponent.getD 0).natAbs := Nat.not_le.2 hexponent
  rw [if_neg hsmall, hpower]
  rfl

/-! ## Powers of ten -/

/-- One product or quotient with a power of ten. -/
def shifted (f : Float) (p : Int) : Float :=
  if 0 ≤ p then f * Binary64.ofNat (10 ^ p.natAbs) else f / Binary64.ofNat (10 ^ p.natAbs)

/-- In the middle range that is all. A quotient is always finite. -/
theorem scaled_of_moderate {f : Float} {p : Int} (hp : p.natAbs ≤ 308)
    (hfinite : p < 0 → isFinite (shifted f p) = true) (fuel : Nat) :
    scaled f p (fuel + 1) = if isFinite (shifted f p) then some (shifted f p) else none := by
  have hrange : -308 ≤ p ∧ p ≤ 308 := by omega
  unfold scaled
  rw [if_pos hrange]
  by_cases hpos : 0 ≤ p
  · have hshifted : shifted f p = f * Binary64.ofNat (tenTo p.natAbs) := if_pos hpos
    rw [hshifted]
    exact if_pos hpos
  · have hshifted : shifted f p = f / Binary64.ofNat (tenTo p.natAbs) := if_neg hpos
    rw [if_pos (hfinite (by omega)), hshifted]
    exact if_neg hpos

/-- Far below it is divided once more. -/
theorem scaled_of_small {f : Float} (hf : isNegative f = false) (hne : 0 < unsignedBits f)
    (hfinite : unsignedBits f < infinityBits) {p : Int} (hp : p < -308) (fuel : Nat) :
    scaled f p (fuel + 1) = scaled (f / Binary64.ofNat (tenTo 308)) (p + 308) fuel := by
  have hzero : (f == 0.0) = false := by
    have hrank0 : rank 0.0 = some 0 := by decide +kernel
    rw [← same_eq_beq, same, rank_of_positive hf hfinite.le, hrank0]
    simp
    omega
  rw [scaled, if_neg (by omega), if_neg (by simp [hzero]), if_neg (by omega)]

/-- How many factors the number that is rounded last may be off. -/
theorem near_shifted {k : Nat} {q : ℚ} {f : Float} (hf : Approximates k q f) (hq : 0 < q) {p : Int}
    (hp : p.natAbs ≤ 308) :
    isNegative (shifted f p) = false ∧ (p < 0 → isFinite (shifted f p) = true) ∧
      ∃ r, Near (k + 1) (q * 10 ^ p) r ∧ IsNearest r (unsignedBits (shifted f p)) := by
  obtain ⟨hten, hone⟩ := approximates_ofNat (n := 10 ^ p.natAbs) (by positivity)
    (pow_le_pow_right₀ (by norm_num) hp)
  have htenq : (0 : ℚ) < (10 ^ p.natAbs : Nat) := by exact_mod_cast Nat.pow_pos (by norm_num)
  unfold shifted
  split_ifs with hpos
  · obtain ⟨n, rfl⟩ := Int.eq_ofNat_of_zero_le hpos
    obtain ⟨hsign, r, hnear, hr⟩ := hf.mul hten hq.le htenq.le
    refine ⟨hsign, fun hneg => absurd hneg (by omega), r, ?_, hr⟩
    simpa using hnear
  · obtain ⟨n, hn⟩ := Int.eq_ofNat_of_zero_le (show 0 ≤ -p by omega)
    obtain rfl : p = -n := by omega
    obtain ⟨hsign, hfinite, r, hnear, hr⟩ := hf.div hten hq.le htenq hone
    refine ⟨hsign, fun _ => isFinite_iff.2 hfinite, r, ?_, hr⟩
    simpa [div_eq_mul_inv] using hnear

/-- The factors that the digits `n` and the power of ten `p` may be off before the last rounding: none where
    both are floats, one each where they are rounded, and more where it is divided twice. -/
def factors (n : Nat) (p : Int) : Nat :=
  if n < 2 ^ 53 ∧ p.natAbs ≤ 22 then 0 else if -308 ≤ p then 2 else 7

theorem le_largest {n : Nat} (hn : n < 2 ^ 64) : n ≤ 10 ^ 308 :=
  hn.le.trans (by decide +kernel)

theorem isNearest_shifted {n : Nat} (hn : 0 < n) (hlt : n < 2 ^ 53) {p : Int} (hp : p.natAbs ≤ 22) :
    IsNearest (n * 10 ^ p) (unsignedBits (shifted (Binary64.ofNat n) p)) := by
  have hdigits := (approximates_ofNat hn (le_largest (by omega))).1
  have hten := (approximates_ofNat (n := 10 ^ p.natAbs) (by positivity)
    (pow_le_pow_right₀ (by norm_num) (by omega))).1
  have hvalue : magnitude (unsignedBits (Binary64.ofNat n)) = n :=
    magnitude_ofNat (s := n) (e := 0) (by rw [pow_zero, mul_one]) hn hlt (by omega)
  have hvalue' := magnitude_ofNat_pow hp
  unfold shifted
  split_ifs with hpos
  · have hproduct := (isNearest_mul hdigits.finite hten.finite).2
    obtain ⟨k, rfl⟩ := Int.eq_ofNat_of_zero_le hpos
    rw [hvalue, hvalue'] at hproduct
    simpa using hproduct
  · have hquotient := (isNearest_div hdigits.finite hten.finite hten.ne_zero).2
    obtain ⟨k, hk⟩ := Int.eq_ofNat_of_zero_le (show 0 ≤ -p by omega)
    obtain rfl : p = -k := by omega
    rw [hvalue, hvalue'] at hquotient
    simpa [div_eq_mul_inv] using hquotient

/-- What the first of two divisions leads to is no less than a quarter of the least normal float. -/
theorem magnitude_le_first : grain ^ 2 * magnitude (2 ^ 50) ≤ 1 / 10 ^ 308 := by
  have hvalue : magnitude (2 ^ 50) = 2 ^ 50 * 2 ^ (-1074 : Int) := by
    norm_num [magnitude]
  have hunit : (2 : ℚ) ^ 50 * 2 ^ (-1074 : Int) = 1 / 2 ^ 1024 := by
    rw [← zpow_natCast, ← zpow_add₀ two_ne_zero, one_div, ← zpow_natCast, ← zpow_neg]
    rfl
  have hgrain : grain ^ 2 = (2 ^ 53 + 1) ^ 2 / 2 ^ 106 := by norm_num [grain]
  have hpow : (2 ^ 53 + 1) ^ 2 * 10 ^ 308 ≤ 2 ^ 106 * 2 ^ 1024 := by decide +kernel
  rw [hvalue, hunit, hgrain, div_mul_div_comm, mul_one,
    div_le_div_iff₀ (by positivity) (by positivity), one_mul]
  exact_mod_cast hpow

/-- The first of two divisions may lead below the least normal float, and is less exact there. -/
theorem approximates_first {n : Nat} (hn : 0 < n) (hlt : n < 2 ^ 64) :
    Approximates 6 (n / 10 ^ 308) (Binary64.ofNat n / Binary64.ofNat (tenTo 308)) := by
  have hdigits := (approximates_ofNat hn (le_largest hlt)).1
  obtain ⟨hten, hone⟩ := approximates_ofNat (n := tenTo 308) (by decide +kernel) (by decide +kernel)
  have hcast : ((tenTo 308 : Nat) : ℚ) = 10 ^ 308 := by simp only [tenTo, Nat.pow_eq, Nat.cast_pow, Nat.cast_ofNat]
  have htenq : (0 : ℚ) < (tenTo 308 : Nat) := by
    rw [hcast]
    positivity
  obtain ⟨hsign, hfinite, r, hnear, hr⟩ := hdigits.div hten (Nat.cast_nonneg n) htenq hone
  rw [hcast] at hnear
  have hone' : (1 : ℚ) ≤ n := by exact_mod_cast hn
  have hlarge : (n : ℚ) ≤ 10 ^ 308 := by exact_mod_cast le_largest hlt
  have hleast : magnitude (2 ^ 50) ≤ r := by
    have hscaled : grain ^ 2 * magnitude (2 ^ 50) ≤ grain ^ 2 * r :=
      calc grain ^ 2 * magnitude (2 ^ 50) ≤ 1 / 10 ^ 308 := magnitude_le_first
        _ ≤ n / 10 ^ 308 := div_le_div_of_nonneg_right hone' (by positivity)
        _ ≤ grain ^ 2 * r := hnear.mul_ge
    exact le_of_mul_le_mul_left hscaled (grain_pow_pos 2)
  have hmost : r < magnitude infinityBits := by
    calc r ≤ grain ^ 2 * (n / 10 ^ 308) := hnear.le_mul
      _ ≤ grain ^ 2 * 1 :=
        mul_le_mul_of_nonneg_left (div_le_one_of_le₀ hlarge (by positivity)) (grain_pow_pos 2).le
      _ < 2 ^ 2 := by norm_num [grain]
      _ ≤ 2 ^ 1024 := pow_le_pow_right₀ one_le_two (by norm_num)
      _ = magnitude infinityBits := magnitude_infinityBits.symm
  refine ⟨hsign, ?_, hfinite, hnear.trans (hr.near (j := 50) (by norm_num) hleast hmost)⟩
  exact lt_of_lt_of_le (by norm_num) (hr.ge_of_le (by decide) hleast)

/-- **What digits and a power of ten are read as.** -/
theorem exists_scaled {n : Nat} (hn : 0 < n) (hlt : n < 2 ^ 64) {p : Int} (hlow : -616 ≤ p)
    (hhigh : p ≤ 308) : ∃ x, isNegative x = false ∧
      (∃ r, Near (factors n p) (n * 10 ^ p) r ∧ IsNearest r (unsignedBits x)) ∧
      (p < 0 → isFinite x = true) ∧
      scaled (Binary64.ofNat n) p 4 = if isFinite x then some x else none := by
  have hdigits := (approximates_ofNat hn (le_largest hlt)).1
  have hnq : (0 : ℚ) < n := by exact_mod_cast hn
  rcases le_or_gt (-308) p with hmoderate | hsmall
  · have hp : p.natAbs ≤ 308 := by omega
    obtain ⟨hsign, hfinite, r, hnear, hr⟩ := near_shifted hdigits hnq hp
    refine ⟨_, hsign, ?_, hfinite, scaled_of_moderate hp hfinite 3⟩
    unfold factors
    rw [if_pos hmoderate]
    split_ifs with hexact
    · exact ⟨_, Near.refl _, isNearest_shifted hn hexact.1 hexact.2⟩
    · exact ⟨r, hnear, hr⟩
  · have hp : (p + 308).natAbs ≤ 308 := by omega
    have hfirst := approximates_first hn hlt
    obtain ⟨hsign, hfinite, r, hnear, hr⟩ := near_shifted hfirst (by positivity) hp
    refine ⟨_, hsign, ⟨r, ?_, hr⟩, fun _ => hfinite (by omega), ?_⟩
    · have hvalue : (n / 10 ^ 308 * 10 ^ (p + 308) : ℚ) = n * 10 ^ p := by
        rw [zpow_add₀ (by norm_num)]
        field_simp
      rw [hvalue] at hnear
      unfold factors
      rwa [if_neg (by omega), if_neg (by omega)]
    · rw [scaled_of_small hdigits.positive hdigits.ne_zero hdigits.finite hsmall,
        scaled_of_moderate hp hfinite 2]

/-! ## Numerals of floats -/

theorem exponent_layOut (negative : Bool) (ds : List Char) (e : Int) :
    (layOut negative ds e).exponent = none ∨ (layOut negative ds e).exponent = some (ds.length + e - 1) := by
  unfold layOut
  extract_lets lead
  split_ifs
  · exact .inl rfl
  · exact .inl rfl
  · exact .inl rfl
  · exact .inr rfl

/-- A float lies within the range of powers of ten that the quick reader goes through. -/
theorem exponent_between {d : Decimal} {b : Nat} (hne : d.digits ≠ 0) (hle : d.digits ≤ 10 ^ 17)
    (hnear : IsNearest d.value b) (hpos : 0 < b) (hb : b < infinityBits) :
    -348 ≤ d.exponent ∧ d.exponent ≤ 308 := by
  have hpower : (0 : ℚ) < 10 ^ d.exponent := by positivity
  constructor
  · have hlow : (10 : ℚ) ^ (-330 : Int) ≤ d.value := by
      by_contra hlt
      have hzero := hnear.unique (Decimal.isNearest_zero_of_lt (not_le.1 hlt))
      omega
    have hdigits : (d.digits : ℚ) ≤ 10 ^ (17 : Int) := by exact_mod_cast hle
    have hhigh : d.value ≤ 10 ^ (17 + d.exponent) := by
      rw [Decimal.value, zpow_add₀ (by norm_num)]
      exact mul_le_mul_of_nonneg_right hdigits hpower.le
    have := (zpow_le_zpow_iff_right₀ (by norm_num)).1 (hlow.trans hhigh)
    omega
  · have hdigits : (1 : ℚ) ≤ d.digits := by exact_mod_cast Nat.one_le_iff_ne_zero.2 hne
    have hlow : (10 : ℚ) ^ d.exponent ≤ d.value := le_mul_of_one_le_left hpower.le hdigits
    have hhigh : d.value < 10 ^ (309 : Int) := by
      have hpow : 2 ^ 1024 < 10 ^ 309 := by decide +kernel
      calc d.value ≤ magnitude (b + 1) := hnear.le_magnitude_succ hb
        _ ≤ magnitude infinityBits := magnitude_strictMono.monotone hb
        _ = 2 ^ 1024 := magnitude_infinityBits
        _ < 10 ^ (309 : Int) := by exact_mod_cast hpow
    have := (zpow_lt_zpow_iff_right₀ (by norm_num)).1 (hlow.trans_lt hhigh)
    omega

/-- At most how many places the quick reader is off. -/
def places (d : Decimal) : Nat :=
  if d.digits < 2 ^ 53 ∧ d.exponent.natAbs ≤ 22 then 0 else if -308 ≤ d.exponent then 3 else 8

/-- Two floats of one sign are at most so many places apart. -/
structure Apart (n : Nat) (x y : Float) : Prop where
  sign : isNegative y = isNegative x
  above : unsignedBits y ≤ unsignedBits x + n
  below : unsignedBits x ≤ unsignedBits y + n

theorem Apart.eq {x y : Float} (h : Apart 0 x y) : y = x :=
  eq_of_unsignedBits h.sign (le_antisymm h.above h.below)

/-- Digits and a power of ten are read as a float few places from the nearest one. -/
theorem exists_apart {d : Decimal} (hd : 0 < d.digits) (hlt : d.digits < 2 ^ 64) (hlow : -616 ≤ d.exponent)
    (hhigh : d.exponent ≤ 308) {b : Nat} (hnear : IsNearest d.value b) (hb : b < infinityBits) :
    ∃ x, isNegative x = false ∧ unsignedBits x ≤ b + places d ∧ b ≤ unsignedBits x + places d ∧
      (d.exponent < 0 → isFinite x = true) ∧
      scaled (Binary64.ofNat d.digits) d.exponent 4 = if isFinite x then some x else none := by
  obtain ⟨x, hsign, ⟨r, hr, hround⟩, hfinite, hread⟩ := exists_scaled hd hlt hlow hhigh
  have hplaces : unsignedBits x ≤ b + places d ∧ b ≤ unsignedBits x + places d := by
    have hapart := hnear.apart hround hb hr
    unfold factors at hr hapart
    unfold places
    split_ifs at hr hapart ⊢ with hexact
    · have hvalue : d.value = r := hr.eq
      rw [← hvalue] at hround
      have hsame := hround.unique hnear
      omega
    · exact hapart
    · exact hapart
  exact ⟨x, hsign, hplaces.1, hplaces.2, hfinite, hread⟩

/-- A numeral that the quick reader goes through without a digit, a power of ten or an exponent too large. -/
structure Fits (n : Numeral) : Prop where
  pos : 0 < n.toDecimal.digits
  digits : n.toDecimal.digits < 2 ^ 64
  low : -616 ≤ n.toDecimal.exponent
  high : n.toDecimal.exponent ≤ 308
  exponent : (n.exponent.getD 0).natAbs < 2 ^ 31

theorem fits_layOut (negative : Bool) {d : Decimal} (hne : d.digits ≠ 0) (hle : d.digits ≤ 10 ^ 17)
    (hlow : -348 ≤ d.exponent) (hhigh : d.exponent ≤ 308) :
    (layOut negative (Nat.toDigits 10 d.digits) d.exponent).Fits := by
  have hlength : (Nat.toDigits 10 d.digits).length ≤ 18 :=
    (Nat.length_toDigits_le_iff (by norm_num) (by norm_num)).2 (by omega)
  have hexponent : ((layOut negative (Nat.toDigits 10 d.digits) d.exponent).exponent.getD 0).natAbs
      < 2 ^ 31 := by
    rcases exponent_layOut negative (Nat.toDigits 10 d.digits) d.exponent with h | h
    · rw [h]
      decide
    · rw [h, Option.getD_some]
      omega
  have hdecimal := toDecimal_layOut negative d.digits d.exponent
  split_ifs at hdecimal with hwhole
  · have hdigits : d.digits * 10 ^ (d.exponent.toNat + 1) < 10 ^ 17 :=
      calc d.digits * 10 ^ (d.exponent.toNat + 1)
          < 10 ^ (Nat.toDigits 10 d.digits).length * 10 ^ (d.exponent.toNat + 1) :=
            Nat.mul_lt_mul_of_pos_right (Decimal.digits_between hne).2 (by positivity)
        _ = 10 ^ ((Nat.toDigits 10 d.digits).length + (d.exponent.toNat + 1)) := (pow_add 10 _ _).symm
        _ ≤ 10 ^ 17 := Nat.pow_le_pow_right (by norm_num) (by omega)
    constructor <;> try rw [hdecimal]
    · exact Nat.mul_pos (Nat.pos_of_ne_zero hne) (Nat.pow_pos (by norm_num))
    · exact hdigits.trans (by norm_num)
    · norm_num
    · norm_num
    · exact hexponent
  · constructor <;> try rw [hdecimal]
    · exact Nat.pos_of_ne_zero hne
    · exact lt_of_le_of_lt hle (by norm_num)
    · exact le_trans (by norm_num) hlow
    · exact hhigh
    · exact hexponent

theorem fits_of_ofFloat? {x : Float} (hx : isFinite x = true) (hpos : 0 < unsignedBits x) {n : Numeral}
    (hn : ofFloat? x = some n) : n.Fits := by
  unfold isFinite at hx
  unfold ofFloat? at hn
  split at hx
  · next negative m e hparts =>
    obtain ⟨-, hlt, hvalue⟩ := parts_of_decode hparts
    rw [hparts] at hn
    have hpositive : 0 < magnitude (unsignedBits x) := by
      rw [← magnitude_zero]
      exact magnitude_strictMono hpos
    cases m with
    | zero => simp [hvalue] at hpositive
    | succ k =>
      have hnear := Decimal.isNearest_shortest hlt.le hvalue
      have hle := Decimal.digits_shortest_le (Nat.succ_ne_zero k) hlt hvalue
      have hne := Decimal.digits_ne_zero hnear hpos.ne'
      obtain ⟨hlow, hhigh⟩ := exponent_between hne hle hnear hpos hlt
      obtain rfl := Option.some.inj hn
      exact fits_layOut negative hne hle hlow hhigh
  · cases hx

/-! ## Floats at the ends -/

theorem eq_ofBits (x : Float) :
    x = Float.ofBits (UInt64.ofNat ((if isNegative x then 2 ^ 63 else 0) + unsignedBits x)) := by
  rw [← toBits_toNat_eq, UInt64.ofNat_toNat, Float.ofBits_toBits]

/-- A zero is read as it is. -/
theorem bind_toFloat?_of_zero {x : Float} (hx : unsignedBits x = 0) :
    (ofFloat? x).bind toFloat? = some x := by
  have hbits := eq_ofBits x
  rw [hx] at hbits
  rw [hbits]
  cases isNegative x <;> rfl

theorem isSome_of_largest : ∀ negative : Bool, ∀ i < 3,
    let x := Float.ofBits (UInt64.ofNat ((if negative then 2 ^ 63 else 0) + (infinityBits - 1 - i)))
    ((ofFloat? x).bind toFloat?).isSome = true := by
  decide +kernel

/-- So close to infinity a float is still read. -/
theorem bind_toFloat?_isSome {x : Float} (hx : isFinite x = true) (hlarge : infinityBits ≤ unsignedBits x + 3) :
    ((ofFloat? x).bind toFloat?).isSome = true := by
  have hlt := isFinite_iff.1 hx
  have hsome := isSome_of_largest (isNegative x) (infinityBits - 1 - unsignedBits x) (by omega)
  have hbits : infinityBits - 1 - (infinityBits - 1 - unsignedBits x) = unsignedBits x := by omega
  rw [hbits, ← eq_ofBits] at hsome
  exact hsome

/-! ## Read back -/

/-- A numeral from which whoever rounds once recovers the float. -/
structure Writes (n : Numeral) (x : Float) : Prop where
  wellFormed : n.IsWellFormed
  sign : n.negative = isNegative x
  nearest : IsNearest n.toDecimal.value (unsignedBits x)

/-- The sign is put on last, and changes no other bit. -/
theorem Apart.signed {k : Nat} {x y : Float} (hpositive : isNegative y = false) (hy : isFinite y = true)
    (habove : unsignedBits y ≤ unsignedBits x + k) (hbelow : unsignedBits x ≤ unsignedBits y + k) :
    isFinite (if isNegative x then -y else y) = true ∧ Apart k x (if isNegative x then -y else y) := by
  obtain ⟨hminus, hunsigned⟩ := bits_neg (isFinite_iff.1 hy).le
  split_ifs with hnegative
  · rw [hpositive] at hminus
    refine ⟨isFinite_iff.2 (hunsigned ▸ isFinite_iff.1 hy), hminus.trans hnegative.symm, ?_, ?_⟩
    · rwa [hunsigned]
    · rwa [hunsigned]
  · exact ⟨hy, hpositive.trans (Bool.eq_false_of_not_eq_true hnegative).symm, habove, hbelow⟩

/-- **The numeral of a float is read as one few places off.** -/
theorem exists_toFloat? {x : Float} (hx : isFinite x = true) : ∃ (n : Numeral) (f : Float),
    ofFloat? x = some n ∧ n.Writes x ∧ n.toFloat? = some f ∧ isFinite f = true ∧
      Apart (places n.toDecimal) x f := by
  obtain ⟨n, hn, hwell, hsign, hnear⟩ := exists_ofFloat? hx
  rcases Nat.eq_zero_or_pos (unsignedBits x) with hzero | hpos
  · have hread := bind_toFloat?_of_zero hzero
    rw [hn, Option.bind_some] at hread
    exact ⟨n, x, hn, ⟨hwell, hsign, hnear⟩, hread, hx, rfl, Nat.le_add_right _ _, Nat.le_add_right _ _⟩
  have hfits := fits_of_ofFloat? hx hpos hn
  obtain ⟨y, hpositive, habove, hbelow, hfinite, hscaled⟩ :=
    exists_apart hfits.pos hfits.digits hfits.low hfits.high hnear (isFinite_iff.1 hx)
  have hread := toFloat?_eq hfits.digits hfits.exponent
  rw [hscaled, hsign] at hread
  have hy : isFinite y = true := by
    by_contra hinfinite
    rw [if_neg hinfinite, Option.map_none] at hread
    -- an infinite product is at most three places off, and so close to infinity no float is refused
    have hmoderate : ¬ n.toDecimal.exponent < 0 := mt hfinite hinfinite
    have hplaces : places n.toDecimal ≤ 3 := by
      unfold places
      split_ifs <;> omega
    have hmost : infinityBits ≤ unsignedBits y := not_lt.1 (mt isFinite_iff.2 hinfinite)
    have hsome := bind_toFloat?_isSome hx (by omega)
    rw [hn, Option.bind_some, hread] at hsome
    cases hsome
  rw [if_pos hy, Option.map_some] at hread
  obtain ⟨hfinite', hapart⟩ := Apart.signed hpositive hy habove hbelow
  exact ⟨n, _, hn, ⟨hwell, hsign, hnear⟩, hread, hfinite', hapart⟩

end LSystem.Json.Numeral
