import LSystem.Proofs.Binary64.Arithmetic
import LSystem.Proofs.Binary64.Spacing
set_option autoImplicit false

/-! # Products and quotients of approximate numbers

A float that stands for a number up to some factors (`Approximates`) can be multiplied and divided: the exact
result is off by the factors of both operands together, and is then rounded once. Whole numbers that fit a
significand, and powers of ten up to `10 ^ 22`, are not off at all. -/

namespace LSystem.Binary64

/-- A positive finite float that stands for a number, up to `k` factors. -/
structure Approximates (k : Nat) (q : ℚ) (x : Float) : Prop where
  positive : isNegative x = false
  ne_zero : 0 < unsignedBits x
  finite : unsignedBits x < infinityBits
  near : Near k q (magnitude (unsignedBits x))

theorem Approximates.magnitude_pos {k : Nat} {q : ℚ} {x : Float} (h : Approximates k q x) :
    0 < magnitude (unsignedBits x) := by
  rw [← magnitude_zero]
  exact magnitude_strictMono h.ne_zero

section

variable {k l : Nat} {q r : ℚ} {x y : Float}

/-- A product is rounded from one that is off by the factors of both. -/
theorem Approximates.mul (hx : Approximates k q x) (hy : Approximates l r y) (hq : 0 ≤ q) (hr : 0 ≤ r) :
    isNegative (x * y) = false ∧ ∃ p, Near (k + l) (q * r) p ∧ IsNearest p (unsignedBits (x * y)) := by
  obtain ⟨hsign, hnear⟩ := isNearest_mul hx.finite hy.finite
  refine ⟨?_, _, hx.near.mul hy.near hq hx.magnitude_pos.le hr hy.magnitude_pos.le, hnear⟩
  rw [hsign, hx.positive, hy.positive]
  rfl

/-- A quotient is rounded from one that is off by the factors of both. By no less than one it is finite. -/
theorem Approximates.div (hx : Approximates k q x) (hy : Approximates l r y) (hq : 0 ≤ q) (hr : 0 < r)
    (hone : 1 ≤ magnitude (unsignedBits y)) :
    isNegative (x / y) = false ∧ unsignedBits (x / y) < infinityBits ∧
      ∃ p, Near (k + l) (q / r) p ∧ IsNearest p (unsignedBits (x / y)) := by
  obtain ⟨hsign, hnear⟩ := isNearest_div hx.finite hy.finite hy.ne_zero
  refine ⟨?_, ?_, _, hx.near.div hy.near hq hx.magnitude_pos.le hr hy.magnitude_pos, hnear⟩
  · rw [hsign, hx.positive, hy.positive]
    rfl
  · exact (hnear.le_of_le hx.finite.le (div_le_self hx.magnitude_pos.le hone)).trans_lt hx.finite

end

/-! ## Whole numbers -/

theorem isNearest_ofNat (n : Nat) : IsNearest n (unsignedBits (ofNat n)) := by
  have h := (bits_nearest false n Nat.one_pos).2
  rwa [Nat.cast_one, div_one] at h

/-- The bits of one. -/
def oneBits : Nat := 1023 * 2 ^ 52

theorem magnitude_oneBits : magnitude oneBits = 1 := by
  have h := magnitude_parts (k := 1022) (s := 2 ^ 52) (by norm_num) (.inr le_rfl)
  have hbits : 1022 * 2 ^ 52 + 2 ^ 52 = oneBits := rfl
  rw [hbits] at h
  rw [h]
  norm_num

/-- The largest finite float. -/
theorem magnitude_largest : magnitude (infinityBits - 1) = (2 ^ 53 - 1 : Nat) * 2 ^ 971 := by
  have h := magnitude_parts (k := 2045) (s := 2 ^ 53 - 1) (by norm_num) (.inr (by norm_num))
  have hbits : 2045 * 2 ^ 52 + (2 ^ 53 - 1) = infinityBits - 1 := rfl
  have hexponent : ((2045 : Nat) - 1074 : Int) = (971 : Nat) := rfl
  rw [hbits, hexponent, zpow_natCast] at h
  exact h

theorem approximates_ofNat {n : Nat} (hn : 0 < n) (hle : n ≤ 10 ^ 308) :
    Approximates 1 n (ofNat n) ∧ 1 ≤ magnitude (unsignedBits (ofNat n)) := by
  have hnear := isNearest_ofNat n
  have hone : (1 : ℚ) ≤ n := by exact_mod_cast hn
  have hlarge : (n : ℚ) ≤ magnitude (infinityBits - 1) := by
    have hpow : 10 ^ 308 ≤ (2 ^ 53 - 1) * 2 ^ 971 := by decide +kernel
    rw [magnitude_largest]
    exact_mod_cast hle.trans hpow
  have hbits : oneBits ≤ unsignedBits (ofNat n) := by
    refine hnear.ge_of_le (by decide) ?_
    rwa [magnitude_oneBits]
  have hfinite := hnear.le_of_le (Nat.sub_le _ _) hlarge
  have hinfinity : 0 < infinityBits := by decide
  refine ⟨⟨(bits_nearest false n Nat.one_pos).1, ?_, by omega, ?_⟩, ?_⟩
  · exact lt_of_lt_of_le (by decide) hbits
  · refine hnear.near (j := 52) le_rfl ?_ (hlarge.trans_lt (magnitude_strictMono (by omega)))
    refine le_trans ?_ hone
    rw [← magnitude_oneBits]
    exact magnitude_strictMono.monotone (by decide)
  · rw [← magnitude_oneBits]
    exact magnitude_strictMono.monotone hbits

/-- A significand that fits is met exactly, at any exponent from 0 up to the largest. -/
theorem exists_magnitude_eq {s e : Nat} (hs : 0 < s) (hlt : s < 2 ^ 53) (he : e ≤ 971) :
    ∃ b < infinityBits, magnitude b = s * 2 ^ e := by
  have hlog : s.log2 ≤ 52 := Nat.le_of_lt_succ ((Nat.log2_lt hs.ne').2 hlt)
  obtain ⟨d, hd⟩ : ∃ d, d = 52 - s.log2 := ⟨_, rfl⟩
  have hlow : 2 ^ 52 ≤ s * 2 ^ d := by
    calc 2 ^ 52 = 2 ^ s.log2 * 2 ^ d := by rw [← pow_add]; congr 1; omega
      _ ≤ s * 2 ^ d := Nat.mul_le_mul_right _ (Nat.log2_self_le hs.ne')
  have hhigh : s * 2 ^ d < 2 ^ 53 := by
    calc s * 2 ^ d < 2 ^ (s.log2 + 1) * 2 ^ d := Nat.mul_lt_mul_of_pos_right Nat.lt_log2_self (by positivity)
      _ = 2 ^ 53 := by rw [← pow_add]; congr 1; omega
  obtain ⟨k, hk⟩ : ∃ k, k = 1074 + e - d := ⟨_, rfl⟩
  refine ⟨k * 2 ^ 52 + s * 2 ^ d, ?_, ?_⟩
  · have hle : k * 2 ^ 52 ≤ 2045 * 2 ^ 52 := Nat.mul_le_mul_right _ (by omega)
    unfold infinityBits
    omega
  · rw [magnitude_parts hhigh.le (.inr hlow), show (k - 1074 : Int) = e - d by omega,
      zpow_sub₀ two_ne_zero, zpow_natCast, zpow_natCast]
    push_cast
    field_simp

/-- Such a number is not rounded. -/
theorem magnitude_ofNat {n s e : Nat} (hn : n = s * 2 ^ e) (hs : 0 < s) (hlt : s < 2 ^ 53) (he : e ≤ 971) :
    magnitude (unsignedBits (ofNat n)) = n := by
  obtain ⟨b, hb, hvalue⟩ := exists_magnitude_eq hs hlt he
  have hcast : (n : ℚ) = magnitude b := by
    rw [hvalue, hn]
    push_cast
    rfl
  have hnear := isNearest_ofNat n
  rw [hcast] at hnear ⊢
  rw [hnear.unique (isNearest_magnitude hb.le)]

/-- Powers of ten up to `10 ^ 22` are not rounded. -/
theorem magnitude_ofNat_pow {n : Nat} (hn : n ≤ 22) :
    magnitude (unsignedBits (ofNat (10 ^ n))) = (10 ^ n : Nat) := by
  refine magnitude_ofNat (s := 5 ^ n) (e := n) ?_ (by positivity) ?_ (by omega)
  · rw [← Nat.mul_pow]
  · calc 5 ^ n ≤ 5 ^ 22 := Nat.pow_le_pow_right (by norm_num) hn
      _ < 2 ^ 53 := by norm_num

end LSystem.Binary64
