import LSystem.Proofs.Binary64.Rounding
set_option autoImplicit false

/-! # Floats taken apart and put together

To compute with floats their bits are unpacked into a sign, a significand and an exponent, and the parts of
the result are packed into bits again. `IsPartsOf` says which parts belong to which bits: unpacking leads to
them (`isPartsOf_unpack`) and packing leads back (`toNat_pack`). -/

namespace LSystem.Binary64

open Float.Model (UnpackedFloat Format)
open Float.Model.UnpackedFloat (Sign)

/-! ## Fields -/

theorem toNat_unpackMantissa (b : BitVec 64) :
    (@UnpackedFloat.unpackMantissa .binary64 b).toNat = b.toNat % 2 ^ 52 := by
  simp [UnpackedFloat.unpackMantissa, BitVec.extractLsb_toNat]

theorem toNat_unpackExponent (b : BitVec 64) :
    (@UnpackedFloat.unpackExponent .binary64 b).toNat = b.toNat / 2 ^ 52 % 2 ^ 11 := by
  simp [UnpackedFloat.unpackExponent, BitVec.extractLsb_toNat, Nat.shiftRight_eq_div_pow]

theorem toNat_unpackSign (b : BitVec 64) :
    (@UnpackedFloat.unpackSign .binary64 b).toNat = b.toNat / 2 ^ 63 := by
  have h := b.isLt
  simp [UnpackedFloat.unpackSign, BitVec.extractLsb_toNat, Nat.shiftRight_eq_div_pow]
  omega

theorem toNat_packComponents (s : Sign) (exponent : BitVec 11) (mantissa : BitVec 52) :
    (UnpackedFloat.packComponents .binary64 s exponent mantissa).toNat =
      s.toBitVec.toNat * 2 ^ 63 + exponent.toNat * 2 ^ 52 + mantissa.toNat := by
  have hexponent := exponent.isLt
  have hmantissa := mantissa.isLt
  show (s.toBitVec ++ exponent ++ mantissa).toNat = _
  rw [BitVec.toNat_append, BitVec.toNat_append, ← Nat.shiftLeft_add_eq_or_of_lt hmantissa,
    ← Nat.shiftLeft_add_eq_or_of_lt hexponent, Nat.shiftLeft_eq, Nat.shiftLeft_eq]
  omega

/-! ## Parts -/

/-- The sign that bits begin with. -/
def signOf (bits : Nat) : Sign := if bits / 2 ^ 63 = 0 then .positive else .negative

/-- Bits belong to an unpacked float. Without their sign those of a finite one are its place value: the
    leading bit of the significand, where there is one, counts as one more in the exponent. -/
def IsPartsOf (bits : Nat) : UnpackedFloat → Prop
  | .notANumber => infinityBits < bits % 2 ^ 63
  | .infinity s => s = signOf bits ∧ bits % 2 ^ 63 = infinityBits
  | .zero s => s = signOf bits ∧ bits % 2 ^ 63 = 0
  | .finite s m e _ => s = signOf bits ∧ (e + 1074) * 2 ^ 52 + m = (bits % 2 ^ 63 : Nat) ∧
      e ≤ 971 ∧ m < 2 ^ 53 ∧ (e = -1074 ∨ -1074 < e ∧ 2 ^ 52 ≤ m)

theorem isPartsOf_unpack (b : BitVec 64) : IsPartsOf b.toNat (UnpackedFloat.unpack .binary64 b) := by
  have hlt := b.isLt
  have hm := toNat_unpackMantissa b
  have he := toNat_unpackExponent b
  have hs : Sign.ofBitVec (@UnpackedFloat.unpackSign .binary64 b) = signOf b.toNat := by
    simp only [Sign.ofBitVec, signOf, ← BitVec.toNat_inj, toNat_unpackSign]
    rfl
  have hsignificand : (1#1 ++ @UnpackedFloat.unpackMantissa .binary64 b).toNat
      = 2 ^ 52 + b.toNat % 2 ^ 52 := by
    rw [BitVec.toNat_append, hm]
    exact (Nat.two_pow_add_eq_or_of_lt (Nat.mod_lt b.toNat (Nat.two_pow_pos 52)) 1).symm
  have hbias : (Format.binary64.exponentBias : Int) = 1023 := rfl
  have hones : (-1#11).toNat = 2047 := rfl
  have hnone (n : Nat) : (0#n).toNat = 0 := rfl
  have hfields : b.toNat % 2 ^ 63 = b.toNat / 2 ^ 52 % 2 ^ 11 * 2 ^ 52 + b.toNat % 2 ^ 52 := by omega
  have hfield : b.toNat / 2 ^ 52 % 2 ^ 11 < 2048 := Nat.mod_lt _ (by norm_num)
  have hfraction : b.toNat % 2 ^ 52 < 2 ^ 52 := Nat.mod_lt _ (by norm_num)
  simp only [UnpackedFloat.unpack, hs, ← BitVec.toNat_inj, he, hm, hsignificand, hbias, hones, hnone]
  split_ifs with hfull hzero hsub hzero <;> simp only [IsPartsOf, infinityBits, hfields, true_and] <;>
    omega

/-- Packing leads back to the bits. -/
theorem toNat_pack {bits : Nat} (hbits : bits < 2 ^ 64) {u : UnpackedFloat} (h : IsPartsOf bits u)
    (hu : u ≠ .notANumber) : (UnpackedFloat.pack .binary64 u).toNat = bits := by
  have hsign : (signOf bits).toBitVec.toNat = bits / 2 ^ 63 := by
    have hhalf : bits / 2 ^ 63 = 0 ∨ bits / 2 ^ 63 = 1 := by omega
    rcases hhalf with hzero | hone
    · rw [signOf, if_pos hzero, hzero]
      rfl
    · rw [signOf, if_neg (by omega), hone]
      rfl
  cases u with
  | notANumber => exact absurd rfl hu
  | infinity s =>
    obtain ⟨rfl, hinfinity⟩ := h
    show (UnpackedFloat.packComponents .binary64 _ (-1#11) 0#52).toNat = _
    have hones : (-1#11).toNat = 2047 := rfl
    rw [toNat_packComponents, hsign, hones, BitVec.toNat_ofNat]
    unfold infinityBits at hinfinity
    omega
  | zero s =>
    obtain ⟨rfl, hzero⟩ := h
    show (UnpackedFloat.packComponents .binary64 _ 0#11 0#52).toNat = _
    rw [toNat_packComponents, hsign, BitVec.toNat_ofNat, BitVec.toNat_ofNat]
    omega
  | finite s m e hm =>
    obtain ⟨rfl, hplace, he, hlt, hpart⟩ := h
    have hbias : (e + Format.binary64.exponentBias + Format.binary64.mantissaBitsWithoutImplicit).toNat
        = (e + 1075).toNat := by
      show (e + (1023 : Nat) + (52 : Nat)).toNat = _
      omega
    have hlog : m.log2 + 1 = Format.binary64.mantissaBits ↔ 2 ^ 52 ≤ m := by
      show m.log2 + 1 = 53 ↔ _
      constructor
      · intro h
        exact (Nat.le_log2 hm.ne').1 (by omega)
      · intro h
        have hlow := (Nat.le_log2 hm.ne').2 h
        have hhigh := (Nat.log2_lt hm.ne').2 hlt
        omega
    simp only [UnpackedFloat.pack, hbias, hlog]
    rw [if_neg (show ¬ 2 ^ 11 ≤ (e + 1075).toNat + 1 by omega)]
    split_ifs with hnormal
    · rw [toNat_packComponents, hsign, BitVec.toNat_ofNat, BitVec.toNat_ofNat]
      omega
    · rw [toNat_packComponents, hsign, BitVec.toNat_ofNat, BitVec.toNat_ofNat]
      omega

/-! ## Floats -/

/-- The float with the given parts. -/
def ofParts (u : UnpackedFloat) : Float := .ofModel (.pack u)

theorem isPartsOf_toBits (x : Float) : IsPartsOf x.toBits.toNat x.toModel.unpack :=
  isPartsOf_unpack x.toBits.toBitVec

theorem IsPartsOf.ne_notANumber {bits : Nat} {u : UnpackedFloat} (h : IsPartsOf bits u)
    (hle : bits % 2 ^ 63 ≤ infinityBits) : u ≠ .notANumber := by
  rintro rfl
  exact absurd h (Nat.not_lt.2 hle)

theorem toNat_toBits_ofParts {bits : Nat} (hbits : bits < 2 ^ 64) {u : UnpackedFloat}
    (h : IsPartsOf bits u) (hle : bits % 2 ^ 63 ≤ infinityBits) : (ofParts u).toBits.toNat = bits :=
  toNat_pack hbits h (h.ne_notANumber hle)

theorem toNat_toBits_ofBits {n : Nat} (hn : n < 2 ^ 64) (hle : n % 2 ^ 63 ≤ infinityBits) :
    (Float.ofBits (UInt64.ofNat n)).toBits.toNat = n := by
  have hbits : (UInt64.ofNat n).toBitVec.toNat = n := by
    show n % 2 ^ 64 = n
    exact Nat.mod_eq_of_lt hn
  have hparts := isPartsOf_unpack (UInt64.ofNat n).toBitVec
  rw [hbits] at hparts
  exact toNat_toBits_ofParts hn hparts hle

/-- Whether a sign is a minus. -/
def minus : Sign → Bool
  | .negative => true
  | .positive => false

/-- The bit of a sign in front of the others. -/
def signBits (s : Sign) : Nat := if minus s then 2 ^ 63 else 0

section

variable (s : Sign) {n : Nat} (hn : n ≤ infinityBits)
include hn

theorem add_mod_of_le : (signBits s + n) % 2 ^ 63 = n := by
  unfold infinityBits at hn
  cases s <;> simp [signBits, minus] <;> omega

theorem signOf_add : signOf (signBits s + n) = s := by
  unfold infinityBits at hn
  cases s with
  | negative => exact if_neg (show ¬(2 ^ 63 + n) / 2 ^ 63 = 0 by omega)
  | positive => exact if_pos (show (0 + n) / 2 ^ 63 = 0 by omega)

end

/-- Of parts that belong to some bits the float has these. -/
theorem bits_ofParts {s : Sign} {n : Nat} (hn : n ≤ infinityBits) {u : UnpackedFloat}
    (h : IsPartsOf (signBits s + n) u) :
    isNegative (ofParts u) = minus s ∧ unsignedBits (ofParts u) = n := by
  have hmod := add_mod_of_le s hn
  have hlt : signBits s + n < 2 ^ 64 := by
    unfold infinityBits at hn
    cases s <;> simp [signBits, minus] <;> omega
  have hbits := toNat_toBits_ofParts hlt h (hmod.trans_le hn)
  unfold isNegative unsignedBits
  rw [hbits, hmod]
  refine ⟨?_, rfl⟩
  unfold infinityBits at hn
  cases s <;> simp [signBits, minus] <;> omega

/-- Rounding leads to the nearest bits, behind the sign that was asked for. -/
theorem bits_nearest (negative : Bool) (num : Nat) {den : Nat} (hden : 0 < den) :
    isNegative (nearest negative num den) = negative ∧
      IsNearest (num / den) (unsignedBits (nearest negative num den)) := by
  have hnear := isNearest_magnitudeBits num hden
  have hle := hnear.le_infinityBits
  have hinfinity : infinityBits < 2 ^ 63 := by decide
  have hbits : (nearest negative num den).toBits.toNat =
      (if negative then 2 ^ 63 else 0) + magnitudeBits num den := by
    refine toNat_toBits_ofBits ?_ ?_ <;> simp only [twoTo, Nat.pow_eq] <;> split_ifs <;> omega
  have hunsigned : unsignedBits (nearest negative num den) = magnitudeBits num den := by
    rw [unsignedBits, hbits]
    split_ifs <;> omega
  rw [hunsigned]
  refine ⟨?_, hnear⟩
  rw [isNegative, hbits]
  cases negative <;> simp <;> omega

theorem toBits_toNat_eq (x : Float) :
    x.toBits.toNat = (if isNegative x then 2 ^ 63 else 0) + unsignedBits x := by
  have hlt : x.toBits.toNat < 2 ^ 64 := x.toBits.toBitVec.isLt
  simp only [isNegative, unsignedBits, beq_iff_eq]
  split_ifs <;> omega

/-- A float is its sign and its bits without it. -/
theorem eq_of_unsignedBits {x y : Float} (hsign : isNegative x = isNegative y)
    (h : unsignedBits x = unsignedBits y) : x = y := by
  have hbits : x.toBits = y.toBits := by
    rw [← UInt64.toNat_inj, toBits_toNat_eq, toBits_toNat_eq, hsign, h]
  rw [← Float.ofBits_toBits x, hbits, Float.ofBits_toBits]

theorem isFinite_iff {x : Float} : isFinite x = true ↔ unsignedBits x < infinityBits := by
  constructor
  · intro h
    unfold isFinite at h
    split at h
    · next hparts => exact (parts_of_decode hparts).2.1
    · cases h
  · intro h
    have hfield : x.toBits.toNat / 2 ^ 52 % 2 ^ 11 ≠ 2047 := by
      unfold unsignedBits infinityBits at h
      omega
    unfold isFinite decode
    simp only [twoTo, Nat.pow_eq, if_neg hfield]
    split_ifs <;> rfl

theorem minus_signOf (x : Float) : minus (signOf x.toBits.toNat) = isNegative x := by
  have hlt : x.toBits.toNat < 2 ^ 64 := x.toBits.toBitVec.isLt
  unfold signOf isNegative
  split_ifs with h
  · rw [h]
    rfl
  · rw [show x.toBits.toNat / 2 ^ 63 = 1 by omega]
    rfl

/-- Changing the sign leaves everything else. -/
theorem bits_neg {x : Float} (hx : unsignedBits x ≤ infinityBits) :
    isNegative (-x) = !isNegative x ∧ unsignedBits (-x) = unsignedBits x := by
  have hparts := isPartsOf_toBits x
  have hneg : IsPartsOf (signBits (-signOf x.toBits.toNat) + unsignedBits x) x.toModel.unpack.neg := by
    cases hu : x.toModel.unpack with
    | notANumber => exact absurd hu (hparts.ne_notANumber hx)
    | _ =>
      rw [hu] at hparts
      obtain ⟨rfl, hrest⟩ := hparts
      simp only [UnpackedFloat.neg, IsPartsOf, signOf_add _ hx, add_mod_of_le _ hx, true_and]
      exact hrest
  obtain ⟨hsign, hbits⟩ := bits_ofParts hx hneg
  refine ⟨hsign.trans ?_, hbits⟩
  rw [← minus_signOf]
  cases signOf x.toBits.toNat <;> rfl

end LSystem.Binary64
