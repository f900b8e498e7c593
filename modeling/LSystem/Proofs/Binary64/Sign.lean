import LSystem.Proofs.Binary64.Order
import LSystem.Binary64.Circular
set_option autoImplicit false

/-! # Arithmetic under a change of sign

Rounding to nearest prefers no sign, so sums, differences and products of floats whose signs have been
changed are those of the floats with a changed sign. This is true of the bits but for one thing: a sum that
vanishes is `+0` either way. So floats are compared up to the sign of zero (`Signed`), and where a choice by
rank begins with `+0` the bits are the same all the same (`choose_congr`). -/

namespace LSystem.Binary64

open Float.Model (UnpackedFloat Format)
open Float.Model.UnpackedFloat (Sign)

/-! ## Signs -/

theorem positive_mul (s : Sign) : .positive * s = s := by
  cases s <;> rfl

theorem negative_mul (s : Sign) : .negative * s = -s := by
  cases s <;> rfl

theorem mul_neg_sign (s t : Sign) : s * -t = -(s * t) := by
  cases s <;> cases t <;> rfl

theorem mul_mul_mul_comm_sign (s t u v : Sign) : s * t * (u * v) = s * u * (t * v) := by
  cases s <;> cases t <;> cases u <;> cases v <;> rfl

theorem beq_mul_sign (s t u : Sign) : (s * t == s * u) = (t == u) := by
  cases s <;> cases t <;> cases u <;> rfl

theorem apply_mul_sign (s t : Sign) (n : Int) : (s * t).apply n = s.apply (t.apply n) := by
  cases s <;> cases t
  · exact (Int.neg_neg n).symm
  all_goals rfl

theorem apply_neg_sign (s : Sign) (n : Int) : (-s).apply n = -s.apply n := by
  cases s
  · exact (Int.neg_neg n).symm
  · rfl

theorem apply_add_sign (s : Sign) (m n : Int) : s.apply (m + n) = s.apply m + s.apply n := by
  cases s
  · exact Int.neg_add
  · rfl

theorem ofBitVec_toBitVec (s : Sign) : Sign.ofBitVec s.toBitVec = s := by
  cases s <;> rfl

theorem unpackSign_packComponents (s : Sign) (exponent : BitVec 11) (mantissa : BitVec 52) :
    @UnpackedFloat.unpackSign .binary64
      (UnpackedFloat.packComponents .binary64 s exponent mantissa) = s.toBitVec := by
  have hexponent := exponent.isLt
  have hmantissa := mantissa.isLt
  rw [← BitVec.toNat_inj, toNat_unpackSign, toNat_packComponents]
  omega

/-! ## Unpacked floats -/

section Normalize

variable (spec : Format) {n : Int} (e : Int) (z : Sign)

theorem normalize_of_neg (hn : n < 0) :
    UnpackedFloat.normalize spec n e z = .round spec .negative (-n).toNat e := by
  rw [UnpackedFloat.normalize, compare_lt_iff_lt.2 hn]

theorem normalize_of_pos (hn : 0 < n) :
    UnpackedFloat.normalize spec n e z = .round spec .positive n.toNat e := by
  rw [UnpackedFloat.normalize, compare_gt_iff_gt.2 hn]

end Normalize

/-- To subtract is to add what has the other sign. -/
theorem sub_eq_add_neg_parts (spec : Format) (u v : UnpackedFloat) :
    UnpackedFloat.sub spec u v = UnpackedFloat.add spec u v.neg := by
  cases u <;> cases v <;> try rfl
  simp only [UnpackedFloat.neg, UnpackedFloat.sub, UnpackedFloat.add, apply_neg_sign,
    Int.sub_eq_add_neg]

/-- The second of two unpacked floats is the first one times a sign. Zeros are not told apart, and what is
    no number goes with its like. -/
inductive SignedParts (s : Sign) : UnpackedFloat → UnpackedFloat → Prop
  | notANumber : SignedParts s .notANumber .notANumber
  | infinity {t t' : Sign} (h : t' = s * t) : SignedParts s (.infinity t) (.infinity t')
  | zero (t t' : Sign) : SignedParts s (.zero t) (.zero t')
  | finite {t t' : Sign} (h : t' = s * t) (m : Nat) (e : Int) (hm : 0 < m) :
      SignedParts s (.finite t m e hm) (.finite t' m e hm)

namespace SignedParts

variable {s t : Sign} {a b c d : UnpackedFloat}

theorem refl (u : UnpackedFloat) : SignedParts .positive u u := by
  cases u with
  | notANumber => exact .notANumber
  | infinity t => exact .infinity (positive_mul t).symm
  | zero t => exact .zero t t
  | finite t m e hm => exact .finite (positive_mul t).symm m e hm

theorem neg_right (u : UnpackedFloat) : SignedParts .negative u u.neg := by
  cases u with
  | notANumber => exact .notANumber
  | infinity t => exact .infinity (negative_mul t).symm
  | zero t => exact .zero t (-t)
  | finite t m e hm => exact .finite (negative_mul t).symm m e hm

theorem neg (h : SignedParts s a b) : SignedParts s a.neg b.neg := by
  cases h with
  | notANumber => exact .notANumber
  | infinity h => exact .infinity (by rw [h, mul_neg_sign])
  | zero t t' => exact .zero (-t) (-t')
  | finite h m e hm => exact .finite (by rw [h, mul_neg_sign]) m e hm

/-! ### Rounding -/

/-- Rounding looks at the magnitude alone. -/
theorem roundWithAccuracy (spec : Format) {t t' : Sign} (h : t' = s * t) (m : Nat) (e : Int)
    (accuracy : UnpackedFloat.Accuracy) :
    SignedParts s (.roundWithAccuracy spec t m e accuracy)
      (.roundWithAccuracy spec t' m e accuracy) := by
  unfold UnpackedFloat.roundWithAccuracy
  dsimp only
  split
  · exact .zero t t'
  · exact .finite h _ _ _

theorem round (spec : Format) {t t' : Sign} (h : t' = s * t) (m : Nat) (e : Int) :
    SignedParts s (.round spec t m e) (.round spec t' m e) :=
  roundWithAccuracy spec h _ _ .exact

theorem normalize (spec : Format) (s : Sign) (n e : Int) (z z' : Sign) :
    SignedParts s (.normalize spec n e z) (.normalize spec (s.apply n) e z') := by
  rcases lt_trichotomy n 0 with hn | rfl | hn
  · rw [normalize_of_neg spec e z hn]
    cases s
    · rw [Sign.apply, normalize_of_pos spec e z' (Int.neg_pos_of_neg hn)]
      exact round spec rfl _ e
    · rw [Sign.apply, normalize_of_neg spec e z' hn]
      exact round spec rfl _ e
  · cases s <;> exact .zero z z'
  · rw [normalize_of_pos spec e z hn]
    cases s
    · rw [Sign.apply, normalize_of_neg spec e z' (Int.neg_neg_of_pos hn), Int.neg_neg]
      exact round spec rfl _ e
    · rw [Sign.apply, normalize_of_pos spec e z' hn]
      exact round spec rfl _ e

/-! ### Products and sums -/

theorem mul (spec : Format) (hab : SignedParts s a b) (hcd : SignedParts t c d) :
    SignedParts (s * t) (.mul spec a c) (.mul spec b d) := by
  have hsign : ∀ {u u' v v' : Sign}, u' = s * u → v' = t * v → u' * v' = s * t * (u * v) := by
    rintro u _ v _ rfl rfl
    exact mul_mul_mul_comm_sign s u t v
  cases hab with
  | notANumber => exact .notANumber
  | infinity h =>
    cases hcd with
    | notANumber => exact .notANumber
    | infinity h' => exact .infinity (hsign h h')
    | zero t t' => exact .notANumber
    | finite h' m e hm => exact .infinity (hsign h h')
  | zero u u' =>
    cases hcd with
    | notANumber => exact .notANumber
    | infinity h' => exact .notANumber
    | zero v v' => exact .zero (u * v) (u' * v')
    | finite h' m e hm => exact .zero _ _
  | finite h m e hm =>
    cases hcd with
    | notANumber => exact .notANumber
    | infinity h' => exact .infinity (hsign h h')
    | zero v v' => exact .zero _ _
    | finite h' m' e' hm' => exact roundWithAccuracy spec (hsign h h') _ _ .exact

theorem add (spec : Format) (hab : SignedParts s a b) (hcd : SignedParts s c d) :
    SignedParts s (.add spec a c) (.add spec b d) := by
  cases hab with
  | notANumber => exact .notANumber
  | @infinity u u' h =>
    cases hcd with
    | notANumber => exact .notANumber
    | @infinity v v' h' =>
      subst h h'
      simp only [UnpackedFloat.add, beq_mul_sign]
      split
      · exact .infinity rfl
      · exact .notANumber
    | zero t t' => exact .infinity h
    | finite h' m e hm => exact .infinity h
  | zero u u' =>
    cases hcd with
    | notANumber => exact .notANumber
    | infinity h' => exact .infinity h'
    | zero v v' =>
      simp only [UnpackedFloat.add]
      split <;> split <;> exact .zero _ _
    | finite h' m e hm => exact .finite h' m e hm
  | finite h m e hm =>
    cases hcd with
    | notANumber => exact .notANumber
    | infinity h' => exact .infinity h'
    | zero v v' => exact .finite h m e hm
    | finite h' m' e' hm' =>
      subst h h'
      simp only [UnpackedFloat.add, apply_mul_sign, ← apply_add_sign]
      exact normalize spec s _ _ _ _

theorem sub (spec : Format) (hab : SignedParts s a b) (hcd : SignedParts s c d) :
    SignedParts s (.sub spec a c) (.sub spec b d) := by
  rw [sub_eq_add_neg_parts, sub_eq_add_neg_parts]
  exact hab.add spec hcd.neg

/-! ### Packing -/

/-- A sign is packed apart from everything else. -/
theorem unpack_packComponents {t t' : Sign} (h : t' = s * t) (exponent : BitVec 11)
    (mantissa : BitVec 52) :
    SignedParts s (.unpack .binary64 (UnpackedFloat.packComponents .binary64 t exponent mantissa))
      (.unpack .binary64 (UnpackedFloat.packComponents .binary64 t' exponent mantissa)) := by
  simp only [UnpackedFloat.unpack, UnpackedFloat.unpackExponent_packComponents,
    UnpackedFloat.unpackMantissa_packComponents, unpackSign_packComponents, ofBitVec_toBitVec]
  split_ifs
  · exact .infinity h
  · exact .notANumber
  · exact .zero t t'
  · exact .finite h _ _ _
  · exact .finite h _ _ _

theorem unpack_pack (h : SignedParts s a b) :
    SignedParts s (.unpack .binary64 (UnpackedFloat.pack .binary64 a))
      (.unpack .binary64 (UnpackedFloat.pack .binary64 b)) := by
  cases h with
  | notANumber => exact .notANumber
  | infinity h => exact unpack_packComponents h _ _
  | zero t t' =>
    have hzero : ∀ u : Sign,
        UnpackedFloat.unpack .binary64 (UnpackedFloat.pack .binary64 (.zero u)) = .zero u := by
      intro u
      cases u <;> rfl
    rw [hzero, hzero]
    exact .zero t t'
  | finite h m e hm =>
    unfold UnpackedFloat.pack
    dsimp only
    split_ifs <;> exact unpack_packComponents h _ _

theorem rank_eq {i j : Option Int} (h : SignedParts s a b) (hi : IsRankOf i a) (hj : IsRankOf j b) :
    j = i.map s.apply := by
  cases h with
  | notANumber =>
    obtain rfl := hi
    exact hj
  | infinity h =>
    obtain rfl := hi
    rw [hj, h, apply_mul_sign]
    rfl
  | zero t t' =>
    obtain rfl := hi
    rw [hj]
    cases s <;> rfl
  | finite h m e hm =>
    obtain ⟨rfl, -⟩ := hi
    rw [hj.1, h, apply_mul_sign]
    rfl

end SignedParts

/-! ## Floats -/

/-- The second of two floats is, as a number, the first one times a sign; NaN goes with NaN. -/
def Signed (s : Sign) (a b : Float) : Prop := SignedParts s a.toModel.unpack b.toModel.unpack

theorem ofParts_unpack (a : Float) : ofParts a.toModel.unpack = a := Float.ofBits_toBits a

namespace Signed

variable {s t : Sign} {a b c d : Float}

theorem refl (a : Float) : Signed .positive a a := SignedParts.refl _

theorem zero (s : Sign) : Signed s 0 0 := SignedParts.zero .positive .positive

theorem ofParts {u v : UnpackedFloat} (h : SignedParts s u v) :
    Signed s (Binary64.ofParts u) (Binary64.ofParts v) :=
  h.unpack_pack

theorem neg_right (a : Float) : Signed .negative a (-a) := by
  have h := ofParts (SignedParts.neg_right a.toModel.unpack)
  rwa [ofParts_unpack] at h

theorem add (hab : Signed s a b) (hcd : Signed s c d) : Signed s (a + c) (b + d) :=
  ofParts (SignedParts.add .binary64 hab hcd)

theorem sub (hab : Signed s a b) (hcd : Signed s c d) : Signed s (a - c) (b - d) :=
  ofParts (SignedParts.sub .binary64 hab hcd)

theorem mul (hab : Signed s a b) (hcd : Signed t c d) : Signed (s * t) (a * c) (b * d) :=
  ofParts (SignedParts.mul .binary64 hab hcd)

/-- With the other sign a number stands on the other side of zero. -/
theorem rank_eq (h : Signed s a b) : rank b = (rank a).map s.apply :=
  SignedParts.rank_eq h (isRankOf_unpack a) (isRankOf_unpack b)

/-- What is not zero is told by its number. -/
theorem eq (h : Signed .positive a b) (ha : rank a ≠ some 0) : a = b := by
  have hrank := isRankOf_unpack a
  have hparts : a.toModel.unpack = b.toModel.unpack := by
    unfold Signed at h
    generalize a.toModel.unpack = u, b.toModel.unpack = v at h hrank
    cases h with
    | notANumber => rfl
    | infinity h => rw [h, positive_mul]
    | zero t t' => exact absurd hrank ha
    | finite h m e hm => rw [h, positive_mul]
  rw [← ofParts_unpack a, hparts, ofParts_unpack]

/-- Two floats that are the same number times a sign are equal as numbers. -/
theorem beq (hb : Signed s a b) (hc : Signed s a c) (ha : ¬ a.isNaN) : (b == c) = true := by
  obtain ⟨i, hi⟩ := exists_rank_of_not_isNaN ha
  rw [← same_eq_beq, same, hb.rank_eq, hc.rank_eq, hi]
  exact beq_self_eq_true _

end Signed

/-! ## Choosing by rank -/

/-- The float whose rank comes strictly first by `r`, the first one if neither does, or the one that has a
    rank. -/
def choose (r : Int → Int → Prop) [DecidableRel r] (a b : Float) : Float :=
  match rank a, rank b with
  | none, _ => b
  | _, none => a
  | some i, some j => if r j i then b else a

theorem lesser_eq_choose : lesser = choose (· < ·) := rfl

theorem greater_eq_choose : greater = choose (· > ·) := rfl

section Choose

variable {r q : Int → Int → Prop} [DecidableRel r] [DecidableRel q] {s : Sign} {a b c d : Float}

/-- Where the order of the ranks is turned with the signs, the same one is chosen. -/
theorem Signed.choose (hq : ∀ i j, q (s.apply i) (s.apply j) ↔ r i j) (hab : Signed s a b)
    (hcd : Signed s c d) : Signed s (choose r a c) (Binary64.choose q b d) := by
  unfold Binary64.choose
  rw [hab.rank_eq, hcd.rank_eq]
  cases rank a with
  | none => exact hcd
  | some i =>
    cases rank c with
    | none => exact hab
    | some j =>
      simp only [Option.map_some, hq]
      split
      · exact hcd
      · exact hab

/-- Beginning with a rank that does not come after that of zero, the same bits are chosen whichever zero is
    offered. -/
theorem choose_congr {i : Int} (ha : rank a = some i) (hi : ¬ r 0 i) (hcd : Signed .positive c d) :
    choose r a c = choose r a d := by
  have hrank : rank d = rank c := hcd.rank_eq.trans Option.map_id'
  unfold choose
  rw [ha, hrank]
  cases hc : rank c with
  | none => rfl
  | some j =>
    dsimp only
    split_ifs with hji
    · refine hcd.eq fun hzero => ?_
      obtain rfl := Option.some.inj (hc.symm.trans hzero)
      exact hi hji
    · rfl

/-- What is chosen then does not come after zero either. -/
theorem rank_choose {i : Int} (htrans : ∀ {i j k}, r i j → r j k → r i k) (ha : rank a = some i)
    (hi : ¬ r 0 i) (c : Float) : ∃ j, rank (choose r a c) = some j ∧ ¬ r 0 j := by
  unfold choose
  rw [ha]
  cases hc : rank c with
  | none => exact ⟨i, ha, hi⟩
  | some j =>
    dsimp only
    split_ifs with hji
    · exact ⟨j, hc, fun hj => hi (htrans hj hji)⟩
    · exact ⟨i, ha, hi⟩

end Choose

/-! ## Sine and cosine -/

theorem neg_eq_self {a : Float} (h : a.toModel.unpack = .notANumber) : -a = a := by
  show ofParts a.toModel.unpack.neg = a
  rw [h]
  exact (congrArg ofParts h).symm.trans (ofParts_unpack a)

theorem unpack_eq_notANumber {a : Float} (h : infinityBits < unsignedBits a) :
    a.toModel.unpack = .notANumber := by
  rw [← (isRankOf_unpack a).eq_none_iff, rank_eq, if_pos h]

/-- Changing the sign twice changes no bit. -/
theorem neg_neg (a : Float) : - -a = a := by
  by_cases ha : unsignedBits a ≤ infinityBits
  · obtain ⟨hsign, hbits⟩ := bits_neg ha
    obtain ⟨hsign', hbits'⟩ := bits_neg (hbits.trans_le ha)
    exact eq_of_unsignedBits (by rw [hsign', hsign, Bool.not_not]) (by rw [hbits', hbits])
  · have hnan := neg_eq_self (unpack_eq_notANumber (Nat.lt_of_not_le ha))
    rw [hnan, hnan]

/-- What the other sign stands for. -/
def Value.neg : Value → Value
  | .nan => .nan
  | .infinite negative => .infinite !negative
  | .finite negative m e => .finite (!negative) m e

/-- What a float stands for is read off its sign and the other bits. -/
theorem decode_eq (a : Float) :
    decode a =
      if unsignedBits a / 2 ^ 52 = 2047 then
        if unsignedBits a % 2 ^ 52 = 0 then .infinite (isNegative a) else .nan
      else if unsignedBits a / 2 ^ 52 = 0 then .finite (isNegative a) (unsignedBits a % 2 ^ 52) (-1074)
      else .finite (isNegative a) (2 ^ 52 + unsignedBits a % 2 ^ 52)
        ((unsignedBits a / 2 ^ 52 : Nat) - 1075) := by
  have hfield : a.toBits.toNat / 2 ^ 52 % 2 ^ 11 = unsignedBits a / 2 ^ 52 := by
    unfold unsignedBits
    omega
  have hfraction : a.toBits.toNat % 2 ^ 52 = unsignedBits a % 2 ^ 52 := by
    unfold unsignedBits
    omega
  unfold decode
  simp only [twoTo, Nat.pow_eq, hfield, hfraction]
  rfl

theorem decode_neg (a : Float) : decode (-a) = (decode a).neg := by
  by_cases ha : unsignedBits a ≤ infinityBits
  · obtain ⟨hsign, hbits⟩ := bits_neg ha
    rw [decode_eq, decode_eq, hsign, hbits]
    split_ifs <;> rfl
  · have hnan : decode a = .nan := by
      unfold infinityBits at ha
      have hlt : unsignedBits a < 2 ^ 63 := Nat.mod_lt _ (Nat.two_pow_pos 63)
      rw [decode_eq, if_pos (by omega), if_neg (by omega)]
    rw [neg_eq_self (unpack_eq_notANumber (Nat.lt_of_not_le ha)), hnan]
    rfl

/-- The sine is odd and the cosine is even, bit for bit. -/
theorem sineCosine_neg (a : Float) : sineCosine (-a) = (-(sineCosine a).1, (sineCosine a).2) := by
  unfold sineCosine
  rw [decode_neg]
  have hnan : (0.0 / 0.0 : Float) = -(0.0 / 0.0) := by decide +kernel
  cases decode a with
  | nan => exact congrArg (Prod.mk · _) hnan
  | infinite negative => exact congrArg (Prod.mk · _) hnan
  | finite negative m e =>
    cases m with
    | zero =>
      have hzero : nearest (!negative) 0 1 = -nearest negative 0 1 := by
        cases negative <;> decide +kernel
      exact congrArg (Prod.mk · _) hzero
    | succ m =>
      cases negative with
      | true => exact congrArg (Prod.mk · _) (neg_neg _).symm
      | false => rfl

end LSystem.Binary64
