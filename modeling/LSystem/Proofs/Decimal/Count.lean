import LSystem.Decimal.Count
import Mathlib.Data.List.Induction
import Mathlib.Data.Nat.Digits.Defs
set_option autoImplicit false

/-! # Which texts write a count

The reader of counts takes exactly the texts that consist of decimal digits, one at least, with a plus
sign in front or without, and whose value fits 64 bits (`count?_eq_some_iff`). The value is that of the
digits in positional notation, so nothing is ever cut down. -/

namespace LSystem.Decimal

/-- The value of decimal digits, the last of which counts ones. -/
def positional (digits : List Char) : Nat :=
  Nat.ofDigits 10 (digits.reverse.map fun c => c.toNat - '0'.toNat)

/-- The characters are decimal digits, one at least, and `n` is their value. -/
structure AreDigitsOf (digits : List Char) (n : Nat) : Prop where
  nonempty : digits ≠ []
  decimal : ∀ c ∈ digits, '0' ≤ c ∧ c ≤ '9'
  value : positional digits = n

/-- The text consists of decimal digits of value `n`, with a plus sign in front or without. -/
def Writes (text : String) (n : Nat) : Prop :=
  ∃ digits : List Char, AreDigitsOf digits n ∧
    (text.toList = digits ∨ text.toList = '+' :: digits)

theorem isDigit_iff {c : Char} : c.isDigit = true ↔ '0' ≤ c ∧ c ≤ '9' := by
  rw [Char.isDigit, Bool.and_eq_true, decide_eq_true_eq, decide_eq_true_eq]
  rfl

theorem ofDigitChars_eq_positional (digits : List Char) :
    Nat.ofDigitChars 10 digits 0 = positional digits := by
  induction digits using List.reverseRecOn with
  | nil => rfl
  | append_singleton digits c ih =>
    have hlast : positional (digits ++ [c]) = (c.toNat - '0'.toNat) + 10 * positional digits := by
      rw [positional, List.reverse_append, List.reverse_singleton, List.singleton_append,
        List.map_cons, Nat.ofDigits_cons, positional]
    rw [Nat.ofDigitChars_append, ih, Nat.ofDigitChars_cons, Nat.ofDigitChars_nil, hlast, Nat.add_comm]

theorem digits?_eq_some_iff {digits : List Char} {n : Nat} :
    digits? digits = some n ↔ AreDigitsOf digits n := by
  rw [digits?, ofDigitChars_eq_positional]
  constructor
  · intro h
    split_ifs at h with hbad
    simp only [Bool.or_eq_true, List.isEmpty_iff, Bool.not_eq_true', not_or,
      Bool.not_eq_false, List.all_eq_true] at hbad
    exact ⟨hbad.1, fun c hc => isDigit_iff.1 (hbad.2 c hc), Option.some.inj h⟩
  · rintro ⟨hne, hall, rfl⟩
    rw [if_neg]
    simp only [Bool.or_eq_true, List.isEmpty_iff, Bool.not_eq_true', not_or,
      Bool.not_eq_false, List.all_eq_true]
    exact ⟨hne, fun c hc => isDigit_iff.2 (hall c hc)⟩

/-- Behind a plus sign the digits have to follow. -/
theorem writes_of_plus {text : String} {s : List Char} (h : text.toList = '+' :: s) {n : Nat} :
    Writes text n ↔ AreDigitsOf s n := by
  constructor
  · rintro ⟨digits, hdigits, hplain | hsigned⟩
    · -- a plus sign is no digit
      have hplus := hdigits.decimal '+' (by rw [← hplain, h]; exact List.mem_cons_self)
      exact absurd hplus (by decide)
    · rw [h] at hsigned
      rwa [(List.cons.inj hsigned).2]
  · intro hdigits
    exact ⟨s, hdigits, .inr h⟩

theorem writes_of_not_plus {text : String} (h : ∀ s, text.toList ≠ '+' :: s) {n : Nat} :
    Writes text n ↔ AreDigitsOf text.toList n := by
  constructor
  · rintro ⟨digits, hdigits, rfl | hsigned⟩
    · exact hdigits
    · exact absurd hsigned (h digits)
  · intro hdigits
    exact ⟨text.toList, hdigits, .inl rfl⟩

/-- **A text is read as a count exactly when it writes one that fits.** -/
theorem count?_eq_some_iff {text : String} {n : Nat} :
    count? text = some n ↔ Writes text n ∧ n < 2 ^ 64 := by
  have hnumber : ∀ number : Option Nat, (number = some n ↔ Writes text n) →
      (number.filter (· < twoTo 64) = some n ↔ Writes text n ∧ n < 2 ^ 64) := by
    intro number h
    rw [Option.filter_eq_some_iff, h, decide_eq_true_eq]
    rfl
  unfold count?
  refine hnumber _ ?_
  split
  · next s hs => rw [digits?_eq_some_iff, writes_of_plus hs]
  · next hs => rw [digits?_eq_some_iff, writes_of_not_plus hs]

end LSystem.Decimal
