import LSystem.Grammar
import Mathlib.Algebra.Order.Group.Nat
import Mathlib.Order.Monotone.Basic
set_option autoImplicit false

/-! # How long words become

A step replaces every symbol by its image, so how much longer it makes a word is a matter of the lengths
of images. None is longer than `Grammar.stretch`, which bounds every generation by a geometric sequence;
and where no replacement is empty none is shorter than one symbol, so generations never become shorter. -/

namespace LSystem

namespace Grammar

/-! ## Replacements -/

/-- What holds of all replacements can be checked entry by entry. -/
theorem forall_replacements_iff (g : Grammar) (P : Word → Prop) :
    (∀ (c : Symbol) (w : Word), g.get? c = some w → P w) ↔ ∀ e ∈ g.entries, P e.2 := by
  simp only [← Table.mem_entries_iff, Prod.forall]

/-- No symbol is replaced by the empty word. -/
def NonErasing (g : Grammar) : Prop := ∀ (c : Symbol) (w : Word), g.get? c = some w → w ≠ []

instance : DecidablePred NonErasing := fun g =>
  decidable_of_iff (∀ e ∈ g.entries, e.2 ≠ []) (g.forall_replacements_iff (· ≠ [])).symm

/-- How many symbols a step makes of one symbol at most: as many as the longest replacement has, and one
    at least, since a symbol that nothing replaces stays. -/
def stretch (g : Grammar) : Nat := max 1 ((g.entries.map (·.2.length)).foldr max 0)

/-- The stretch is the least number that is positive and bounds all replacements. -/
theorem stretch_le_iff {g : Grammar} {k : Nat} :
    g.stretch ≤ k ↔ 1 ≤ k ∧ ∀ (c : Symbol) (w : Word), g.get? c = some w → w.length ≤ k := by
  have hlongest : ∀ ns : List Nat, ns.foldr max 0 ≤ k ↔ ∀ n ∈ ns, n ≤ k := by
    intro ns
    induction ns with
    | nil => simp
    | cons n ns ih => rw [List.foldr_cons, max_le_iff, ih, List.forall_mem_cons]
  rw [stretch, max_le_iff, hlongest, List.forall_mem_map, g.forall_replacements_iff (·.length ≤ k)]

/-! ## One step -/

theorem length_image_le (g : Grammar) (c : Symbol) : (g.image c).length ≤ g.stretch := by
  obtain ⟨hone, hreplacements⟩ := stretch_le_iff.1 (le_refl g.stretch)
  unfold image
  cases hc : g.get? c with
  | some r => exact hreplacements c r hc
  | none => exact hone

theorem length_rewrite_le (g : Grammar) (w : Word) :
    (g.rewrite w).length ≤ g.stretch * w.length := by
  induction w with
  | nil => exact Nat.zero_le _
  | cons c w ih =>
    calc (g.rewrite (c :: w)).length = (g.image c).length + (g.rewrite w).length := by
          rw [rewrite_cons, List.length_append]
      _ ≤ g.stretch + g.stretch * w.length := Nat.add_le_add (g.length_image_le c) ih
      _ = g.stretch * (c :: w).length := by rw [List.length_cons, Nat.mul_succ, Nat.add_comm]

theorem NonErasing.one_le_length_image {g : Grammar} (h : g.NonErasing) (c : Symbol) :
    1 ≤ (g.image c).length := by
  unfold image
  cases hc : g.get? c with
  | some r => exact List.length_pos_iff.2 (h c r hc)
  | none => exact Nat.le_refl 1

theorem NonErasing.length_le_length_rewrite {g : Grammar} (h : g.NonErasing) (w : Word) :
    w.length ≤ (g.rewrite w).length := by
  induction w with
  | nil => exact Nat.zero_le _
  | cons c w ih =>
    rw [rewrite_cons, List.length_append, List.length_cons, Nat.add_comm]
    exact Nat.add_le_add (h.one_le_length_image c) ih

end Grammar

/-! ## Many steps -/

namespace System

variable {s : System}

theorem length_expand_le_mul_pow (s : System) (n : Nat) :
    (s.expand n).length ≤ s.initiator.length * s.grammar.stretch ^ n := by
  induction n with
  | zero => rw [expand_zero, Nat.pow_zero, Nat.mul_one]
  | succ n ih =>
    calc (s.expand (n + 1)).length ≤ s.grammar.stretch * (s.expand n).length := by
          rw [expand_succ]
          exact s.grammar.length_rewrite_le _
      _ ≤ s.grammar.stretch * (s.initiator.length * s.grammar.stretch ^ n) :=
          Nat.mul_le_mul_left _ ih
      _ = s.initiator.length * s.grammar.stretch ^ (n + 1) := by
          rw [Nat.pow_succ, Nat.mul_comm, Nat.mul_assoc]

/-- Where nothing is erased, generations never become shorter. -/
theorem length_expand_mono (h : s.grammar.NonErasing) :
    Monotone fun n => (s.expand n).length := by
  refine monotone_nat_of_le_succ ?_
  intro n
  rw [expand_succ]
  exact h.length_le_length_rewrite (s.expand n)

end System

end LSystem
