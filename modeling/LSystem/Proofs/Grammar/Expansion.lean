import LSystem.Grammar
set_option autoImplicit false

/-! # Expanding a word symbol by symbol

The grammar is applied to a whole word at a time, generation after generation. As a step looks at each
symbol by itself, the same word comes of going through the symbols one after the other and carrying each
of them through all its generations before the next is looked at (`descendants`). Everything else that
is said here follows from these two ways being one: what stands beside a symbol does not matter, and
generations may be counted from either end. -/

namespace LSystem

namespace Grammar

variable (g : Grammar)

/-! ## The descendants of a symbol -/

/-- The word that comes of one symbol in `n` generations: what comes of its replacement in the
    generations that are left, or the symbol as it is when nothing replaces it. -/
def descendants (g : Grammar) : Nat → Symbol → Word
  | 0, c => [c]
  | n + 1, c =>
    match g.get? c with
    | some r => r.flatMap (g.descendants n)
    | none => [c]

variable {g} in
theorem descendants_of_none {c : Symbol} (h : g.get? c = none) (n : Nat) :
    g.descendants n c = [c] := by
  cases n with
  | zero => rfl
  | succ n => rw [descendants, h]

theorem descendants_succ (n : Nat) (c : Symbol) :
    g.descendants (n + 1) c = (g.image c).flatMap (g.descendants n) := by
  cases hc : g.get? c with
  | some r => rw [descendants, hc, image, hc, Option.getD_some]
  | none => rw [descendants_of_none hc, image, hc, Option.getD_none, List.flatMap_singleton,
      descendants_of_none hc]

/-! ## Both ways to expand a word -/

/-- Generation by generation or symbol by symbol, the same word comes of it. -/
theorem expand_eq_flatMap_descendants (w : Word) (n : Nat) :
    g.expand w n = w.flatMap (g.descendants n) := by
  induction n generalizing w with
  | zero => exact (List.flatMap_singleton' w).symm
  | succ n ih =>
    calc g.expand w (n + 1) = (g.rewrite w).flatMap (g.descendants n) := ih (g.rewrite w)
      _ = w.flatMap fun c => (g.image c).flatMap (g.descendants n) := List.flatMap_assoc
      _ = w.flatMap (g.descendants (n + 1)) :=
        congrArg (List.flatMap · w) (funext fun c => (g.descendants_succ n c).symm)

theorem expand_append (u v : Word) (n : Nat) :
    g.expand (u ++ v) n = g.expand u n ++ g.expand v n := by
  rw [expand_eq_flatMap_descendants, List.flatMap_append, expand_eq_flatMap_descendants,
    expand_eq_flatMap_descendants]

theorem expand_singleton (c : Symbol) (n : Nat) : g.expand [c] n = g.descendants n c := by
  rw [expand_eq_flatMap_descendants, List.flatMap_singleton]

theorem expand_eq_flatMap_expand (w : Word) (n : Nat) :
    g.expand w n = w.flatMap fun c => g.expand [c] n := by
  simp only [expand_singleton]
  exact g.expand_eq_flatMap_descendants w n

/-- The first generations may be carried out by themselves. -/
theorem expand_add (w : Word) (m n : Nat) : g.expand w (m + n) = g.expand (g.expand w m) n := by
  induction m generalizing w with
  | zero => rw [Nat.zero_add, expand]
  | succ m ih =>
    rw [Nat.succ_add]
    exact ih (g.rewrite w)

/-- The first generation puts in the replacements, and the others expand these. -/
theorem expand_succ_eq_flatMap (w : Word) (n : Nat) :
    g.expand w (n + 1) = w.flatMap fun c =>
      match g.get? c with
      | some r => g.expand r n
      | none => [c] := by
  rw [expand_eq_flatMap_descendants]
  congr 1
  funext c
  rw [descendants]
  cases g.get? c with
  | some r => exact (g.expand_eq_flatMap_descendants r n).symm
  | none => rfl

end Grammar

/-- **Rewriting is context-free and generational.** The expansion of a word is that of its symbols, one
    behind the other; the generations may be carried out in parts; and the first of them replaces each
    symbol of the word once, whatever the replacements hold. The expansion of a symbol is the word of
    its descendants, which are found without looking at any other symbol. -/
theorem System.expansion_law (g : Grammar) (angle : Float) :
    let E (w : Word) (n : Nat) : Word := System.expand ⟨w, g, angle⟩ n
    (∀ u v n, E (u ++ v) n = E u n ++ E v n) ∧
    (∀ w n, E w n = w.flatMap fun c => E [c] n) ∧
    (∀ c n, E [c] n = g.descendants n c) ∧
    (∀ w m n, E w (m + n) = E (E w m) n) ∧
    (∀ w n, E w (n + 1) = w.flatMap fun c =>
      match g.get? c with
      | some r => E r n
      | none => [c]) ∧
    (∀ w, E w 1 = w.flatMap fun c => (g.get? c).getD [c]) :=
  ⟨g.expand_append, g.expand_eq_flatMap_expand, g.expand_singleton, g.expand_add,
    g.expand_succ_eq_flatMap, fun _ => rfl⟩

-- the `B` that replaces the `A` is itself replaced, but one generation later
example :
    let g : Grammar := .ofList [('A', ['A', '+', 'B']), ('B', ['A', '-', 'B'])]
    g.expand ['A'] 1 = ['A', '+', 'B'] ∧ g.expand ['A'] 2 = ['A', '+', 'B', '+', 'A', '-', 'B'] := by
  decide

end LSystem
