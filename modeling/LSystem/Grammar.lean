import LSystem.Table
set_option autoImplicit false

/-! # Grammars: rewriting every symbol of a word at once

A word is a list of symbols, a grammar a table of productions. One rewriting step replaces each
symbol by its image, the right-hand side of its production or the symbol itself when it has none.
A step is therefore the homomorphism of words given by `image`: it never looks at the neighbours of
a symbol, and what a production puts in is not rewritten again in the same step. -/

namespace LSystem

/-- A symbol is one character. -/
abbrev Symbol := Char

/-- A word is a string of symbols. -/
abbrev Word := List Symbol

/-- A grammar gives at most one production to each symbol. -/
abbrev Grammar := Table Symbol Word

namespace Grammar

/-- What one symbol becomes in one step. -/
def image (g : Grammar) (c : Symbol) : Word := (g.get? c).getD [c]

/-- One step: every symbol is replaced by its image. -/
def rewrite (g : Grammar) (w : Word) : Word := w.flatMap g.image

/-- `n` steps. -/
def expand (g : Grammar) (w : Word) : Nat → Word
  | 0 => w
  | n + 1 => g.expand (g.rewrite w) n

@[simp] theorem rewrite_nil (g : Grammar) : g.rewrite [] = [] := rfl

@[simp] theorem rewrite_cons (g : Grammar) (c : Symbol) (w : Word) :
    g.rewrite (c :: w) = g.image c ++ g.rewrite w := List.flatMap_cons

@[simp] theorem rewrite_append (g : Grammar) (u v : Word) :
    g.rewrite (u ++ v) = g.rewrite u ++ g.rewrite v := by
  simp [rewrite]

/-- The last of `n + 1` steps can be split off as well as the first. -/
theorem expand_succ (g : Grammar) (w : Word) (n : Nat) :
    g.expand w (n + 1) = g.rewrite (g.expand w n) := by
  induction n generalizing w with
  | zero => rfl
  | succ n ih => exact ih (g.rewrite w)

end Grammar

/-- A system: the word to start from, the grammar, and the angle of a turn in radians. -/
structure System where
  initiator : Word
  grammar : Grammar
  angle : Float

/-- Generation `n` of a system. -/
def System.expand (s : System) (n : Nat) : Word := s.grammar.expand s.initiator n

@[simp] theorem System.expand_zero (s : System) : s.expand 0 = s.initiator := rfl

/-- Each generation is the one before it, rewritten. -/
theorem System.expand_succ (s : System) (n : Nat) :
    s.expand (n + 1) = s.grammar.rewrite (s.expand n) :=
  s.grammar.expand_succ s.initiator n

end LSystem
