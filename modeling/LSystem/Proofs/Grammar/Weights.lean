import LSystem.Proofs.Drawing.Brackets
import LSystem.Proofs.Run.Limit
import Mathlib.Algebra.BigOperators.Finprod
set_option autoImplicit false

/-! # Weighing words

How many symbols of a kind a word has, how many of its symbols draw and how long it is are sums over its
symbols, so they are taken together here: each symbol is given a weight, and a word weighs what its
symbols weigh. A step is then read backwards: the rewritten word weighs what the word itself weighs when
every symbol is given the weight of its image (`weigh_rewrite`). The order of the symbols plays no part.
It follows that the counts of a generation are a linear function of the counts in front of it, and that
systems which start from the same symbols in another order grow alike, with a limit and without. -/

namespace LSystem

namespace Word

/-! ## Weights -/

/-- The sum of what the symbols of a word weigh. -/
def weigh (f : Symbol → Nat) (w : Word) : Nat := (w.map f).sum

@[simp] theorem weigh_nil (f : Symbol → Nat) : weigh f [] = 0 := rfl

@[simp] theorem weigh_cons (f : Symbol → Nat) (c : Symbol) (w : Word) :
    weigh f (c :: w) = f c + weigh f w := List.sum_cons

@[simp] theorem weigh_append (f : Symbol → Nat) (u v : Word) :
    weigh f (u ++ v) = weigh f u + weigh f v := by
  rw [weigh, List.map_append, List.sum_append, weigh, weigh]

theorem weigh_congr {f f' : Symbol → Nat} {w : Word} (h : ∀ c ∈ w, f c = f' c) :
    weigh f w = weigh f' w := by
  rw [weigh, List.map_congr_left h, weigh]

theorem weigh_mul (k : Nat) (f : Symbol → Nat) (w : Word) :
    weigh (fun c => f c * k) w = weigh f w * k := List.sum_map_mul_right w f k

theorem count_eq_weigh (c : Symbol) (w : Word) :
    w.count c = w.weigh fun d => if d = c then 1 else 0 := by
  induction w with
  | nil => rfl
  | cons d w ih => rw [weigh_cons, List.count_cons, ih, Nat.add_comm]; simp only [beq_iff_eq]

theorem length_eq_weigh (w : Word) : w.length = w.weigh fun _ => 1 := by
  rw [weigh, List.map_const', List.sum_replicate, smul_eq_mul, Nat.mul_one]

/-- What a symbol adds to the strokes of a word. -/
def stroke (c : Symbol) : Nat := if Symbol.Draws c then 1 else 0

theorem strokes_eq_weigh (w : Word) : w.strokes = w.weigh stroke := by
  induction w with
  | nil => rfl
  | cons c w ih =>
    rw [weigh_cons, ← ih, strokes, List.countP_cons, Nat.add_comm, stroke, strokes]
    simp only [decide_eq_true_eq]

/-- A word is weighed symbol by symbol or kind by kind. -/
theorem weigh_eq_finsum (f : Symbol → Nat) (w : Word) :
    w.weigh f = ∑ᶠ d, w.count d * f d := by
  have hsupport : Function.support (fun d => w.count d * f d) ⊆ ↑w.toFinset := by
    intro d hd
    have hcount : w.count d ≠ 0 := left_ne_zero_of_mul hd
    simpa [List.count_eq_zero] using hcount
  rw [finsum_eq_sum_of_support_subset _ hsupport]
  exact Finset.sum_list_map_count w f

end Word

namespace Grammar

variable (g : Grammar)

/-! ## One step -/

/-- How many symbols `c` a step makes of one symbol `d`. -/
def yield (d c : Symbol) : Nat :=
  match g.get? d with
  | some r => r.count c
  | none => if d = c then 1 else 0

theorem count_image (d c : Symbol) : (g.image d).count c = g.yield d c := by
  unfold image yield
  cases g.get? d with
  | some r => rfl
  | none => simp only [Option.getD_none, List.count_singleton, beq_iff_eq]

/-- A rewritten word weighs what the word does when its symbols weigh what their images do. -/
theorem weigh_rewrite (f : Symbol → Nat) (w : Word) :
    (g.rewrite w).weigh f = w.weigh fun c => (g.image c).weigh f := by
  induction w with
  | nil => rfl
  | cons c w ih => rw [rewrite_cons, Word.weigh_append, Word.weigh_cons, ih]

/-- The counts after a step are sums over the counts in front of it. -/
theorem count_rewrite (w : Word) (c : Symbol) :
    (g.rewrite w).count c = ∑ᶠ d, w.count d * g.yield d c := by
  rw [Word.count_eq_weigh, weigh_rewrite, Word.weigh_eq_finsum]
  simp only [← Word.count_eq_weigh, count_image]

variable {g} in
/-- A step does not mind the order of the symbols. -/
theorem rewrite_perm {u v : Word} (h : u.Perm v) : (g.rewrite u).Perm (g.rewrite v) :=
  h.flatMap_right g.image

variable {g} in
theorem expand_perm {u v : Word} (h : u.Perm v) (n : Nat) : (g.expand u n).Perm (g.expand v n) := by
  induction n generalizing u v with
  | zero => exact h
  | succ n ih => exact ih (rewrite_perm h)

/-! ## Many steps -/

/-- Where the weights of one step are those of the images under the weights of the step before, a word
    expanded `n` times weighs at first what the word itself does at step `n`. -/
theorem weigh_expand {f : Nat → Symbol → Nat} (h : ∀ n c, (g.image c).weigh (f n) = f (n + 1) c)
    (w : Word) (n : Nat) : (g.expand w n).weigh (f 0) = w.weigh (f n) := by
  induction n generalizing w with
  | zero => rfl
  | succ n ih =>
    calc (g.expand w (n + 1)).weigh (f 0) = (g.rewrite w).weigh (f n) := ih (g.rewrite w)
      _ = w.weigh fun c => (g.image c).weigh (f n) := g.weigh_rewrite (f n) w
      _ = w.weigh (f (n + 1)) := congrArg (Word.weigh · w) (funext (h n))

/-- The weights `v` of the symbols that some productions replace, beside those of the symbols that stay. -/
def worth (productions : List (Symbol × Word)) (base v : Symbol → Nat) (c : Symbol) : Nat :=
  if (Table.findEntry c productions).isSome then v c else base c

/-- What the expansions of a grammar weigh is a matter of its productions: it is enough to say for every
    generation what the symbols weigh that are replaced, and to look at each replacement once. -/
theorem weigh_expand_of_productions {base : Symbol → Nat} {v : Nat → Symbol → Nat}
    (hstart : ∀ e ∈ g.entries, v 0 e.1 = base e.1)
    (hstep : ∀ n, ∀ e ∈ g.entries, e.2.weigh (worth g.entries base (v n)) = v (n + 1) e.1)
    (w : Word) (n : Nat) : (g.expand w n).weigh base = w.weigh (worth g.entries base (v n)) := by
  have hworth : ∀ v c, worth g.entries base v c = if (g.get? c).isSome then v c else base c :=
    fun _ _ => rfl
  have hzero : worth g.entries base (v 0) = base := by
    funext c
    cases hc : g.get? c with
    | some r => simpa [hworth, hc] using hstart _ ((g.mem_entries_iff c r).2 hc)
    | none => simp [hworth, hc]
  have hsucc : ∀ n c,
      (g.image c).weigh (worth g.entries base (v n)) = worth g.entries base (v (n + 1)) c := by
    intro n c
    cases hc : g.get? c with
    | some r => simpa [image, hworth, hc] using hstep n _ ((g.mem_entries_iff c r).2 hc)
    | none => simp [image, hworth, hc]
  have hweigh := g.weigh_expand hsucc w n
  rwa [hzero] at hweigh

end Grammar

/-! ## Growing within a limit -/

namespace Run

variable {r r' : Run}

/-- The runs have the same grammar and are at the same generation, and the word of one is that of the
    other in some order. -/
structure Rearranges (r' r : Run) : Prop where
  grammar : r'.system.grammar = r.system.grammar
  generation : r'.generation = r.generation
  current : r'.current.Perm r.current

namespace Rearranges

theorem start {s s' : System} (hg : s'.grammar = s.grammar) (hi : s'.initiator.Perm s.initiator) :
    (Run.start s').Rearranges (Run.start s) := ⟨hg, rfl, hi⟩

theorem iterate (h : r'.Rearranges r) : r'.iterate.Rearranges r.iterate where
  grammar := h.grammar
  generation := by rw [iterate_generation, iterate_generation, h.generation]
  current := by
    rw [iterate_current, iterate_current, h.grammar]
    exact Grammar.rewrite_perm h.current

theorem symbols_iterate (h : r'.Rearranges r) : r'.iterate.symbols = r.iterate.symbols := by
  rw [iterate_symbols, iterate_symbols]
  exact h.iterate.current.length_eq

/-- A limit looks at lengths only, so it stops both runs at the same generation or neither. -/
theorem iterateWithin (h : r'.Rearranges r) (limit n : Nat) :
    (r'.iterateWithin limit n).2 = (r.iterateWithin limit n).2 := by
  induction n generalizing r r' with
  | zero => rfl
  | succ n ih =>
    by_cases hfits : r.iterate.symbols ≤ limit
    · have hfits' : r'.iterate.symbols ≤ limit := h.symbols_iterate ▸ hfits
      rw [iterateWithin_succ_of_le hfits, iterateWithin_succ_of_le hfits']
      exact ih h.iterate
    · have hlong : limit < r.iterate.symbols := Nat.not_le.1 hfits
      have hlong' : limit < r'.iterate.symbols := h.symbols_iterate ▸ hlong
      rw [iterateWithin_succ_of_lt hlong, iterateWithin_succ_of_lt hlong', h.symbols_iterate,
        h.generation]

end Rearranges

end Run

/-- **Symbol counts evolve linearly.** The counts of a generation are sums over those of the generation
    in front of it, whose coefficients are read off the productions. So they are settled by the counts of
    the initiator: when it is rearranged, every generation is only rearranged, and a limit is met or
    exceeded as before. -/
theorem System.count_law (s : System) :
    (∀ n c, (s.expand (n + 1)).count c = ∑ᶠ d, (s.expand n).count d * s.grammar.yield d c) ∧
    ∀ s' : System, s'.grammar = s.grammar → s'.initiator.Perm s.initiator →
      (∀ n, (∀ c, (s'.expand n).count c = (s.expand n).count c) ∧
        (s'.expand n).length = (s.expand n).length ∧
        (s'.expand n).strokes = (s.expand n).strokes) ∧
      ∀ limit n, ((Run.start s').iterateWithin limit n).2 = ((Run.start s).iterateWithin limit n).2 := by
  refine ⟨?_, ?_⟩
  · intro n c
    rw [expand_succ]
    exact s.grammar.count_rewrite (s.expand n) c
  · intro s' hg hi
    refine ⟨?_, ?_⟩
    · intro n
      have hn : (s'.expand n).Perm (s.expand n) := by
        rw [expand, expand, hg]
        exact Grammar.expand_perm hi n
      exact ⟨hn.count_eq, hn.length_eq, hn.countP_eq _⟩
    · intro limit n
      exact (Run.Rearranges.start hg hi).iterateWithin limit n

/-- The dragon that starts from `B+A` is stopped where the one that starts from `A+B` is. -/
theorem System.count_law_dragon :
    let dragon (initiator : Word) : System :=
      ⟨initiator, .ofList [('A', ['A', '+', 'B']), ('B', ['A', '-', 'B'])], 0⟩
    let s := dragon ['A', '+', 'B']
    let s' := dragon ['B', '+', 'A']
    s'.initiator.Perm s.initiator ∧ (∀ n, (s'.expand n).strokes = (s.expand n).strokes) ∧
      ((Run.start s').iterateWithin 20 5).2 = .error (.symbolLimit 3 31 20) := by
  intro dragon s s'
  have hperm : s'.initiator.Perm s.initiator := by decide
  obtain ⟨-, hrearranged⟩ := count_law s
  obtain ⟨hcounts, hlimit⟩ := hrearranged s' rfl hperm
  refine ⟨hperm, fun n => (hcounts n).2.2, ?_⟩
  rw [hlimit]
  rfl

end LSystem
