import LSystem.Catalogue
import LSystem.Proofs.Drawing.Brackets
import LSystem.Proofs.Grammar.Length
import LSystem.Proofs.Run.Trace
import Mathlib.Data.List.Infix
set_option autoImplicit false

/-! # Systems that can always be drawn

Whether a generation can be drawn is a question about a word that may be very long. For many systems it
is settled by looking at the few words the system is made of: where brackets are never replaced, and
neither the initiator nor any replacement closes a bracket that it has not opened, no generation does so
(`Guarded`). Replacements may leave brackets open; a step then makes a word deeper but never shallower,
and it is this that carries the induction (`depth_le_depth_rewrite`). -/

namespace LSystem

/-! ## Depth -/

namespace Word

/-- How many more brackets a word opens than it closes. -/
def depth (w : Word) : Int := w.count '[' - w.count ']'

/-- No beginning of the word closes more brackets than it opens. -/
def Guarded (w : Word) : Prop := ∀ u : Word, u <+: w → ¬ u.Overclosed

instance : DecidablePred Guarded := fun w =>
  decidable_of_iff (∀ u ∈ w.inits, ¬ Overclosed u) (by simp [Guarded, List.mem_inits])

/-- The word closes as many brackets as it opens. -/
def Balanced (w : Word) : Prop := w.count '[' = w.count ']'

instance : DecidablePred Balanced := fun w =>
  inferInstanceAs (Decidable (w.count '[' = w.count ']'))

@[simp] theorem depth_append (u v : Word) : depth (u ++ v) = u.depth + v.depth := by
  simp only [depth, List.count_append]
  omega

theorem depth_singleton_of_ne {c : Symbol} (hopen : c ≠ '[') (hclose : c ≠ ']') :
    depth [c] = 0 := by
  simp [depth, hopen, hclose]

theorem not_overclosed_iff {w : Word} : ¬ w.Overclosed ↔ 0 ≤ w.depth := by
  unfold Overclosed depth
  omega

theorem balanced_iff {w : Word} : w.Balanced ↔ w.depth = 0 := by
  unfold Balanced depth
  omega

theorem guarded_iff {w : Word} : w.Guarded ↔ ∀ u : Word, u <+: w → 0 ≤ u.depth := by
  simp only [Guarded, not_overclosed_iff]

theorem Guarded.depth_nonneg {w : Word} (h : w.Guarded) : 0 ≤ w.depth :=
  guarded_iff.1 h w (List.prefix_refl w)

theorem Guarded.of_prefix {u w : Word} (h : w.Guarded) (hu : u <+: w) : u.Guarded :=
  fun p hp => h p (hp.trans hu)

/-- A guarded word stays guarded where what is written behind it never closes more brackets than it has
    left open. -/
theorem guarded_append {u v : Word} (hu : u.Guarded)
    (hv : ∀ q : Word, q <+: v → 0 ≤ u.depth + q.depth) : (u ++ v).Guarded := by
  rw [guarded_iff] at hu ⊢
  intro p hp
  rcases List.prefix_or_prefix_of_prefix hp (List.prefix_append u v) with hp | ⟨q, rfl⟩
  · exact hu p hp
  · have hq : q <+: v := (List.prefix_append_right_inj u).1 hp
    rw [depth_append]
    exact hv q hq

end Word

/-! ## Rewriting -/

/-- Brackets are never replaced, and no replacement closes a bracket that it has not opened. -/
structure Grammar.Guarded (g : Grammar) : Prop where
  open_kept : g.get? '[' = none
  close_kept : g.get? ']' = none
  replacements : ∀ (c : Symbol) (w : Word), g.get? c = some w → w.Guarded

namespace Grammar

variable {g : Grammar}

/-- What a symbol becomes: itself, or a replacement if it is no bracket. -/
theorem Guarded.image_cases (h : g.Guarded) (c : Symbol) :
    g.image c = [c] ∨ g.get? c = some (g.image c) ∧ Word.depth [c] = 0 := by
  cases hc : g.get? c with
  | none => exact .inl (by rw [image, hc, Option.getD_none])
  | some w =>
    have hopen : c ≠ '[' := by
      rintro rfl
      rw [h.open_kept] at hc
      cases hc
    have hclose : c ≠ ']' := by
      rintro rfl
      rw [h.close_kept] at hc
      cases hc
    have himage : g.image c = w := by rw [image, hc, Option.getD_some]
    exact .inr ⟨by rw [himage], Word.depth_singleton_of_ne hopen hclose⟩

/-- Nowhere does the image of a symbol close more than the symbol itself. -/
theorem Guarded.le_depth_of_prefix_image (h : g.Guarded) {c : Symbol} {q : Word}
    (hq : q <+: g.image c) : min 0 (Word.depth [c]) ≤ q.depth := by
  rcases h.image_cases c with hself | ⟨hreplaced, -⟩
  · rw [hself] at hq
    rcases List.prefix_cons_iff.1 hq with rfl | ⟨q', rfl, hq'⟩
    · exact min_le_left _ _
    · obtain rfl := List.prefix_nil.1 hq'
      exact min_le_right _ _
  · have hguarded := Word.guarded_iff.1 (h.replacements c _ hreplaced)
    exact (min_le_left _ _).trans (hguarded q hq)

theorem Guarded.depth_le_depth_image (h : g.Guarded) (c : Symbol) :
    Word.depth [c] ≤ (g.image c).depth := by
  rcases h.image_cases c with hself | ⟨hreplaced, hzero⟩
  · rw [hself]
  · rw [hzero]
    exact (h.replacements c _ hreplaced).depth_nonneg

/-- A step closes no bracket that was open. -/
theorem Guarded.depth_le_depth_rewrite (h : g.Guarded) (w : Word) :
    w.depth ≤ (g.rewrite w).depth := by
  induction w with
  | nil => exact le_rfl
  | cons c w ih =>
    rw [rewrite_cons, ← List.singleton_append, Word.depth_append, Word.depth_append]
    exact Int.add_le_add (h.depth_le_depth_image c) ih

/-- A step keeps a word guarded. -/
theorem Guarded.rewrite (h : g.Guarded) {w : Word} (hw : w.Guarded) : (g.rewrite w).Guarded := by
  -- from the right: an image may close what the symbols in front of it have left open
  induction w using List.reverseRecOn with
  | nil => exact hw
  | append_singleton v c ih =>
    have hv : Word.Guarded v := hw.of_prefix (List.prefix_append v [c])
    have hbefore : 0 ≤ Word.depth v := hv.depth_nonneg
    have hbehind : 0 ≤ Word.depth v + Word.depth [c] := by
      rw [← Word.depth_append]
      exact hw.depth_nonneg
    rw [rewrite_append]
    refine Word.guarded_append (ih hv) ?_
    intro q hq
    have hq : q <+: g.image c := by simpa using hq
    have hdeeper := h.depth_le_depth_rewrite v
    have himage := h.le_depth_of_prefix_image hq
    omega

end Grammar

/-! ## All generations -/

/-- The grammar is guarded and so is the initiator. -/
structure System.Guarded (s : System) : Prop where
  grammar : s.grammar.Guarded
  initiator : s.initiator.Guarded

/-- The initiator and all replacements close as many brackets as they open. -/
structure System.Balanced (s : System) : Prop where
  initiator : s.initiator.Balanced
  replacements : ∀ (c : Symbol) (w : Word), s.grammar.get? c = some w → w.Balanced

instance (g : Grammar) : Decidable g.Guarded :=
  decidable_of_iff (g.get? '[' = none ∧ g.get? ']' = none ∧ ∀ e ∈ g.entries, Word.Guarded e.2) (by
    rw [← g.forall_replacements_iff]
    exact ⟨fun ⟨hopen, hclose, h⟩ => ⟨hopen, hclose, h⟩, fun ⟨hopen, hclose, h⟩ => ⟨hopen, hclose, h⟩⟩)

instance (s : System) : Decidable s.Guarded :=
  decidable_of_iff (s.grammar.Guarded ∧ s.initiator.Guarded)
    ⟨fun ⟨hg, hi⟩ => ⟨hg, hi⟩, fun ⟨hg, hi⟩ => ⟨hg, hi⟩⟩

instance (s : System) : Decidable s.Balanced :=
  decidable_of_iff (s.initiator.Balanced ∧ ∀ e ∈ s.grammar.entries, Word.Balanced e.2) (by
    rw [← s.grammar.forall_replacements_iff]
    exact ⟨fun ⟨hi, h⟩ => ⟨hi, h⟩, fun ⟨hi, h⟩ => ⟨hi, h⟩⟩)

namespace System

variable {s : System}

theorem Guarded.expand (h : s.Guarded) (n : Nat) : (s.expand n).Guarded := by
  induction n with
  | zero => exact h.initiator
  | succ n ih =>
    rw [expand_succ]
    exact h.grammar.rewrite ih

/-- Where no bracket is replaced and all words are balanced, a step changes no depth. -/
theorem Balanced.depth_rewrite (hb : s.Balanced) (h : s.Guarded) (w : Word) :
    (s.grammar.rewrite w).depth = w.depth := by
  have himage : ∀ c : Symbol, (s.grammar.image c).depth = Word.depth [c] := by
    intro c
    rcases h.grammar.image_cases c with hself | ⟨hreplaced, hzero⟩
    · rw [hself]
    · rw [hzero]
      exact Word.balanced_iff.1 (hb.replacements c _ hreplaced)
  induction w with
  | nil => rfl
  | cons c w ih =>
    rw [Grammar.rewrite_cons, ← List.singleton_append, Word.depth_append, Word.depth_append, ih,
      himage]

theorem Balanced.expand (hb : s.Balanced) (h : s.Guarded) (n : Nat) : (s.expand n).Balanced := by
  induction n with
  | zero => exact hb.initiator
  | succ n ih =>
    rw [Word.balanced_iff] at ih ⊢
    rw [expand_succ, hb.depth_rewrite h, ih]

end System

/-! ## Drawing them -/

/-- A guarded word can be drawn. -/
theorem Word.Guarded.exists_draw_ok {w : Word} (h : w.Guarded) (angle : Float) :
    ∃ g, w.draw angle = .ok g := by
  cases hd : w.draw angle with
  | ok g => exact ⟨g, rfl⟩
  | error e =>
    obtain ⟨u, hu, hover⟩ := Walk.draw_eq_error_iff_overclosed.1 ⟨e, hd⟩
    exact absurd hover (h u hu)

/-- At the end of a balanced word no turtle is saved. -/
theorem Word.Balanced.saved_of_follow {α : Type} [OfNat α 0] [OfNat α 1] [Add α] [Sub α] [Mul α]
    [Extremes α] {left right : Rotation α} {word : Word} {w : Walk α} (h : word.Balanced)
    (hw : Walk.follow left right .start 0 word = .ok w) : w.saved = [] := by
  have hsaved := (Walk.counts_of_follow hw).saved
  unfold Balanced at h
  exact List.length_eq_zero_iff.1 (by omega)

/-- **A guarded system can be drawn for ever**: in every generation and at every angle, and so in every
    run, whatever has been asked of it before. If the system is balanced as well, no generation leaves a
    turtle saved. -/
theorem System.Guarded.draws_forever {s : System} (h : s.Guarded) :
    (∀ n angle, ∃ g, (s.expand n).draw angle = .ok g) ∧
    (∀ ops : List Operation,
      let r := (Run.start s).afterAll ops
      (∃ g, r.draw.2 = .ok g) ∧ ∀ n, ∃ frames, (r.trace n).2 = .ok frames) ∧
    (s.Balanced → ∀ n angle, ∃ w : Walk Float,
      Walk.follow (.ofAngle angle) (.ofAngle (-angle)) .start 0 (s.expand n) = .ok w ∧
        w.saved = []) := by
  have hdraw : ∀ n angle, ∃ g, (s.expand n).draw angle = .ok g := by
    intro n angle
    exact (h.expand n).exists_draw_ok angle
  refine ⟨hdraw, ?_, ?_⟩
  · intro ops r
    have hr : r = s.runAt r.generation r.geometry := ((Run.IsRunOf.start s).afterAll ops).eq_runAt
    rw [hr]
    refine ⟨?_, ?_⟩
    · obtain ⟨g, hg⟩ := hdraw r.generation s.angle
      exact ⟨g, by rw [Run.runAt_draw_of_ok r.geometry hg]⟩
    · intro n
      have hall : ∀ k ≤ n, ∃ d, (s.expand (r.generation + k)).draw s.angle = .ok d :=
        fun k _ => hdraw _ _
      obtain ⟨frames, last, htrace, -⟩ := Run.trace_runAt_of_drawable r.geometry hall
      exact ⟨frames, by rw [htrace]⟩
  · intro hb n angle
    obtain ⟨g, hg⟩ := hdraw n angle
    obtain ⟨w, hw, -⟩ := Walk.draw_eq_ok_iff.1 hg
    exact ⟨w, hw, (hb.expand h n).saved_of_follow hw⟩

/-- The binary tree, whose turns are an eighth of a full one, can be drawn for ever. -/
theorem System.tree_draws_forever :
    let tree : System :=
      ⟨['A'], .ofList [('A', ['B', '[', '+', 'A', ']', '-', 'A']), ('B', ['B', 'B'])],
        Binary64.turnOver 8⟩
    tree.Guarded ∧ tree.Balanced ∧
      (∀ n angle, ∃ g, (tree.expand n).draw angle = .ok g) ∧
      (∀ ops : List Operation, ∀ n, ∃ frames,
        (((Run.start tree).afterAll ops).trace n).2 = .ok frames) ∧
      ∀ n angle, ∃ w : Walk Float,
        Walk.follow (.ofAngle angle) (.ofAngle (-angle)) .start 0 (tree.expand n) = .ok w ∧
          w.saved = [] := by
  intro tree
  have hguarded : tree.Guarded := by decide +kernel
  have hbalanced : tree.Balanced := by decide +kernel
  obtain ⟨hdraw, hruns, hsaved⟩ := hguarded.draws_forever
  exact ⟨hguarded, hbalanced, hdraw, fun ops => (hruns ops).2, hsaved hbalanced⟩

example : ∀ p ∈ catalogue, p.system.Guarded ∧ p.system.Balanced := by
  decide +kernel

end LSystem
