import LSystem.Proofs.Drawing.Walk
import Mathlib.Order.Bounds.Basic
set_option autoImplicit false

/-! # Which words can be drawn

A walk fails for one reason, a `]` at which nothing is saved. How many turtles are saved is a matter
of counting: one more at each `[`, one less at each `]` (`Counts`). So a word can be drawn unless one
of its beginnings closes more brackets than it opens, the failure names the first position at which
this is so, and neither this nor the number of segments depends on how far the turtle turns. -/

namespace LSystem

/-- More brackets are closed than were opened. -/
def Word.Overclosed (w : Word) : Prop := w.count '[' < w.count ']'

instance : DecidablePred Word.Overclosed := fun w =>
  inferInstanceAs (Decidable (w.count '[' < w.count ']'))

/-- The number of symbols at which a step is drawn. -/
def Word.strokes (w : Word) : Nat := w.countP (Symbol.Draws ·)

namespace Walk

section
variable {α : Type} [Add α] [Sub α] [Mul α] [Extremes α]

/-! ## Counting -/

/-- After the word `u` the brackets that are open are the turtles that are saved, and the symbols
    that draw are the segments drawn. -/
structure Counts (u : Word) (w : Walk α) : Prop where
  saved : w.saved.length + u.count ']' = u.count '['
  drawn : w.drawn.length = u.strokes

variable {left right : Rotation α}

theorem Counts.reads {u : Word} {c : Symbol} {w w' : Walk α} (h : Counts u w)
    (hr : Reads left right c w w') : Counts (u ++ [c]) w' := by
  obtain ⟨hsaved, hdrawn⟩ := h
  unfold Word.strokes at hdrawn
  constructor <;>
    simp only [Word.strokes, List.count_append, List.countP_append, List.count_singleton,
      List.countP_singleton]
  · cases hr with
    | draw hc => simpa [hc.ne_open, hc.ne_close] using hsaved
    | left => simpa using hsaved
    | right => simpa using hsaved
    | save => simp; omega
    | restore hs => simp [hs] at hsaved ⊢; omega
    | pass hc => simpa [hc.ne_open, hc.ne_close] using hsaved
  · cases hr with
    | draw hc => simpa [hc] using hdrawn
    | left => simpa [Symbol.Draws] using hdrawn
    | right => simpa [Symbol.Draws] using hdrawn
    | save => simpa [Symbol.Draws] using hdrawn
    | restore hs => simpa [Symbol.Draws] using hdrawn
    | pass hc => simpa [hc.not_draws] using hdrawn

end

variable {α : Type} [OfNat α 0] [OfNat α 1] [Add α] [Sub α] [Mul α] [Extremes α]
variable {left right : Rotation α}

theorem counts_of_follow {u : Word} {w : Walk α} {p : Nat}
    (h : follow left right start p u = .ok w) : Counts u w := by
  have hstart : Counts [] (start : Walk α) := ⟨rfl, rfl⟩
  refine follow_invariant ?_ hstart h
  intro u c v v' hu hr
  exact hu.reads hr

theorem not_overclosed_of_follow {u v : Word} {w : Walk α} {p : Nat}
    (h : follow left right start p (u ++ v) = .ok w) : ¬ u.Overclosed := by
  obtain ⟨mid, hmid⟩ := follow_of_append h
  -- as many turtles are saved after `u` as it opens brackets more than it closes
  have hsaved := (counts_of_follow hmid).saved
  unfold Word.Overclosed
  omega

/-! ## Success and failure -/

theorem not_overclosed_of_draw_ok {word : Word} {g : Geometry α}
    (h : Walk.draw left right word = .ok g) {u : Word} (hu : u <+: word) : ¬ u.Overclosed := by
  obtain ⟨w, hw, -⟩ := draw_eq_ok_iff.1 h
  obtain ⟨v, rfl⟩ := hu
  exact not_overclosed_of_follow hw

theorem length_points_of_draw_ok {word : Word} {g : Geometry α}
    (h : Walk.draw left right word = .ok g) : g.points.length = 2 * word.strokes := by
  obtain ⟨w, hw, rfl⟩ := draw_eq_ok_iff.1 h
  rw [length_geometry_points, (counts_of_follow hw).drawn]

/-- The failure of a drawing names the first position up to which too many brackets are closed. -/
theorem first_of_draw_error {word : Word} {e : Failure}
    (h : Walk.draw left right word = .error e) :
    ∃ i, e = .unmatchedBracket i ∧ word[i]? = some ']' ∧
      IsLeast {i | i < word.length ∧ Word.Overclosed (word.take (i + 1))} i := by
  obtain ⟨a, b, mid, rfl, hmid, hs, rfl⟩ := follow_eq_error (draw_eq_error_iff.1 h)
  have hcount := (counts_of_follow hmid).saved
  refine ⟨a.length, by rw [Nat.zero_add], by simp, ⟨by simp, ?_⟩, ?_⟩
  · -- up to the position itself one bracket too many is closed
    rw [List.take_length_add_append]
    simp [Word.Overclosed, hs] at hcount ⊢
    omega
  · -- in front of it the walk gets on, so no more are closed than are open
    rintro j ⟨-, hj⟩
    by_contra hlt
    have hle : j + 1 ≤ a.length := Nat.not_le.1 hlt
    rw [List.take_append_of_le_length hle] at hj
    rw [← List.take_append_drop (j + 1) a] at hmid
    exact not_overclosed_of_follow hmid hj

theorem draw_eq_error_iff_overclosed {word : Word} :
    (∃ e, Walk.draw left right word = .error e) ↔ ∃ u : Word, u <+: word ∧ u.Overclosed := by
  constructor
  · rintro ⟨e, he⟩
    obtain ⟨i, -, -, ⟨-, hi⟩, -⟩ := first_of_draw_error he
    exact ⟨word.take (i + 1), List.take_prefix _ _, hi⟩
  · rintro ⟨u, hu, hover⟩
    cases hd : Walk.draw left right word with
    | error e => exact ⟨e, rfl⟩
    | ok g => exact absurd hover (not_overclosed_of_draw_ok hd hu)

/-- The failure, or else the number of points, is the same for all turns. -/
theorem map_length_points_draw (left' right' : Rotation α) (word : Word) :
    (Walk.draw left right word).map (fun g => g.points.length) =
      (Walk.draw left' right' word).map (fun g => g.points.length) := by
  cases h : Walk.draw left right word with
  | ok g =>
    cases h' : Walk.draw left' right' word with
    | ok g' =>
      show Except.ok g.points.length = Except.ok g'.points.length
      rw [length_points_of_draw_ok h, length_points_of_draw_ok h']
    | error e' =>
      obtain ⟨u, hu, hover⟩ := draw_eq_error_iff_overclosed.1 ⟨e', h'⟩
      exact absurd hover (not_overclosed_of_draw_ok h hu)
  | error e =>
    obtain ⟨i, rfl, -, hi⟩ := first_of_draw_error h
    cases h' : Walk.draw left' right' word with
    | ok g' =>
      obtain ⟨u, hu, hover⟩ := draw_eq_error_iff_overclosed.1 ⟨_, h⟩
      exact absurd hover (not_overclosed_of_draw_ok h' hu)
    | error e' =>
      obtain ⟨i', rfl, -, hi'⟩ := first_of_draw_error h'
      rw [hi.unique hi']

end Walk

/-- **When a word can be drawn, and what comes of it.** The angle, which may be any float, has no
    part in this. -/
theorem Word.draw_outcome (word : Word) (angle : Float) :
    ((∃ e, word.draw angle = .error e) ↔ ∃ u : Word, u <+: word ∧ u.Overclosed) ∧
    (∀ e, word.draw angle = .error e →
      ∃ i, e = .unmatchedBracket i ∧ word[i]? = some ']' ∧
        IsLeast {i | i < word.length ∧ Word.Overclosed (word.take (i + 1))} i) ∧
    (∀ g, word.draw angle = .ok g →
      g.points.length = 2 * word.strokes ∧ g.segmentCount = word.strokes) ∧
    (∀ angle', (word.draw angle).map (fun g => g.points.length) =
      (word.draw angle').map (fun g => g.points.length)) := by
  refine ⟨Walk.draw_eq_error_iff_overclosed, ?_, ?_, ?_⟩
  · intro e he
    exact Walk.first_of_draw_error he
  · intro g hg
    have hlen := Walk.length_points_of_draw_ok hg
    refine ⟨hlen, ?_⟩
    rw [Geometry.segmentCount, hlen]
    omega
  · intro angle'
    exact Walk.map_length_points_draw _ _ word

example : Word.draw ['[', 'A', ']', 'A', ']', '+'] 1.0 = .error (.unmatchedBracket 4) := by
  rfl

end LSystem
