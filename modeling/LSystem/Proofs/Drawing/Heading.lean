import LSystem.Proofs.Drawing.Retrace
import LSystem.Proofs.Vector.Rotation
import Mathlib.Algebra.Order.Ring.Rat
import Mathlib.Data.List.Induction
set_option autoImplicit false

/-! # Which way a turtle looks

Where coordinates are exact, the heading of a turtle is a matter of counting. It is the first heading,
turned as many times as there are `+` on the path to the turtle and back as many times as there are `-`
(`heading_along`). So every heading and every segment is of length one, the direction of a segment is
told by one number, and two neighbouring turns that are opposite to each other may be left out. -/

namespace LSystem

/-! ## Segments -/

/-- The way from the start of a segment to its end. -/
def Segment.span {α : Type} [Sub α] (s : Segment α) : Vec α :=
  ⟨s.stop.x - s.start.x, s.stop.y - s.start.y⟩

theorem Geometry.pairUp_flatMap {α : Type} (segments : List (Segment α)) :
    pairUp (segments.flatMap fun s => [s.start, s.stop]) = segments := by
  induction segments with
  | nil => rfl
  | cons s segments ih => exact congrArg (s :: ·) ih

theorem Walk.segments_geometry {α : Type} (w : Walk α) : w.geometry.segments = w.drawn.reverse :=
  Geometry.pairUp_flatMap w.drawn.reverse

/-! ## Turns -/

namespace Word

/-- How many more turns a word makes to the left than to the right. -/
def turns (w : Word) : Int := w.count '+' - w.count '-'

theorem turns_append (u v : Word) : turns (u ++ v) = u.turns + v.turns := by
  simp only [turns, List.count_append]
  omega

/-- The first word is the two others with a neighbouring `+` and `-` put in between. -/
inductive InsertsTurns : Word → Word → Word → Prop
  | leftRight (u v : Word) : InsertsTurns (u ++ '+' :: '-' :: v) u v
  | rightLeft (u v : Word) : InsertsTurns (u ++ '-' :: '+' :: v) u v

end Word

variable {α : Type} [CommRing α]

namespace Turtle

/-- A symbol turns the heading as far as it says. -/
theorem heading_obey (r : PureRotation α) (t : Turtle α) (c : Symbol) :
    (t.obey r.toRotation r⁻¹.toRotation c).heading = (r ^ Word.turns [c]).turn t.heading := by
  unfold obey
  split
  · simp [Word.turns, step]
  · simp [Word.turns, step]
  · simp [Word.turns, step]
  · simp [Word.turns, turn, PureRotation.turn]
  · simp [Word.turns, turn, PureRotation.turn]
  · next hleft hright =>
    have hnone : Word.turns [c] = 0 := by
      have hcountLeft : List.count '+' [c] = 0 := List.count_eq_zero.2 (by simpa using Ne.symm hleft)
      have hcountRight : List.count '-' [c] = 0 := List.count_eq_zero.2 (by simpa using Ne.symm hright)
      simp [Word.turns, hcountLeft, hcountRight]
    rw [hnone, zpow_zero, PureRotation.one_turn]

/-- At the end of a path the turtle looks where the turns on it have led. -/
theorem heading_along (r : PureRotation α) (path : Word) :
    (along r.toRotation r⁻¹.toRotation path).heading = (r ^ path.turns).turn ⟨1, 0⟩ := by
  induction path using List.reverseRecOn with
  | nil => exact (PureRotation.one_turn _).symm
  | append_singleton path c ih =>
    rw [along_append, heading_obey, ih, ← PureRotation.mul_turn, ← zpow_add, Word.turns_append,
      add_comm]

theorem squaredLength_heading_along (r : PureRotation α) (path : Word) :
    (along r.toRotation r⁻¹.toRotation path).heading.squaredLength = 1 := by
  rw [heading_along, PureRotation.squaredLength_turn]
  simp [Vec.squaredLength]

/-- One step leads as far as the heading says. -/
theorem span_stroke (t : Turtle α) : t.stroke.span = t.heading := by
  obtain ⟨position, heading⟩ := t
  show (⟨position.x + heading.x - position.x, position.y + heading.y - position.y⟩ : Vec α) = heading
  rw [add_sub_cancel_left, add_sub_cancel_left]

/-- Two opposite turns leave the turtle as it was. -/
theorem turn_turn (r : PureRotation α) (t : Turtle α) :
    (t.turn r.toRotation).turn r⁻¹.toRotation = t := by
  obtain ⟨position, heading⟩ := t
  exact congrArg (Turtle.mk position) (r.inv_turn_turn heading)

end Turtle

/-! ## Walks -/

namespace Walk

variable [Extremes α]

/-- A walk is where it was after a turn and the opposite one. -/
theorem follow_opposite_turns (r : PureRotation α) (w : Walk α) (p : Nat) (v : Word) :
    follow r.toRotation r⁻¹.toRotation w p ('+' :: '-' :: v) =
        follow r.toRotation r⁻¹.toRotation w (p + 2) v ∧
      follow r.toRotation r⁻¹.toRotation w p ('-' :: '+' :: v) =
        follow r.toRotation r⁻¹.toRotation w (p + 2) v := by
  have hback : (w.turtle.turn r⁻¹.toRotation).turn r.toRotation = w.turtle := by
    simpa using Turtle.turn_turn r⁻¹ w.turtle
  constructor
  · show follow _ _ { w with turtle := (w.turtle.turn r.toRotation).turn r⁻¹.toRotation } _ v = _
    rw [Turtle.turn_turn]
  · show follow _ _ { w with turtle := (w.turtle.turn r⁻¹.toRotation).turn r.toRotation } _ v = _
    rw [hback]

/-- Where a word can be drawn, it is drawn alike without two neighbouring turns that are opposite. -/
theorem draw_of_insertsTurns (r : PureRotation α) {u v word : Word} {g : Geometry α}
    (hword : word.InsertsTurns u v)
    (h : Walk.draw r.toRotation r⁻¹.toRotation word = .ok g) :
    Walk.draw r.toRotation r⁻¹.toRotation (u ++ v) = .ok g := by
  obtain ⟨w, hw, rfl⟩ := draw_eq_ok_iff.1 h
  refine draw_eq_ok_iff.2 ⟨w, ?_, rfl⟩
  obtain ⟨mid, hu⟩ : ∃ mid, follow r.toRotation r⁻¹.toRotation start 0 u = .ok mid := by
    cases hword <;> exact follow_of_append hw
  have hrest : follow r.toRotation r⁻¹.toRotation mid (0 + u.length + 2) v = .ok w := by
    cases hword with
    | leftRight =>
      rw [follow_append, hu] at hw
      exact (follow_opposite_turns r mid _ v).1 ▸ hw
    | rightLeft =>
      rw [follow_append, hu] at hw
      exact (follow_opposite_turns r mid _ v).2 ▸ hw
  rw [follow_append, hu]
  exact follow_ok_from hrest _

/-- Wherever a walk has got to, its turtle and the saved ones have headings of length one. -/
theorem squaredLength_heading (r : PureRotation α) {u : Word} {w : Walk α} {p : Nat}
    (h : follow r.toRotation r⁻¹.toRotation start p u = .ok w) :
    ∀ t ∈ w.turtle :: w.saved, t.heading.squaredLength = 1 := by
  intro t ht
  obtain ⟨k, hk⟩ := List.mem_iff_getElem?.1 ht
  rw [(retraces_of_follow h).stands k t hk]
  exact Turtle.squaredLength_heading_along r _

/-- Each segment leads where the turns on the path to it have led. -/
theorem map_span_segments (r : PureRotation α) {word : Word} {g : Geometry α}
    (h : Walk.draw r.toRotation r⁻¹.toRotation word = .ok g) :
    g.segments.map Segment.span =
      word.drawnAt.map fun i => (r ^ (Word.path (word.take i)).turns).turn ⟨1, 0⟩ := by
  obtain ⟨w, hw, rfl⟩ := draw_eq_ok_iff.1 h
  rw [segments_geometry, (retraces_of_follow hw).drawn, List.map_map]
  refine List.map_congr_left fun i _ => ?_
  rw [Function.comp_apply, Turtle.span_stroke, Turtle.heading_along]

/-- **Headings are rotations of the first one.** Let the coordinates be those of any commutative ring and
    let the turtle turn by a sine and a cosine whose squares add up to one. Where a word can be drawn, the
    turtle and all saved turtles have headings of length one after every part of the word; the segment
    drawn at a position leads where the first heading is turned to by as many turns as the path to the
    position makes to the left more than to the right; so all segments are of length one, and two
    neighbouring turns, one to the left and one to the right, may be left out of the word. -/
theorem spans_of_draw_ok (sine cosine : α) (onCircle : sine ^ 2 + cosine ^ 2 = 1) {word : Word}
    {g : Geometry α} (h : Walk.draw ⟨sine, cosine⟩ ⟨-sine, cosine⟩ word = .ok g) :
    let r : PureRotation α := ⟨⟨sine, cosine⟩, onCircle⟩
    (∀ u : Word, u <+: word → ∃ w : Walk α,
      follow ⟨sine, cosine⟩ ⟨-sine, cosine⟩ start 0 u = .ok w ∧
        ∀ t ∈ w.turtle :: w.saved, t.heading.squaredLength = 1) ∧
    (∀ i p, Word.Prunes (word.take i) p ↔ p = Word.path (word.take i)) ∧
    g.segments.map Segment.span =
      word.drawnAt.map (fun i => (r ^ (Word.path (word.take i)).turns).turn ⟨1, 0⟩) ∧
    (∀ s ∈ g.segments, s.span.squaredLength = 1) ∧
    ∀ u v : Word, word.InsertsTurns u v →
      Walk.draw ⟨sine, cosine⟩ ⟨-sine, cosine⟩ (u ++ v) = .ok g := by
  intro r
  have hspans := map_span_segments r h
  refine ⟨?_, ?_, hspans, ?_, ?_⟩
  · rintro u ⟨v, rfl⟩
    obtain ⟨w, hw, -⟩ := draw_eq_ok_iff.1 h
    obtain ⟨mid, hmid⟩ := follow_of_append hw
    exact ⟨mid, hmid, squaredLength_heading r hmid⟩
  · intro i p
    apply Word.prunes_iff
    intro u hu
    exact not_overclosed_of_draw_ok h (hu.trans (List.take_prefix i word))
  · intro s hs
    have hspan : s.span ∈ g.segments.map Segment.span := List.mem_map_of_mem hs
    rw [hspans] at hspan
    obtain ⟨i, -, hi⟩ := List.mem_map.1 hspan
    rw [← hi, PureRotation.squaredLength_turn]
    simp [Vec.squaredLength]
  · intro u v hword
    exact draw_of_insertsTurns r hword h

/-- Of rational numbers the lesser and the greater one. -/
instance : Extremes ℚ := ⟨min, max⟩

/-- With a sine of three fifths and a cosine of four: a branch to the left, and the stem to the right. -/
theorem spans_of_branch :
    ∃ g, Walk.draw ⟨(3 : ℚ) / 5, 4 / 5⟩ ⟨-(3 / 5), 4 / 5⟩
        ['A', '[', '+', 'A', '+', '-', ']', '-', 'A'] = .ok g ∧
      g.segments.map Segment.span = [⟨1, 0⟩, ⟨4 / 5, 3 / 5⟩, ⟨4 / 5, -(3 / 5)⟩] ∧
      Walk.draw ⟨(3 : ℚ) / 5, 4 / 5⟩ ⟨-(3 / 5), 4 / 5⟩ ['A', '[', '+', 'A', ']', '-', 'A'] = .ok g := by
  obtain ⟨g, hg⟩ : ∃ g, Walk.draw ⟨(3 : ℚ) / 5, 4 / 5⟩ ⟨-(3 / 5), 4 / 5⟩
      ['A', '[', '+', 'A', '+', '-', ']', '-', 'A'] = .ok g := ⟨_, rfl⟩
  obtain ⟨-, -, hspans, -, hshorter⟩ := spans_of_draw_ok ((3 : ℚ) / 5) (4 / 5) (by norm_num) hg
  refine ⟨g, hg, ?_, hshorter _ _ (.leftRight ['A', '[', '+', 'A'] [']', '-', 'A'])⟩
  rw [hspans]
  decide +kernel

end Walk

end LSystem
