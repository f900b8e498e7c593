import LSystem.Proofs.Binary64.Sign
import LSystem.Proofs.Drawing.Hull
set_option autoImplicit false

/-! # Left and right

A word with its turns exchanged is drawn as the word itself is with the turns of the turtle exchanged
(`draw_swapTurns`), which is to draw it by the opposite angle. And as rounding prefers no sign, the turtle
that turns the other way walks the mirror image: `Mirrored` goes with two walks step by step. The sign of a
zero need not be the opposite one, so points are compared as numbers. -/

namespace LSystem

open Binary64 (Signed rank choose_congr rank_choose lesser_eq_choose greater_eq_choose)

/-! ## Words -/

/-- The turn the other way; every other symbol stays. -/
def Symbol.swapTurn (c : Symbol) : Symbol := if c = '+' then '-' else if c = '-' then '+' else c

/-- The word with its turns exchanged. -/
def Word.swapTurns (word : Word) : Word := word.map Symbol.swapTurn

namespace Walk

section

variable {α : Type} [Add α] [Sub α] [Mul α] [Extremes α]

theorem act_swapTurn (left right : Rotation α) (w : Walk α) (c : Symbol) :
    w.act left right (.ofSymbol c.swapTurn) = w.act right left (.ofSymbol c) := by
  unfold Symbol.swapTurn
  split_ifs with hplus hminus
  · rw [hplus]
    rfl
  · rw [hminus]
    rfl
  · have hc := Action.ofSymbol_spec c
    cases h : Action.ofSymbol c <;> rw [h] at hc
    case left => exact absurd hc hplus
    case right => exact absurd hc hminus
    all_goals rfl

theorem follow_swapTurns (left right : Rotation α) (w : Walk α) (p : Nat) (word : Word) :
    follow left right w p word.swapTurns = follow right left w p word := by
  induction word generalizing w p with
  | nil => rfl
  | cons c cs ih =>
    show follow left right w p (c.swapTurn :: Word.swapTurns cs) = _
    rw [follow, follow, act_swapTurn]
    cases w.act right left (.ofSymbol c) with
    | none => rfl
    | some next => exact ih next (p + 1)

/-- To exchange the turns of a word is to exchange those of the turtle. -/
theorem draw_swapTurns [OfNat α 0] [OfNat α 1] (left right : Rotation α) (word : Word) :
    Walk.draw left right word.swapTurns = Walk.draw right left word := by
  rw [draw, draw, follow_swapTurns]

end

end Walk

theorem Rotation.ofAngle_neg (angle : Float) :
    ofAngle (-angle) = ⟨-(ofAngle angle).sine, (ofAngle angle).cosine⟩ :=
  congrArg (fun p => Rotation.mk p.1 p.2) (Binary64.sineCosine_neg angle)

/-! ## Mirror images -/

/-- The second of two points is the first one mirrored at the first axis. -/
structure Vec.Mirrored (p q : Point) : Prop where
  x : Signed .positive p.x q.x
  y : Signed .negative p.y q.y

/-- Two rotations of which each turns as far as the other, but the other way. -/
structure Rotation.Opposite (r r' : Rotation Float) : Prop where
  sine : Signed .negative r.sine r'.sine
  cosine : Signed .positive r.cosine r'.cosine

namespace Vec.Mirrored

variable {p p' q q' : Point}

theorem zero : Mirrored 0 0 := ⟨.zero _, .zero _⟩

theorem add (hp : Mirrored p p') (hq : Mirrored q q') : Mirrored (p + q) (p' + q') :=
  ⟨hp.x.add hq.x, hp.y.add hq.y⟩

theorem rotate {r r' : Rotation Float} (hp : Mirrored p p') (hr : r.Opposite r') :
    Mirrored (p.rotate r) (p'.rotate r') :=
  ⟨(hr.cosine.mul hp.x).sub (hr.sine.mul hp.y), (hr.sine.mul hp.x).add (hr.cosine.mul hp.y)⟩

end Vec.Mirrored

/-- The second of two turtles stands and looks where the first one does in the mirror. -/
structure Turtle.Mirrored (t t' : Turtle Float) : Prop where
  position : t.position.Mirrored t'.position
  heading : t.heading.Mirrored t'.heading

namespace Turtle.Mirrored

variable {t t' : Turtle Float}

theorem start : Mirrored .start .start := ⟨.zero, .refl 1, .zero _⟩

theorem step (h : Mirrored t t') : Mirrored t.step t'.step :=
  ⟨h.position.add h.heading, h.heading⟩

theorem turn {r r' : Rotation Float} (h : Mirrored t t') (hr : r.Opposite r') :
    Mirrored (t.turn r) (t'.turn r') :=
  ⟨h.position, h.heading.rotate hr⟩

end Turtle.Mirrored

/-- The second of two boxes around the origin is the first one mirrored at the first axis. The sides to the
    left and to the right are the same bit for bit, as they have grown from `+0`. -/
structure Bounds.Mirrored (b b' : Bounds Float) : Prop where
  left : b'.min.x = b.min.x
  left_nonpos : ∃ i, rank b.min.x = some i ∧ ¬ i > 0
  right : b'.max.x = b.max.x
  right_nonneg : ∃ i, rank b.max.x = some i ∧ ¬ i < 0
  bottom : Signed .negative b.max.y b'.min.y
  top : Signed .negative b.min.y b'.max.y

namespace Bounds.Mirrored

theorem atOrigin : Mirrored .atOrigin .atOrigin where
  left := rfl
  left_nonpos := ⟨0, rfl, by decide⟩
  right := rfl
  right_nonneg := ⟨0, rfl, by decide⟩
  bottom := .zero _
  top := .zero _

theorem enclose {b b' : Bounds Float} {p p' : Point} (h : Mirrored b b') (hp : p.Mirrored p') :
    Mirrored (b.enclose p) (b'.enclose p') := by
  obtain ⟨hleft, ⟨i, hi, hi0⟩, hright, ⟨j, hj, hj0⟩, hbottom, htop⟩ := h
  refine ⟨?_, ?_, ?_, ?_, ?_, ?_⟩
  · show Binary64.lesser b'.min.x p'.x = Binary64.lesser b.min.x p.x
    rw [hleft, lesser_eq_choose]
    exact (choose_congr hi hi0 hp.x).symm
  · exact rank_choose (r := (· < ·)) lt_trans hi hi0 p.x
  · show Binary64.greater b'.max.x p'.x = Binary64.greater b.max.x p.x
    rw [hright, greater_eq_choose]
    exact (choose_congr hj hj0 hp.x).symm
  · exact rank_choose (r := (· > ·)) gt_trans hj hj0 p.x
  · exact hbottom.choose (r := (· > ·)) (q := (· < ·)) (fun _ _ => neg_lt_neg_iff) hp.y
  · exact htop.choose (r := (· < ·)) (q := (· > ·)) (fun _ _ => neg_lt_neg_iff) hp.y

end Bounds.Mirrored

/-- Both ends of a segment are mirrored. -/
structure Segment.Mirrored (s s' : Segment Float) : Prop where
  start : s.start.Mirrored s'.start
  stop : s.stop.Mirrored s'.stop

/-- All of the second of two walks is that of the first one in the mirror. -/
structure Walk.Mirrored (w w' : Walk Float) : Prop where
  turtle : w.turtle.Mirrored w'.turtle
  saved : List.Forall₂ Turtle.Mirrored w.saved w'.saved
  bounds : w.bounds.Mirrored w'.bounds
  drawn : List.Forall₂ Segment.Mirrored w.drawn w'.drawn

namespace Walk.Mirrored

variable {w w' v : Walk Float} {left right left' right' : Rotation Float}

theorem start : Mirrored .start .start := ⟨.start, .nil, .atOrigin, .nil⟩

/-- One action keeps the image, and where one turtle can take it so can the other. -/
theorem act (hleft : left.Opposite left') (hright : right.Opposite right') {a : Action}
    (h : Mirrored w w') (hv : w.act left right a = some v) :
    ∃ v', w'.act left' right' a = some v' ∧ Mirrored v v' := by
  obtain ⟨hturtle, hsaved, hbounds, hdrawn⟩ := h
  cases a with
  | draw =>
    obtain rfl := Option.some.inj hv
    have hstep := hturtle.step
    exact ⟨_, rfl, hstep, hsaved, hbounds.enclose hstep.position,
      .cons ⟨hturtle.position, hstep.position⟩ hdrawn⟩
  | left =>
    obtain rfl := Option.some.inj hv
    exact ⟨_, rfl, hturtle.turn hleft, hsaved, hbounds, hdrawn⟩
  | right =>
    obtain rfl := Option.some.inj hv
    exact ⟨_, rfl, hturtle.turn hright, hsaved, hbounds, hdrawn⟩
  | save =>
    obtain rfl := Option.some.inj hv
    exact ⟨_, rfl, hturtle, .cons hturtle hsaved, hbounds, hdrawn⟩
  | restore =>
    cases hs : w.saved with
    | nil => simp [Walk.act, hs] at hv
    | cons t ts =>
      rw [hs] at hsaved
      obtain ⟨t', ts', ht, hts, hs'⟩ := List.forall₂_cons_left_iff.1 hsaved
      simp only [Walk.act, hs] at hv
      obtain rfl := Option.some.inj hv
      exact ⟨{ w' with turtle := t', saved := ts' }, by simp only [Walk.act, hs'], ht, hts, hbounds,
        hdrawn⟩
  | pass =>
    obtain rfl := Option.some.inj hv
    exact ⟨_, rfl, hturtle, hsaved, hbounds, hdrawn⟩

theorem points (h : Mirrored w w') :
    List.Forall₂ Vec.Mirrored w.geometry.points w'.geometry.points := by
  refine List.rel_flatMap (List.rel_reverse h.drawn) ?_
  intro s s' hs
  exact .cons hs.start (.cons hs.stop .nil)

end Walk.Mirrored

/-! ## Drawings -/

/-- No coordinate is NaN. -/
def Geometry.IsNumeric (g : Geometry Float) : Prop := ∀ p ∈ g.points, ¬ p.x.isNaN ∧ ¬ p.y.isNaN

instance (g : Geometry Float) : Decidable g.IsNumeric :=
  inferInstanceAs (Decidable (∀ p ∈ g.points, ¬ p.x.isNaN ∧ ¬ p.y.isNaN))

/-- The second of two drawings is the first one mirrored at the first axis. -/
structure Geometry.Mirrored (g h : Geometry Float) : Prop where
  points : List.Forall₂ (fun p q => q.x == p.x ∧ q.y == -p.y) g.points h.points
  left : h.bounds.min.x = g.bounds.min.x
  right : h.bounds.max.x = g.bounds.max.x
  bottom : h.bounds.min.y == -g.bounds.max.y
  top : h.bounds.max.y == -g.bounds.min.y

/-- Turtles that turn opposite ways draw mirror images. -/
theorem Walk.exists_mirrored_of_draw {left right left' right' : Rotation Float} {word : Word}
    {g : Geometry Float} (hleft : left.Opposite left') (hright : right.Opposite right')
    (hg : Walk.draw left right word = .ok g) (hnumbers : g.IsNumeric) :
    ∃ h, Walk.draw left' right' word = .ok h ∧ g.Mirrored h := by
  obtain ⟨w, hw, rfl⟩ := draw_eq_ok_iff.1 hg
  obtain ⟨w', hw', hmirrored⟩ :=
    follow_related (Mirrored.act hleft hright) .start hw 0
  obtain ⟨-, hhull⟩ := (trodden_of_follow hw).isHull
  refine ⟨w'.geometry, draw_eq_ok_iff.2 ⟨w', hw', rfl⟩, ?_, ?_, ?_, ?_, ?_⟩
  · refine ((List.forall₂_and_left _ _).2 ⟨hnumbers, hmirrored.points⟩).imp ?_
    rintro p q ⟨⟨hx, hy⟩, hpq⟩
    exact ⟨hpq.x.beq (.refl p.x) hx, hpq.y.beq (.neg_right p.y) hy⟩
  · exact hmirrored.bounds.left
  · exact hmirrored.bounds.right
  · exact hmirrored.bounds.bottom.beq (.neg_right _) hhull.high_isNumber
  · exact hmirrored.bounds.top.beq (.neg_right _) hhull.low_isNumber

/-- **Left and right are alike.** A word whose turns are exchanged is drawn by an angle exactly as the word
    itself is by the opposite angle, or fails with the same error. Where the word can be drawn and no
    coordinate is NaN, the word whose turns are exchanged is drawn mirrored at the first axis: each point is,
    as numbers, the mirror image of the point in its place, the sides to the left and to the right are the
    same, and those below and above have changed their places and their signs. The latter holds whatever the
    sine and the cosine of the angle are, if only those of the opposite angle are the opposite sine and the
    same cosine. -/
theorem Word.mirrored_of_swapTurns (word : Word) (angle : Float) :
    word.swapTurns.draw angle = word.draw (-angle) ∧
    (∀ g, word.draw angle = .ok g → g.IsNumeric →
      ∃ h, word.swapTurns.draw angle = .ok h ∧ g.Mirrored h) ∧
    ∀ (sine cosine : Float) (g : Geometry Float),
      Walk.draw ⟨sine, cosine⟩ ⟨-sine, cosine⟩ word = .ok g → g.IsNumeric →
        ∃ h, Walk.draw ⟨sine, cosine⟩ ⟨-sine, cosine⟩ word.swapTurns = .ok h ∧ g.Mirrored h := by
  have hturns : ∀ (sine cosine : Float) (g : Geometry Float),
      Walk.draw ⟨sine, cosine⟩ ⟨-sine, cosine⟩ word = .ok g → g.IsNumeric →
        ∃ h, Walk.draw ⟨sine, cosine⟩ ⟨-sine, cosine⟩ word.swapTurns = .ok h ∧ g.Mirrored h := by
    intro sine cosine g hg hnumbers
    have hleft : Rotation.Opposite ⟨sine, cosine⟩ ⟨-sine, cosine⟩ := ⟨.neg_right sine, .refl cosine⟩
    have hright : Rotation.Opposite ⟨-sine, cosine⟩ ⟨sine, cosine⟩ := by
      have hsine := Signed.neg_right (-sine)
      rw [Binary64.neg_neg] at hsine
      exact ⟨hsine, .refl cosine⟩
    rw [Walk.draw_swapTurns]
    exact Walk.exists_mirrored_of_draw hleft hright hg hnumbers
  refine ⟨?_, ?_, hturns⟩
  · rw [draw, draw, Walk.draw_swapTurns, Binary64.neg_neg]
  · unfold draw
    rw [Rotation.ofAngle_neg]
    exact hturns _ _

/-- A branch to the left, drawn to the right. -/
theorem Word.mirrored_of_branch :
    ∃ g h, Walk.draw ⟨0.5, 0.75⟩ ⟨-0.5, 0.75⟩ ['A', '[', '+', 'A', ']', 'A'] = .ok g ∧
      Walk.draw ⟨0.5, 0.75⟩ ⟨-0.5, 0.75⟩ ['A', '[', '-', 'A', ']', 'A'] = .ok h ∧
      g.Mirrored h ∧ g.bounds.max.y = 0.5 := by
  obtain ⟨g, hg⟩ : ∃ g, Walk.draw ⟨0.5, 0.75⟩ ⟨-0.5, 0.75⟩ ['A', '[', '+', 'A', ']', 'A'] = .ok g :=
    ⟨_, rfl⟩
  have hnumbers : g.IsNumeric := by
    cases hg
    decide +kernel
  obtain ⟨-, -, hturns⟩ := mirrored_of_swapTurns ['A', '[', '+', 'A', ']', 'A'] 0
  obtain ⟨h, hh, hmirrored⟩ := hturns _ _ g hg hnumbers
  refine ⟨g, h, hg, hh, hmirrored, ?_⟩
  cases hg
  decide +kernel

end LSystem
