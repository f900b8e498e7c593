import LSystem.Proofs.Drawing.Walk
import LSystem.Proofs.Bounds.Least
set_option autoImplicit false

/-! # The box around a drawing

A walk grows its box by the points it steps to and by no others. That the points it steps from lie in
the box as well is because a turtle, whether it walks or is saved, stands at the origin or where a
segment has ended (`Trodden`). So the box is the hull of the origin and of all points drawn, whatever
becomes of the coordinates: at angles that are not finite they are NaN, and NaN moves no side. -/

namespace LSystem

/-! ## Hulls -/

/-- `low` and `high` are the ends of the least interval around zero and around those of the coordinates
    that are numbers. -/
structure IsHull (low high : Float) (coordinates : List Float) : Prop where
  low_isNumber : ¬ low.isNaN
  high_isNumber : ¬ high.isNaN
  zero_within : low ≤ 0 ∧ 0 ≤ high
  within : ∀ c ∈ coordinates, ¬ c.isNaN → low ≤ c ∧ c ≤ high
  low_reached : low == 0 ∨ ∃ c ∈ coordinates, low == c
  high_reached : high == 0 ∨ ∃ c ∈ coordinates, high == c

namespace IsHull

open Binary64

/-- Growing from zero gives the hull. -/
theorem of_foldl (cs : List Float) : IsHull (cs.foldl lesser 0) (cs.foldl greater 0) cs := by
  have hleast := isLeastNumber_foldl_lesser cs 0
  have hgreatest := isGreatestNumber_foldl_greater cs 0
  have hzero : (0 : Float) ≤ 0 := le_iff_rank.2 ⟨0, 0, rank_zero, rank_zero, Int.le_refl 0⟩
  have hlow := (not_isNaN_of_le (hleast.le_of_le hzero)).1
  have hhigh := (not_isNaN_of_le (hgreatest.le_of_le hzero)).2
  refine ⟨hlow, hhigh, ⟨hleast.le_of_le hzero, hgreatest.le_of_le hzero⟩, ?_, ?_, ?_⟩
  · intro c hc hnumber
    have hoffered : c ∈ numbers (0 :: cs) := ⟨List.mem_cons_of_mem _ hc, hnumber⟩
    exact ⟨hleast.le hoffered, hgreatest.le hoffered⟩
  · rcases List.mem_cons.1 (picks_lesser.foldl_mem cs 0) with hzero | hmem
    · rw [hzero]
      exact .inl rfl
    · exact .inr ⟨_, hmem, Float.beq_self_iff.2 (by simpa using hlow)⟩
  · rcases List.mem_cons.1 (picks_greater.foldl_mem cs 0) with hzero | hmem
    · rw [hzero]
      exact .inl rfl
    · exact .inr ⟨_, hmem, Float.beq_self_iff.2 (by simpa using hhigh)⟩

/-- Zero and what counts already may be added to the coordinates. -/
theorem add {low high : Float} {cs ds : List Float} (h : IsHull low high cs) (hsub : cs ⊆ ds)
    (hadded : ∀ d ∈ ds, d = 0 ∨ d ∈ cs) : IsHull low high ds := by
  obtain ⟨hlow, hhigh, hzero, hwithin, hlowest, hhighest⟩ := h
  refine ⟨hlow, hhigh, hzero, ?_, ?_, ?_⟩
  · intro d hd hnumber
    rcases hadded d hd with rfl | hmem
    · exact hzero
    · exact hwithin d hmem hnumber
  · rcases hlowest with h | ⟨c, hc, h⟩
    · exact .inl h
    · exact .inr ⟨c, hsub hc, h⟩
  · rcases hhighest with h | ⟨c, hc, h⟩
    · exact .inl h
    · exact .inr ⟨c, hsub hc, h⟩

end IsHull

namespace Walk

/-! ## Where a turtle stands -/

/-- The end of a segment is a point of the drawing. -/
theorem mem_points_of_stop {α : Type} (w : Walk α) {p : Vec α} (hp : p ∈ w.drawn.map (·.stop)) :
    p ∈ w.geometry.points := by
  obtain ⟨s, hs, rfl⟩ := List.mem_map.1 hp
  exact List.mem_flatMap.2 ⟨s, List.mem_reverse.2 hs, by simp⟩

variable {α : Type} [OfNat α 0] [Extremes α]

/-- The turtles of a walk stand, and each of its segments starts, at the origin or where an earlier
    segment ends; and the box is the one that these ends make. -/
structure Trodden (w : Walk α) : Prop where
  turtles : ∀ t ∈ w.turtle :: w.saved, t.position = 0 ∨ t.position ∈ w.drawn.map (·.stop)
  starts : ∀ s earlier, s :: earlier <:+ w.drawn → s.start = 0 ∨ s.start ∈ earlier.map (·.stop)
  bounds : w.bounds = (w.drawn.map (·.stop)).foldr (fun p b => b.enclose p) .atOrigin

theorem trodden_start [OfNat α 1] : Trodden (start : Walk α) where
  turtles t ht := by
    obtain rfl : t = .start := by simpa [start] using ht
    exact .inl rfl
  starts s earlier h := by simp [start] at h
  bounds := rfl

/-- A point of a drawing is the origin or the end of a segment. -/
theorem Trodden.mem_points {w : Walk α} (h : Trodden w) {p : Vec α} (hp : p ∈ w.geometry.points) :
    p = 0 ∨ p ∈ w.drawn.map (·.stop) := by
  obtain ⟨s, hs, hps⟩ := List.mem_flatMap.1 hp
  have hs : s ∈ w.drawn := List.mem_reverse.1 hs
  obtain ⟨later, earlier, hdrawn⟩ := List.append_of_mem hs
  rcases List.mem_cons.1 hps with rfl | hstop
  · -- the start of `s` is where a segment drawn before it ends
    refine (h.starts s earlier ⟨later, hdrawn.symm⟩).imp_right fun hmem => ?_
    rw [hdrawn, List.map_append, List.map_cons]
    exact List.mem_append_right _ (List.mem_cons_of_mem _ hmem)
  · obtain rfl : p = s.stop := by simpa using hstop
    exact .inr (List.mem_map_of_mem hs)

variable [Add α] [Sub α] [Mul α] {left right : Rotation α}

theorem Trodden.reads {c : Symbol} {w w' : Walk α} (h : Trodden w) (hr : Reads left right c w w') :
    Trodden w' := by
  obtain ⟨hturtles, hstarts, hbounds⟩ := h
  have hturtle := hturtles w.turtle List.mem_cons_self
  have hsaved : ∀ t ∈ w.saved, t.position = 0 ∨ t.position ∈ w.drawn.map (·.stop) := by
    intro t ht
    exact hturtles t (List.mem_cons_of_mem _ ht)
  have hturned : ∀ t : Turtle α, t.position = w.turtle.position →
      ∀ u ∈ t :: w.saved, u.position = 0 ∨ u.position ∈ w.drawn.map (·.stop) := by
    intro t ht u hu
    rcases List.mem_cons.1 hu with rfl | hu
    · rwa [ht]
    · exact hsaved u hu
  cases hr with
  | draw hc =>
    refine ⟨?_, ?_, by rw [hbounds]; rfl⟩
    · intro t ht
      rcases List.mem_cons.1 ht with rfl | ht
      · exact .inr List.mem_cons_self
      · exact (hsaved t ht).imp_right (List.mem_cons_of_mem _)
    · intro s earlier hsuffix
      rcases List.suffix_cons_iff.1 hsuffix with heq | hsuffix
      · obtain ⟨rfl, rfl⟩ := List.cons.inj heq
        exact hturtle
      · exact hstarts s earlier hsuffix
  | left => exact ⟨hturned _ rfl, hstarts, hbounds⟩
  | right => exact ⟨hturned _ rfl, hstarts, hbounds⟩
  | save =>
    refine ⟨?_, hstarts, hbounds⟩
    intro t ht
    rcases List.mem_cons.1 ht with rfl | ht
    · exact hturtle
    · exact hturtles t ht
  | restore hs =>
    refine ⟨?_, hstarts, hbounds⟩
    intro t ht
    exact hsaved t (hs ▸ ht)
  | pass hc => exact ⟨hturtles, hstarts, hbounds⟩

theorem trodden_of_follow [OfNat α 1] {word : Word} {w : Walk α} {p : Nat}
    (h : follow left right start p word = .ok w) : Trodden w := by
  refine follow_invariant (P := fun _ w => Trodden w) ?_ (u := []) trodden_start h
  intro u c v v' hv hr
  exact hv.reads hr

end Walk

/-! ## The box -/

/-- The box of a walk is the hull of the origin and of all points drawn. -/
theorem Walk.Trodden.isHull {w : Walk Float} (h : Trodden w) :
    IsHull w.bounds.min.x w.bounds.max.x (w.geometry.points.map (·.x)) ∧
      IsHull w.bounds.min.y w.bounds.max.y (w.geometry.points.map (·.y)) := by
  -- what holds of one coordinate of the ends holds of that coordinate of all points
  have hall : ∀ (f : Point → Float) (low high : Float), f 0 = 0 →
      IsHull low high ((w.drawn.map (·.stop)).reverse.map f) →
      IsHull low high (w.geometry.points.map f) := by
    intro f low high hzero hends
    refine hends.add ?_ ?_
    · intro c hc
      obtain ⟨p, hp, rfl⟩ := List.mem_map.1 hc
      exact List.mem_map_of_mem (w.mem_points_of_stop (List.mem_reverse.1 hp))
    · intro d hd
      obtain ⟨p, hp, rfl⟩ := List.mem_map.1 hd
      rcases h.mem_points hp with rfl | hstop
      · exact .inl hzero
      · exact .inr (List.mem_map_of_mem (List.mem_reverse.2 hstop))
  have hbounds : w.bounds = (w.drawn.map (·.stop)).reverse.foldl Bounds.enclose .atOrigin := by
    rw [h.bounds, List.foldr_eq_foldl_reverse]
  rw [hbounds, Bounds.foldl_enclose]
  exact ⟨hall (·.x) _ _ rfl (.of_foldl _), hall (·.y) _ _ rfl (.of_foldl _)⟩

/-- What lies between the sides lies in the box. -/
theorem Bounds.contains_of_le {b : Bounds Float} {p : Point} (hx : b.min.x ≤ p.x ∧ p.x ≤ b.max.x)
    (hy : b.min.y ≤ p.y ∧ p.y ≤ b.max.y) : b.contains p = true :=
  contains_iff.2 ⟨hx, hy⟩

/-- **The box of a drawing is the hull of the origin and of all its points.** It has no side that is NaN,
    every coordinate that is a number lies between its sides, and each side is at zero or at some point.
    So the box contains the origin and every point that has no NaN. -/
theorem Word.bounds_of_draw_ok {word : Word} {angle : Float} {g : Geometry Float}
    (h : word.draw angle = .ok g) :
    IsHull g.bounds.min.x g.bounds.max.x (g.points.map (·.x)) ∧
    IsHull g.bounds.min.y g.bounds.max.y (g.points.map (·.y)) ∧
    g.bounds.contains 0 = true ∧
    ∀ p ∈ g.points, ¬ p.x.isNaN → ¬ p.y.isNaN → g.bounds.contains p = true := by
  obtain ⟨w, hw, rfl⟩ := Walk.draw_eq_ok_iff.1 h
  obtain ⟨hx, hy⟩ := (Walk.trodden_of_follow hw).isHull
  refine ⟨hx, hy, Bounds.contains_of_le hx.zero_within hy.zero_within, ?_⟩
  intro p hp hpx hpy
  exact Bounds.contains_of_le (hx.within p.x (List.mem_map_of_mem hp) hpx)
    (hy.within p.y (List.mem_map_of_mem hp) hpy)

/-- A branch that turns by NaN leads nowhere, and the box is that of the stem. -/
theorem Word.bounds_of_lost_branch :
    ∃ g, Word.draw ['A', '[', '+', 'A', ']', 'A'] (0.0 / 0.0) = .ok g ∧
      (g.points.map fun p => p.x.isNaN) = [false, false, false, true, false, false] ∧
      IsHull g.bounds.min.x g.bounds.max.x (g.points.map (·.x)) ∧
      g.bounds.max.x == 2 ∧ g.bounds.contains 0 = true := by
  obtain ⟨g, hg⟩ : ∃ g, Word.draw ['A', '[', '+', 'A', ']', 'A'] (0.0 / 0.0) = .ok g := ⟨_, rfl⟩
  obtain ⟨hx, -, horigin, -⟩ := bounds_of_draw_ok hg
  refine ⟨g, hg, ?_, hx, ?_, horigin⟩ <;> cases hg <;> decide +kernel

end LSystem
