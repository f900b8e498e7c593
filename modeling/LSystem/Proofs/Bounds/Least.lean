import LSystem.Proofs.Bounds.Growth
import Mathlib.Order.Bounds.Basic
set_option autoImplicit false

/-! # The least box around a box and some points

A box may start out inverted, infinite or with sides that are NaN. Growing moves each side to the outermost
of the numbers that are offered to it, the one it starts from among them, and a side is NaN only as long as
no number has been offered (`Bounds.isLeastAround_foldl_enclose`). So neither the order of the points nor a
repetition can be seen in the result. A point without NaN lies in the box once it has been enclosed, whatever
the box was before, and what lies in a box lies in it for good. -/

namespace LSystem

namespace Binary64

/-! ## The outermost of some floats -/

/-- Those of some floats that are numbers. -/
def numbers (xs : List Float) : Set Float := {x | x ∈ xs ∧ ¬ x.isNaN}

/-- `m` is the least of the numbers among `xs`, and NaN where there is none. -/
def IsLeastNumber (xs : List Float) (m : Float) : Prop :=
  IsLeast (numbers xs) m ∨ numbers xs = ∅ ∧ m.isNaN

/-- `m` is the greatest of the numbers among `xs`, and NaN where there is none. -/
def IsGreatestNumber (xs : List Float) (m : Float) : Prop :=
  IsGreatest (numbers xs) m ∨ numbers xs = ∅ ∧ m.isNaN

variable {xs : List Float} {a m x : Float}

theorem IsLeastNumber.le (h : IsLeastNumber xs m) (hx : x ∈ numbers xs) : m ≤ x := by
  rcases h with ⟨-, hlower⟩ | ⟨hempty, -⟩
  · exact hlower hx
  · rw [hempty] at hx
    exact hx.elim

theorem IsGreatestNumber.le (h : IsGreatestNumber xs m) (hx : x ∈ numbers xs) : x ≤ m := by
  rcases h with ⟨-, hupper⟩ | ⟨hempty, -⟩
  · exact hupper hx
  · rw [hempty] at hx
    exact hx.elim

/-- A bound from which the choice starts out stays a bound. -/
theorem IsLeastNumber.le_of_le (h : IsLeastNumber (a :: xs) m) (hx : a ≤ x) : m ≤ x :=
  le_of_le_of_le (h.le ⟨List.mem_cons_self, (not_isNaN_of_le hx).1⟩) hx

theorem IsGreatestNumber.le_of_le (h : IsGreatestNumber (a :: xs) m) (hx : x ≤ a) : x ≤ m :=
  le_of_le_of_le hx (h.le ⟨List.mem_cons_self, (not_isNaN_of_le hx).2⟩)

theorem IsLeastNumber.not_isNaN (h : IsLeastNumber (a :: xs) m) (ha : ¬ a.isNaN) : ¬ m.isNaN :=
  (not_isNaN_of_le (h.le ⟨List.mem_cons_self, ha⟩)).1

theorem IsGreatestNumber.not_isNaN (h : IsGreatestNumber (a :: xs) m) (ha : ¬ a.isNaN) : ¬ m.isNaN :=
  (not_isNaN_of_le (h.le ⟨List.mem_cons_self, ha⟩)).2

end Binary64

open Binary64

/-! ## Choosing one by one -/

/-- One number is chosen that comes before all others, or there is none to choose. -/
theorem Picks.foldl_numbers {pick : Float → Float → Float} {r : Int → Int → Prop} (h : Picks pick r)
    (xs : List Float) (a : Float) :
    (xs.foldl pick a ∈ numbers (a :: xs) ∧ ∀ x ∈ numbers (a :: xs),
      ∃ i j, rank (xs.foldl pick a) = some i ∧ rank x = some j ∧ r i j) ∨
    numbers (a :: xs) = ∅ ∧ (xs.foldl pick a).isNaN := by
  have hfirst : ∀ x ∈ numbers (a :: xs),
      ∃ i j, rank (xs.foldl pick a) = some i ∧ rank x = some j ∧ r i j := by
    rintro x ⟨hx, hnumber⟩
    obtain ⟨j, hj⟩ := exists_rank_of_not_isNaN hnumber
    obtain ⟨i, hi, hij⟩ := h.rank_foldl_of_mem_cons hx hj
    exact ⟨i, j, hi, hj, hij⟩
  by_cases hnan : (xs.foldl pick a).isNaN
  · refine .inr ⟨Set.eq_empty_of_forall_notMem ?_, hnan⟩
    intro x hx
    obtain ⟨i, j, hi, -⟩ := hfirst x hx
    exact not_isNaN_of_rank hi hnan
  · exact .inl ⟨⟨h.foldl_mem xs a, hnan⟩, hfirst⟩

theorem isLeastNumber_foldl_lesser (xs : List Float) (a : Float) :
    IsLeastNumber (a :: xs) (xs.foldl lesser a) := by
  rcases picks_lesser.foldl_numbers xs a with ⟨hmem, hfirst⟩ | hnone
  · exact .inl ⟨hmem, fun x hx => le_iff_rank.2 (hfirst x hx)⟩
  · exact .inr hnone

theorem isGreatestNumber_foldl_greater (xs : List Float) (a : Float) :
    IsGreatestNumber (a :: xs) (xs.foldl greater a) := by
  rcases picks_greater.foldl_numbers xs a with ⟨hmem, hfirst⟩ | hnone
  · refine .inl ⟨hmem, ?_⟩
    intro x hx
    obtain ⟨i, j, hi, hj, hji⟩ := hfirst x hx
    exact le_iff_rank.2 ⟨j, i, hj, hi, hji⟩
  · exact .inr hnone

/-! ## Boxes -/

namespace Bounds

/-- Each side of `c` is at the outermost of the numbers among that side of `b` and the coordinates of `ps`. -/
structure IsLeastAround (b : Bounds Float) (ps : List Point) (c : Bounds Float) : Prop where
  left : IsLeastNumber (b.min.x :: ps.map (·.x)) c.min.x
  bottom : IsLeastNumber (b.min.y :: ps.map (·.y)) c.min.y
  right : IsGreatestNumber (b.max.x :: ps.map (·.x)) c.max.x
  top : IsGreatestNumber (b.max.y :: ps.map (·.y)) c.max.y

theorem isLeastAround_foldl_enclose (b : Bounds Float) (ps : List Point) :
    b.IsLeastAround ps (ps.foldl enclose b) := by
  rw [foldl_enclose]
  refine ⟨?_, ?_, ?_, ?_⟩
  · exact isLeastNumber_foldl_lesser _ _
  · exact isLeastNumber_foldl_lesser _ _
  · exact isGreatestNumber_foldl_greater _ _
  · exact isGreatestNumber_foldl_greater _ _

/-! ### Sides that are numbers -/

/-- No side of the box is NaN. -/
structure IsNumeric (b : Bounds Float) : Prop where
  left : ¬ b.min.x.isNaN
  bottom : ¬ b.min.y.isNaN
  right : ¬ b.max.x.isNaN
  top : ¬ b.max.y.isNaN

theorem isNumeric_atOrigin : IsNumeric .atOrigin :=
  have hzero : ¬ (0 : Float).isNaN := not_isNaN_of_rank rank_zero
  ⟨hzero, hzero, hzero, hzero⟩

theorem IsLeastAround.isNumeric {b c : Bounds Float} {ps : List Point} (h : b.IsLeastAround ps c)
    (hb : b.IsNumeric) : c.IsNumeric :=
  ⟨h.left.not_isNaN hb.left, h.bottom.not_isNaN hb.bottom, h.right.not_isNaN hb.right,
    h.top.not_isNaN hb.top⟩

/-- Boxes are equal as numbers where they are alike and have numbers for sides. -/
theorem Alike.same_of_isNumeric {b c : Bounds Float} (h : b.Alike c) (hb : b.IsNumeric) :
    b.same c = true := by
  have hequal : ∀ {x y : Float}, ¬ x.isNaN → rank x = rank y → Binary64.same x y = true := by
    intro x y hx hxy
    obtain ⟨i, hi⟩ := exists_rank_of_not_isNaN hx
    rw [Binary64.same, ← hxy, hi]
    simp
  simp only [same, Vec.same, Bool.and_eq_true]
  exact ⟨⟨hequal hb.left h.left, hequal hb.bottom h.bottom⟩, hequal hb.right h.right, hequal hb.top h.top⟩

/-- A box that has grown from the origin has numbers for sides. -/
theorem Alike.same {ps : List Point} {c : Bounds Float} (h : (ps.foldl enclose .atOrigin).Alike c) :
    (ps.foldl enclose .atOrigin).same c = true :=
  h.same_of_isNumeric ((isLeastAround_foldl_enclose _ ps).isNumeric isNumeric_atOrigin)

/-! ### What a box contains -/

/-- A box contains what lies between its sides. -/
theorem contains_iff {b : Bounds Float} {p : Point} : b.contains p = true ↔
    (b.min.x ≤ p.x ∧ p.x ≤ b.max.x) ∧ b.min.y ≤ p.y ∧ p.y ≤ b.max.y := by
  simp only [contains, Bool.and_eq_true, atMost_iff_le, and_assoc]

theorem IsLeastAround.contains_of_mem {b c : Bounds Float} {ps : List Point} (h : b.IsLeastAround ps c)
    {p : Point} (hp : p ∈ ps) (hx : ¬ p.x.isNaN) (hy : ¬ p.y.isNaN) : c.contains p = true := by
  have hoffered : ∀ (f : Point → Float) (side : Float), ¬ (f p).isNaN → f p ∈ numbers (side :: ps.map f) :=
    fun f side hnumber => ⟨List.mem_cons_of_mem _ (List.mem_map_of_mem hp), hnumber⟩
  exact contains_iff.2 ⟨⟨h.left.le (hoffered (·.x) _ hx), h.right.le (hoffered (·.x) _ hx)⟩,
    h.bottom.le (hoffered (·.y) _ hy), h.top.le (hoffered (·.y) _ hy)⟩

theorem IsLeastAround.contains_of_contains {b c : Bounds Float} {ps : List Point}
    (h : b.IsLeastAround ps c) {q : Point} (hq : b.contains q = true) : c.contains q = true := by
  obtain ⟨⟨hleft, hright⟩, hbottom, htop⟩ := contains_iff.1 hq
  exact contains_iff.2 ⟨⟨h.left.le_of_le hleft, h.right.le_of_le hright⟩,
    h.bottom.le_of_le hbottom, h.top.le_of_le htop⟩

/-- **A box grown by points is the least one around them and the box it was.** Each side is at the outermost of
    the numbers among its start and the coordinates of the points, and NaN only where there is none. So the
    box comes out the same in whatever order the points are enclosed, and if some are enclosed again; it contains
    every one of them that has no NaN, and all that it contained before. The last holds of any start, as a box
    with a side that is NaN contains nothing. -/
theorem enclosing_law (b : Bounds Float) (ps : List Point) :
    let grown := ps.foldl enclose b
    b.IsLeastAround ps grown ∧
    (∀ qs : List Point, (∀ p, p ∈ qs ↔ p ∈ ps) →
      grown.Alike (qs.foldl enclose b) ∧ (b.IsNumeric → grown.same (qs.foldl enclose b) = true)) ∧
    (∀ p ∈ ps, ¬ p.x.isNaN → ¬ p.y.isNaN → grown.contains p = true) ∧
    ∀ q, b.contains q = true → grown.contains q = true := by
  intro grown
  have hleast : b.IsLeastAround ps grown := isLeastAround_foldl_enclose b ps
  refine ⟨hleast, ?_, ?_, ?_⟩
  · intro qs hsame
    have halike : grown.Alike (qs.foldl enclose b) := alike_foldl_enclose b fun p => (hsame p).symm
    exact ⟨halike, fun hb => halike.same_of_isNumeric (hleast.isNumeric hb)⟩
  · intro p hp hx hy
    exact hleast.contains_of_mem hp hx hy
  · intro q hq
    exact hleast.contains_of_contains hq

-- The box is inverted, infinite to the left and right, and its lower side is NaN.
example :
    let nan : Float := 0.0 / 0.0
    let b : Bounds Float := ⟨⟨1.0 / 0.0, nan⟩, ⟨-1.0 / 0.0, 3.0⟩⟩
    let grown := [⟨2.0, -1.0⟩, ⟨nan, 5.0⟩].foldl enclose b
    b.contains ⟨2.0, -1.0⟩ = false ∧ grown.contains ⟨2.0, -1.0⟩ = true ∧
      grown.same ⟨⟨2.0, -1.0⟩, ⟨2.0, 5.0⟩⟩ = true := by
  decide +kernel

end Bounds

end LSystem
