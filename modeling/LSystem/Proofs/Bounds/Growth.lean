import LSystem.Proofs.Binary64.Order
import LSystem.Bounds
set_option autoImplicit false

/-! # Boxes grown by many points

A box grows coordinate by coordinate, so what it comes to after many points is four folds, two of
`lesser` and two of `greater` (`foldl_enclose`). Both choose one of two floats by its rank and pass over
NaN; they differ in the direction in which they read the ranks, so what a fold of such a choice comes
to is proved once, for either direction (`Picks`). -/

namespace LSystem

open Binary64 (rank)

/-! ## Choosing by rank -/

/-- `pick` chooses of two floats the one whose rank comes first by `r`, or the one that has a rank. -/
structure Picks (pick : Float → Float → Float) (r : Int → Int → Prop) : Prop where
  eq_or (a b : Float) : pick a b = a ∨ pick a b = b
  skip_left {a : Float} (b : Float) (ha : rank a = none) : pick a b = b
  skip_right {a b : Float} {i : Int} (ha : rank a = some i) (hb : rank b = none) : pick a b = a
  first {a b : Float} {i j : Int} (ha : rank a = some i) (hb : rank b = some j) :
    ∃ k, rank (pick a b) = some k ∧ r k i ∧ r k j
  refl (i : Int) : r i i
  trans {i j k : Int} (hij : r i j) (hjk : r j k) : r i k

theorem picks_lesser : Picks Binary64.lesser (· ≤ ·) where
  eq_or a b := by
    unfold Binary64.lesser
    split
    · exact .inr rfl
    · exact .inl rfl
    · split
      · exact .inr rfl
      · exact .inl rfl
  skip_left b ha := by rw [Binary64.lesser, ha]
  skip_right ha hb := by rw [Binary64.lesser, ha, hb]
  first ha hb := ⟨_, by rw [Binary64.rank_lesser, ha, hb], Int.min_le_left _ _, Int.min_le_right _ _⟩
  refl := Int.le_refl
  trans := Int.le_trans

theorem picks_greater : Picks Binary64.greater (· ≥ ·) where
  eq_or a b := by
    unfold Binary64.greater
    split
    · exact .inr rfl
    · exact .inl rfl
    · split
      · exact .inr rfl
      · exact .inl rfl
  skip_left b ha := by rw [Binary64.greater, ha]
  skip_right ha hb := by rw [Binary64.greater, ha, hb]
  first ha hb := ⟨_, by rw [Binary64.rank_greater, ha, hb], Int.le_max_left _ _, Int.le_max_right _ _⟩
  refl := Int.le_refl
  trans hij hjk := Int.le_trans hjk hij

namespace Picks

variable {pick : Float → Float → Float} {r : Int → Int → Prop}

theorem rank_left (h : Picks pick r) {a : Float} {i : Int} (ha : rank a = some i) (b : Float) :
    ∃ k, rank (pick a b) = some k ∧ r k i := by
  cases hb : rank b with
  | none => exact ⟨i, by rw [h.skip_right ha hb, ha], h.refl i⟩
  | some j =>
    obtain ⟨k, hk, hki, -⟩ := h.first ha hb
    exact ⟨k, hk, hki⟩

theorem rank_right (h : Picks pick r) (a : Float) {b : Float} {j : Int} (hb : rank b = some j) :
    ∃ k, rank (pick a b) = some k ∧ r k j := by
  cases ha : rank a with
  | none => exact ⟨j, by rw [h.skip_left b ha, hb], h.refl j⟩
  | some i =>
    obtain ⟨k, hk, -, hkj⟩ := h.first ha hb
    exact ⟨k, hk, hkj⟩

/-! ### Choosing among many -/

/-- Nothing but what is offered is chosen. -/
theorem foldl_mem (h : Picks pick r) (xs : List Float) (a : Float) : xs.foldl pick a ∈ a :: xs := by
  induction xs generalizing a with
  | nil => exact List.mem_cons_self
  | cons x xs ih =>
    rw [List.foldl_cons]
    rcases List.mem_cons.1 (ih (pick a x)) with hfirst | hrest
    · rcases h.eq_or a x with heq | heq
      · rw [hfirst, heq]
        exact List.mem_cons_self
      · rw [hfirst, heq]
        exact List.mem_cons_of_mem _ List.mem_cons_self
    · exact List.mem_cons_of_mem _ (List.mem_cons_of_mem _ hrest)

theorem rank_foldl_start (h : Picks pick r) (xs : List Float) {a : Float} {i : Int}
    (ha : rank a = some i) : ∃ k, rank (xs.foldl pick a) = some k ∧ r k i := by
  induction xs generalizing a i with
  | nil => exact ⟨i, ha, h.refl i⟩
  | cons x xs ih =>
    obtain ⟨j, hj, hji⟩ := h.rank_left ha x
    obtain ⟨k, hk, hkj⟩ := ih hj
    exact ⟨k, hk, h.trans hkj hji⟩

/-- What is chosen comes before everything that is offered. -/
theorem rank_foldl_of_mem (h : Picks pick r) {xs : List Float} (a : Float) {x : Float} {i : Int}
    (hx : x ∈ xs) (hi : rank x = some i) : ∃ k, rank (xs.foldl pick a) = some k ∧ r k i := by
  induction xs generalizing a with
  | nil => cases hx
  | cons y ys ih =>
    rw [List.foldl_cons]
    rcases List.mem_cons.1 hx with rfl | hx
    · obtain ⟨j, hj, hji⟩ := h.rank_right a hi
      obtain ⟨k, hk, hkj⟩ := h.rank_foldl_start ys hj
      exact ⟨k, hk, h.trans hkj hji⟩
    · exact ih (pick a y) hx

theorem rank_foldl_of_mem_cons (h : Picks pick r) {xs : List Float} {a x : Float} {i : Int}
    (hx : x ∈ a :: xs) (hi : rank x = some i) : ∃ k, rank (xs.foldl pick a) = some k ∧ r k i := by
  rcases List.mem_cons.1 hx with rfl | hmem
  · exact h.rank_foldl_start xs hi
  · exact h.rank_foldl_of_mem a hmem hi

/-- It matters neither in which order nor how often something is offered. -/
theorem rank_foldl_congr (h : Picks pick r) (hanti : ∀ i j, r i j → r j i → i = j) (a : Float)
    {xs ys : List Float} (hmem : ∀ x, x ∈ xs ↔ x ∈ ys) :
    rank (xs.foldl pick a) = rank (ys.foldl pick a) := by
  have hcons : ∀ x, x ∈ a :: xs ↔ x ∈ a :: ys := by
    intro x
    rw [List.mem_cons, List.mem_cons, hmem]
  have hleft := (hcons _).1 (h.foldl_mem xs a)
  have hright := (hcons _).2 (h.foldl_mem ys a)
  cases hi : rank (xs.foldl pick a) with
  | none =>
    cases hj : rank (ys.foldl pick a) with
    | none => rfl
    | some j =>
      obtain ⟨k, hk, -⟩ := h.rank_foldl_of_mem_cons hright hj
      rw [hi] at hk
      cases hk
  | some i =>
    obtain ⟨j, hj, hji⟩ := h.rank_foldl_of_mem_cons hleft hi
    obtain ⟨k, hk, hkj⟩ := h.rank_foldl_of_mem_cons hright hj
    rw [hi] at hk
    obtain rfl := Option.some.inj hk
    rw [hj, hanti i j hkj hji]

end Picks

/-! ## Boxes -/

/-- The sides of a box move independently of each other. -/
theorem Bounds.foldl_enclose (b : Bounds Float) (ps : List Point) :
    ps.foldl enclose b =
      { min := ⟨(ps.map (·.x)).foldl Binary64.lesser b.min.x,
          (ps.map (·.y)).foldl Binary64.lesser b.min.y⟩
        max := ⟨(ps.map (·.x)).foldl Binary64.greater b.max.x,
          (ps.map (·.y)).foldl Binary64.greater b.max.y⟩ } := by
  induction ps generalizing b with
  | nil => rfl
  | cons p ps ih =>
    rw [List.foldl_cons, ih]
    rfl

/-- Boxes whose sides are at the same numbers. A side that is no number is like any other such side. -/
structure Bounds.Alike (b c : Bounds Float) : Prop where
  left : rank b.min.x = rank c.min.x
  bottom : rank b.min.y = rank c.min.y
  right : rank b.max.x = rank c.max.x
  top : rank b.max.y = rank c.max.y

/-- A box grows alike in whatever order it is grown. -/
theorem Bounds.alike_foldl_enclose (b : Bounds Float) {ps qs : List Point}
    (h : ∀ p, p ∈ ps ↔ p ∈ qs) : (ps.foldl enclose b).Alike (qs.foldl enclose b) := by
  have hmap (f : Point → Float) : ∀ x, x ∈ ps.map f ↔ x ∈ qs.map f := by
    intro x
    simp only [List.mem_map, h]
  have hle : ∀ i j : Int, i ≤ j → j ≤ i → i = j := fun _ _ => Int.le_antisymm
  have hge : ∀ i j : Int, i ≥ j → j ≥ i → i = j := fun _ _ hij hji => Int.le_antisymm hji hij
  rw [foldl_enclose, foldl_enclose]
  refine ⟨?_, ?_, ?_, ?_⟩
  · exact picks_lesser.rank_foldl_congr hle _ (hmap _)
  · exact picks_lesser.rank_foldl_congr hle _ (hmap _)
  · exact picks_greater.rank_foldl_congr hge _ (hmap _)
  · exact picks_greater.rank_foldl_congr hge _ (hmap _)

/-- Equal sides, as numbers. -/
def Bounds.same (b c : Bounds Float) : Bool := b.min.same c.min && b.max.same c.max

end LSystem
