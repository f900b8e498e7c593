import LSystem.Proofs.Drawing.Branch
import LSystem.Proofs.Drawing.Heading
set_option autoImplicit false

/-! # A drawing is connected

A segment starts where the turtle stands, and between two segments the turtle is moved by nothing but a
`]`. Such a `]` takes it back to where it was at the partner of the bracket, the `[` such that what stands
between the two closes all it opens and nothing else (`Closes`). What the turtle does in there is a branch,
and a branch leads back to where it set out. So a segment starts at the end of the one before, or where the
last branch in between set out, and in any case at the origin or at the end of some earlier segment
(`drawing_connected`). -/

namespace LSystem

namespace Word

/-! ## Positions -/

/-- The symbols between two positions of a word. -/
def between (word : Word) (i j : Nat) : Word := (word.take j).drop (i + 1)

theorem mem_between_iff {word : Word} {i j : Nat} {c : Symbol} :
    c ∈ word.between i j ↔ ∃ r, i < r ∧ r < j ∧ word[r]? = some c := by
  rw [between, List.mem_iff_getElem?]
  constructor
  · rintro ⟨n, hn⟩
    rw [List.getElem?_drop, List.getElem?_take] at hn
    split_ifs at hn with hlt
    exact ⟨i + 1 + n, by omega, hlt, hn⟩
  · rintro ⟨r, hi, hj, hr⟩
    refine ⟨r - (i + 1), ?_⟩
    rw [List.getElem?_drop, List.getElem?_take, Nat.add_sub_cancel' hi, if_pos hj, hr]

theorem take_eq_append_between {word : Word} {i j : Nat} {c : Symbol} (hc : word[i]? = some c)
    (h : i < j) : word.take j = word.take i ++ c :: word.between i j := by
  have hfront : (word.take j).take (i + 1) = word.take i ++ [c] := by
    rw [List.take_take, Nat.min_eq_left h, List.take_add_one, hc]
    rfl
  rw [List.append_cons, ← hfront, between, List.take_append_drop]

theorem mem_drawnAt_iff {word : Word} {i : Nat} :
    i ∈ word.drawnAt ↔ ∃ c, word[i]? = some c ∧ c.Draws := by
  rw [drawnAt, List.mem_filter, List.mem_range]
  constructor
  · rintro ⟨hi, hc⟩
    exact ⟨word[i], List.getElem?_eq_getElem hi, by simpa [hi] using hc⟩
  · rintro ⟨c, hc, hdraws⟩
    obtain ⟨hi, -⟩ := List.getElem?_eq_some_iff.1 hc
    exact ⟨hi, by simpa [hc] using hdraws⟩

/-- No symbol draws between two symbols that draw one after the other. -/
theorem not_draws_between {word : Word} {k i j : Nat} (hi : word.drawnAt[k]? = some i)
    (hj : word.drawnAt[k + 1]? = some j) : i < j ∧ ∀ c ∈ word.between i j, ¬ c.Draws := by
  have hsorted : word.drawnAt.Pairwise (· < ·) := List.pairwise_lt_range.filter _
  rw [List.pairwise_iff_getElem] at hsorted
  obtain ⟨hk, rfl⟩ := List.getElem?_eq_some_iff.1 hi
  obtain ⟨hk', rfl⟩ := List.getElem?_eq_some_iff.1 hj
  refine ⟨hsorted k (k + 1) hk hk' (Nat.lt_succ_self k), ?_⟩
  intro c hc hdraws
  obtain ⟨r, hir, hrj, hr⟩ := mem_between_iff.1 hc
  obtain ⟨m, hm, rfl⟩ := List.getElem_of_mem (mem_drawnAt_iff.2 ⟨c, hr, hdraws⟩)
  -- the positions increase, so this one would come after the `k`-th and before the next
  have hkm : k < m := by
    by_contra hle
    rcases Nat.lt_or_eq_of_le (Nat.not_lt.1 hle) with hlt | rfl
    · exact absurd (hsorted m k hm hk hlt) (Nat.lt_asymm hir)
    · exact absurd hir (Nat.lt_irrefl _)
  have hmk : m < k + 1 := by
    by_contra hle
    rcases Nat.lt_or_eq_of_le (Nat.not_lt.1 hle) with hlt | heq
    · exact absurd (hsorted (k + 1) m hk' hm hlt) (Nat.lt_asymm hrj)
    · subst heq
      exact absurd hrj (Nat.lt_irrefl _)
  omega

/-! ## Partners -/

/-- The `]` at `q` closes the `[` at `p`: what is between them closes all it opens and nothing else. -/
structure Closes (word : Word) (q p : Nat) : Prop where
  closing : word[q]? = some ']'
  opening : word[p]? = some '['
  lt : p < q
  guarded : (word.between p q).Guarded
  balanced : (word.between p q).Balanced

theorem Guarded.append_singleton {v : Word} {c : Symbol} (h : v.Guarded)
    (hc : 0 ≤ Word.depth (v ++ [c])) : Guarded (v ++ [c]) := by
  refine guarded_append h ?_
  intro q hq
  rcases List.prefix_cons_iff.1 hq with rfl | ⟨t, rfl, ht⟩
  · simpa [depth] using h.depth_nonneg
  · obtain rfl := List.prefix_nil.1 ht
    rwa [← depth_append]

/-- In a word that leaves more than `k` brackets open, there is one behind which `k` are left open. -/
theorem Guarded.exists_opening {w : Word} (h : w.Guarded) {k : Nat} (hk : k < w.depth) :
    ∃ u v : Word, w = u ++ '[' :: v ∧ v.Guarded ∧ v.depth = k := by
  induction w using List.reverseRecOn generalizing k with
  | nil => exact absurd hk (by simp [depth])
  | append_singleton w c ih =>
    have hw : Guarded w := h.of_prefix (List.prefix_append w [c])
    -- the bracket is found in `w`, where one more or one less is left open behind it
    have hlater : ∀ n : Nat, n < depth w → (n : Int) + depth [c] = k →
        ∃ u v : Word, w ++ [c] = u ++ '[' :: v ∧ v.Guarded ∧ v.depth = k := by
      intro n hn hc
      obtain ⟨u, v, rfl, hv, hdepth⟩ := ih hw hn
      have hsum : depth (v ++ [c]) = k := by rw [depth_append, hdepth, hc]
      exact ⟨u, v ++ [c], by simp, hv.append_singleton (by omega), hsum⟩
    rw [depth_append] at hk
    by_cases hopen : c = '['
    · subst hopen
      have hone : depth ['['] = 1 := by decide
      cases k with
      | zero => exact ⟨w, [], rfl, by decide, rfl⟩
      | succ k => exact hlater k (by omega) (by omega)
    · by_cases hclose : c = ']'
      · subst hclose
        have hone : depth [']'] = -1 := by decide
        exact hlater (k + 1) (by omega) (by omega)
      · have hzero : depth [c] = 0 := depth_singleton_of_ne hopen hclose
        exact hlater k (by omega) (by omega)

/-- Where a word up to a `]` is guarded, the bracket has a partner. -/
theorem exists_closes {word : Word} {q : Nat} (h : Guarded (word.take (q + 1)))
    (hq : word[q]? = some ']') : ∃ p, word.Closes q p := by
  have htake : word.take (q + 1) = word.take q ++ [']'] := by
    rw [List.take_add_one, hq]
    rfl
  rw [htake] at h
  have hone : depth [']'] = -1 := by decide
  have hdepth := h.depth_nonneg
  rw [depth_append] at hdepth
  obtain ⟨u, v, huv, hv, hzero⟩ :=
    (h.of_prefix (List.prefix_append _ _)).exists_opening (k := 0) (by omega)
  obtain ⟨hqlen, -⟩ := List.getElem?_eq_some_iff.1 hq
  have hlength : q = u.length + (v.length + 1) := by
    have hlen := congrArg List.length huv
    rw [List.length_take, List.length_append, List.length_cons] at hlen
    omega
  have hlt : u.length < q := by omega
  have hbetween : word.between u.length q = v := by
    rw [between, huv]
    simp
  have hopening : word[u.length]? = some '[' := by
    rw [← List.getElem?_take_of_lt hlt, huv]
    simp
  exact ⟨u.length, hq, hopening, hlt, by rwa [hbetween], by rwa [hbetween, balanced_iff]⟩

end Word

/-! ## The walk along the way -/

namespace Walk

variable {α : Type} [OfNat α 0] [OfNat α 1] [Add α] [Sub α] [Mul α] [Extremes α]
variable {left right : Rotation α}

/-- The walk is `w` when it comes to position `i` of the word. -/
def ComesTo (left right : Rotation α) (word : Word) (i : Nat) (w : Walk α) : Prop :=
  follow left right start 0 (word.take i) = .ok w

variable {word : Word} {i j : Nat} {w w' : Walk α}

theorem exists_comesTo {fin : Walk α} (h : follow left right start 0 word = .ok fin) (i : Nat) :
    ∃ w, ComesTo left right word i w := by
  rw [← List.take_append_drop i word] at h
  exact follow_of_append h

theorem ComesTo.follow {v : Word} (h : ComesTo left right word i w) (hj : word.take j = word.take i ++ v)
    (h' : ComesTo left right word j w') (p : Nat) : follow left right w p v = .ok w' := by
  unfold ComesTo at h h'
  rw [hj, follow_append, h] at h'
  exact follow_ok_from h' p

omit [OfNat α 0] [OfNat α 1] in
/-- The turtle stays where it is as long as nothing is drawn and no bracket is closed. -/
theorem position_of_follow {v : Word} {p : Nat} (h : Walk.follow left right w p v = .ok w')
    (hdraws : ∀ c ∈ v, ¬ c.Draws) (hclose : ']' ∉ v) : w'.turtle.position = w.turtle.position := by
  have hstay : ∀ u c v v', ((∀ c ∈ u, ¬ Symbol.Draws c) → ']' ∉ u →
        v.turtle.position = w.turtle.position) → Reads left right c v v' →
      (∀ d ∈ u ++ [c], ¬ Symbol.Draws d) → ']' ∉ u ++ [c] →
        v'.turtle.position = w.turtle.position := by
    intro u c v v' ih hr hdraws hclose
    have hv : v.turtle.position = w.turtle.position := by
      refine ih ?_ ?_
      · intro d hd
        exact hdraws d (List.mem_append_left _ hd)
      · intro hmem
        exact hclose (List.mem_append_left _ hmem)
    cases hr with
    | draw hc => exact absurd hc (hdraws c (by simp))
    | restore => exact absurd (by simp) hclose
    | left => exact hv
    | right => exact hv
    | save => exact hv
    | pass => exact hv
  have hend := follow_invariant (P := fun u v => (∀ c ∈ u, ¬ Symbol.Draws c) → ']' ∉ u →
    v.turtle.position = w.turtle.position) hstay (u := []) (fun _ _ => rfl) h
  exact hend hdraws hclose

/-- The turtle has made its step when it comes to the symbol behind one that draws. -/
theorem ComesTo.draw {c : Symbol} (h : ComesTo left right word i w) (hc : word[i]? = some c)
    (hdraws : c.Draws) (h' : ComesTo left right word (i + 1) w') : w'.turtle = w.turtle.step := by
  have htake : word.take (i + 1) = word.take i ++ [c] := by
    rw [List.take_add_one, hc]
    rfl
  have hfollow := h.follow htake h' 0
  have hact : w.act left right (.ofSymbol c) = w.act left right .draw := by
    rcases hdraws with rfl | rfl | rfl <;> rfl
  rw [follow_cons_of_some (hact.trans rfl)] at hfollow
  obtain rfl := Except.ok.inj hfollow
  rfl

/-- A `]` takes the turtle back to where it was when it came to the partner. -/
theorem ComesTo.close {q p : Nat} (hclose : word.Closes q p) (h : ComesTo left right word p w)
    (h' : ComesTo left right word (q + 1) w') : w'.turtle = w.turtle := by
  have htake : word.take (q + 1) = word.take p ++ '[' :: (word.between p q ++ [']']) := by
    rw [List.take_add_one, hclose.closing, Word.take_eq_append_between hclose.opening hclose.lt]
    simp
  obtain ⟨branch, -, hbranch⟩ := follow_branch left right hclose.guarded hclose.balanced w 0
  rw [h.follow htake h' 0] at hbranch
  obtain rfl := Except.ok.inj hbranch
  rfl

/-! ## Segments -/

variable {g : Geometry α}

/-- The segments are the steps that the turtle makes when it comes to the symbols that draw. -/
theorem exists_comesTo_of_segment (h : Walk.draw left right word = .ok g) {k : Nat} {s : Segment α}
    (hs : g.segments[k]? = some s) (hi : word.drawnAt[k]? = some i) :
    ∃ w, ComesTo left right word i w ∧ s = w.turtle.stroke := by
  obtain ⟨fin, hfin, rfl⟩ := draw_eq_ok_iff.1 h
  obtain ⟨w, hw⟩ := exists_comesTo hfin i
  refine ⟨w, hw, ?_⟩
  rw [segments_geometry, (retraces_of_follow hfin).drawn, List.getElem?_map, hi] at hs
  have hturtle : w.turtle = .along left right (Word.path (word.take i)) :=
    (retraces_of_follow hw).stands 0 w.turtle rfl
  rw [hturtle]
  exact (Option.some.inj hs).symm

theorem length_segments_of_draw_ok (h : Walk.draw left right word = .ok g) :
    g.segments.length = word.drawnAt.length := by
  obtain ⟨fin, hfin, rfl⟩ := draw_eq_ok_iff.1 h
  rw [segments_geometry, (retraces_of_follow hfin).drawn, List.length_map]

/-- A segment starts at the origin or where an earlier one ends. -/
theorem start_of_segment (h : Walk.draw left right word = .ok g) {k : Nat} {s : Segment α}
    (hs : g.segments[k]? = some s) :
    s.start = 0 ∨ ∃ j < k, ∃ s', g.segments[j]? = some s' ∧ s.start = s'.stop := by
  obtain ⟨fin, hfin, rfl⟩ := draw_eq_ok_iff.1 h
  rw [segments_geometry] at hs ⊢
  obtain ⟨hk, hget⟩ := List.getElem?_eq_some_iff.1 hs
  -- the segments drawn before, newest first
  have hsuffix : s :: (fin.drawn.reverse.take k).reverse <:+ fin.drawn := by
    have hprefix : fin.drawn.reverse.take (k + 1) <+: fin.drawn.reverse := List.take_prefix _ _
    rw [← List.reverse_suffix, List.reverse_reverse, List.take_add_one, hs] at hprefix
    simpa using hprefix
  refine ((trodden_of_follow hfin).starts s _ hsuffix).imp_right ?_
  intro hmem
  obtain ⟨s', hs', hstop⟩ := List.mem_map.1 hmem
  obtain ⟨j, hj⟩ := List.mem_iff_getElem?.1 (List.mem_reverse.1 hs')
  rw [List.getElem?_take] at hj
  split_ifs at hj with hjk
  exact ⟨j, hjk, s', hj, hstop.symm⟩

variable {k : Nat} {s s' : Segment α}

/-- Where no bracket is closed in between, a segment starts at the end of the one before. -/
theorem start_of_next_segment (h : Walk.draw left right word = .ok g)
    (hi : word.drawnAt[k]? = some i) (hj : word.drawnAt[k + 1]? = some j)
    (hs : g.segments[k]? = some s) (hs' : g.segments[k + 1]? = some s')
    (hclose : ']' ∉ word.between i j) : s'.start = s.stop := by
  obtain ⟨w, hw, rfl⟩ := exists_comesTo_of_segment h hs hi
  obtain ⟨w', hw', rfl⟩ := exists_comesTo_of_segment h hs' hj
  obtain ⟨fin, hfin, -⟩ := draw_eq_ok_iff.1 h
  obtain ⟨mid, hmid⟩ := exists_comesTo hfin (i + 1)
  obtain ⟨hij, hnone⟩ := Word.not_draws_between hi hj
  obtain ⟨c, hc, hdraws⟩ := Word.mem_drawnAt_iff.1 (List.mem_of_getElem? hi)
  have htake : word.take j = word.take (i + 1) ++ word.between i j := by
    rw [Word.take_eq_append_between hc hij, List.take_add_one, hc]
    simp
  show w'.turtle.position = w.turtle.step.position
  rw [position_of_follow (hmid.follow htake hw' 0) hnone hclose, hw.draw hc hdraws hmid]

/-- Otherwise it starts where the turtle was at the partner of the last bracket closed. -/
theorem start_of_segment_behind_close (h : Walk.draw left right word = .ok g)
    (hi : word.drawnAt[k]? = some i) (hj : word.drawnAt[k + 1]? = some j)
    (hs' : g.segments[k + 1]? = some s') {q p : Nat}
    (hq : IsGreatest {q | i < q ∧ q < j ∧ word[q]? = some ']'} q) (hclose : word.Closes q p) :
    ∃ w, ComesTo left right word p w ∧ s'.start = w.turtle.position := by
  obtain ⟨w', hw', rfl⟩ := exists_comesTo_of_segment h hs' hj
  obtain ⟨fin, hfin, -⟩ := draw_eq_ok_iff.1 h
  obtain ⟨w, hw⟩ := exists_comesTo hfin p
  obtain ⟨mid, hmid⟩ := exists_comesTo hfin (q + 1)
  obtain ⟨⟨hiq, hqj, -⟩, hlast⟩ := hq
  have htake : word.take j = word.take (q + 1) ++ word.between q j := by
    rw [Word.take_eq_append_between hclose.closing hqj, List.take_add_one, hclose.closing]
    simp
  have hnone : ∀ c ∈ word.between q j, ¬ c.Draws := by
    intro c hc
    obtain ⟨r, hqr, hrj, hr⟩ := Word.mem_between_iff.1 hc
    exact (Word.not_draws_between hi hj).2 c (Word.mem_between_iff.2 ⟨r, by omega, hrj, hr⟩)
  have hopen : ']' ∉ word.between q j := by
    intro hmem
    obtain ⟨r, hqr, hrj, hr⟩ := Word.mem_between_iff.1 hmem
    exact absurd (hlast ⟨by omega, hrj, hr⟩) (Nat.not_le.2 hqr)
  refine ⟨w, hw, ?_⟩
  show w'.turtle.position = w.turtle.position
  rw [position_of_follow (hmid.follow htake hw' 0) hnone hopen, hw.close hclose hmid]

/-- Without a `]` the segments are one line from the origin on. -/
theorem isChain_segments (h : Walk.draw left right word = .ok g) (hclose : ']' ∉ word) :
    (∀ s ∈ g.segments.head?, s.start = 0) ∧
      g.segments.IsChain fun s s' => s'.start = s.stop := by
  constructor
  · intro s hs
    rw [List.head?_eq_getElem?] at hs
    rcases start_of_segment h hs with hzero | ⟨j, hj, -⟩
    · exact hzero
    · exact absurd hj (Nat.not_lt_zero j)
  · rw [List.isChain_iff_getElem]
    intro k hk
    have hlength := length_segments_of_draw_ok h
    have hopen : ∀ i j, ']' ∉ word.between i j := by
      intro i j hmem
      obtain ⟨r, -, -, hr⟩ := Word.mem_between_iff.1 hmem
      exact hclose (List.mem_of_getElem? hr)
    exact start_of_next_segment h (List.getElem?_eq_getElem (by omega))
      (List.getElem?_eq_getElem (by omega)) (List.getElem?_eq_getElem _)
      (List.getElem?_eq_getElem hk) (hopen _ _)

end Walk

/-! ## Drawings -/

/-- **A drawing is connected.** It has a segment for each symbol that draws, and each of them starts at the
    origin or at the end of an earlier one. Where no bracket is closed between two symbols that draw one
    after the other, the later segment starts at the end of the earlier one. Where some are, the last of
    them has a partner, and the later segment starts where the turtle was when it came to that one. So a
    word without `]` is drawn as one line from the origin on. -/
theorem Word.drawing_connected {word : Word} {angle : Float} {g : Geometry Float}
    (h : word.draw angle = .ok g) :
    g.segments.length = word.drawnAt.length ∧
    (∀ (k : Nat) (s : Segment Float), g.segments[k]? = some s →
      s.start = 0 ∨ ∃ j < k, ∃ s', g.segments[j]? = some s' ∧ s.start = s'.stop) ∧
    (∀ (k i j : Nat) (s s' : Segment Float), word.drawnAt[k]? = some i →
      word.drawnAt[k + 1]? = some j → g.segments[k]? = some s →
      g.segments[k + 1]? = some s' →
      (']' ∉ word.between i j → s'.start = s.stop) ∧
      ∀ q, IsGreatest {q | i < q ∧ q < j ∧ word[q]? = some ']'} q →
        (∃ p, word.Closes q p) ∧
        ∀ p, word.Closes q p → ∃ w,
          Walk.ComesTo (.ofAngle angle) (.ofAngle (-angle)) word p w ∧
            s'.start = w.turtle.position) ∧
    (']' ∉ word → (∀ s ∈ g.segments.head?, s.start = 0) ∧
      g.segments.IsChain fun s s' => s'.start = s.stop) := by
  refine ⟨Walk.length_segments_of_draw_ok h, ?_, ?_, Walk.isChain_segments h⟩
  · intro k s hs
    exact Walk.start_of_segment h hs
  · intro k i j s s' hi hj hs hs'
    refine ⟨Walk.start_of_next_segment h hi hj hs hs', ?_⟩
    intro q hq
    refine ⟨?_, ?_⟩
    · refine exists_closes ?_ hq.1.2.2
      intro u hu
      exact Walk.not_overclosed_of_draw_ok h (hu.trans (List.take_prefix _ _))
    · intro p hp
      exact Walk.start_of_segment_behind_close h hi hj hs' hq hp

/-- Behind a branch with a branch of its own, the line goes on where the outer branch began. -/
theorem Word.drawing_connected_behind_branch :
    let word : Word := ['A', '[', '+', 'A', '[', 'B', ']', ']', '-', 'C']
    ∃ g, word.draw 0.5 = .ok g ∧
      word.drawnAt = [0, 3, 5, 9] ∧ word.Closes 7 1 ∧
      ∃ s w, g.segments[3]? = some s ∧
        Walk.ComesTo (.ofAngle 0.5) (.ofAngle (-0.5)) word 1 w ∧ s.start = w.turtle.position := by
  intro word
  obtain ⟨g, hg⟩ : ∃ g, word.draw 0.5 = .ok g := ⟨_, rfl⟩
  obtain ⟨hlength, -, hnext, -⟩ := drawing_connected hg
  have hcloses : word.Closes 7 1 := ⟨rfl, rfl, by decide, by decide, by decide⟩
  have hdrawn : word.drawnAt = [0, 3, 5, 9] := by decide
  obtain ⟨s, hs⟩ : ∃ s, g.segments[2]? = some s :=
    ⟨_, List.getElem?_eq_getElem (by rw [hlength, hdrawn]; decide)⟩
  obtain ⟨s', hs'⟩ : ∃ s', g.segments[3]? = some s' :=
    ⟨_, List.getElem?_eq_getElem (by rw [hlength, hdrawn]; decide)⟩
  have hlast : IsGreatest {q | 5 < q ∧ q < 9 ∧ word[q]? = some ']'} 7 := by
    refine ⟨⟨by decide, by decide, rfl⟩, ?_⟩
    rintro q ⟨-, hq, hclose⟩
    by_contra hgt
    obtain rfl : q = 8 := by omega
    exact absurd hclose (by decide)
  obtain ⟨-, hbehind⟩ := hnext 2 5 9 s s' (by rw [hdrawn]; rfl) (by rw [hdrawn]; rfl) hs hs'
  obtain ⟨w, hw, hstart⟩ := (hbehind 7 hlast).2 1 hcloses
  exact ⟨g, hg, hdrawn, hcloses, s', w, hs', hw, hstart⟩

end LSystem
