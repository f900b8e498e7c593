import LSystem.Proofs.Drawing.Path
set_option autoImplicit false

/-! # Every segment is drawn from the end of its path

The walk saves turtles, and a path (`Word.path`) knows nothing of them. They meet in one invariant,
`Retraces`: after any word the turtle to which `k` further brackets `]` would lead back stands where
the path leads that is left when `k` brackets more are closed. With no further bracket, `k = 0`, this
is the turtle itself. So a drawing can be made without saving anything, by following for each symbol
that draws the path to it. -/

namespace LSystem

/-- The positions of the symbols that draw, in increasing order. -/
def Word.drawnAt (word : Word) : List Nat :=
  (List.range word.length).filter fun i => word[i]?.any (Symbol.Draws ·)

theorem Word.lt_length_of_mem_drawnAt {word : Word} {i : Nat} (h : i ∈ word.drawnAt) :
    i < word.length :=
  List.mem_range.1 (List.mem_filter.1 h).1

theorem Word.drawnAt_append (word : Word) (c : Symbol) :
    Word.drawnAt (word ++ [c]) = word.drawnAt ++ if Symbol.Draws c then [word.length] else [] := by
  unfold drawnAt
  rw [List.length_append, List.length_singleton, List.range_succ, List.filter_append]
  congr 1
  · refine List.filter_congr fun i hi => ?_
    rw [List.getElem?_append_left (List.mem_range.1 hi)]
  · simp [List.filter_cons]

namespace Turtle

variable {α : Type} [Add α] [Sub α] [Mul α]

/-- The turtle after a symbol that is no bracket. -/
def obey (left right : Rotation α) (t : Turtle α) : Symbol → Turtle α
  | 'A' | 'B' | 'C' => t.step
  | '+' => t.turn left
  | '-' => t.turn right
  | _ => t

/-- The turtle at the end of a path without brackets. -/
def along [OfNat α 0] [OfNat α 1] (left right : Rotation α) (path : Word) : Turtle α :=
  path.foldl (obey left right) start

/-- The segment that is drawn from where the turtle stands. -/
def stroke (t : Turtle α) : Segment α := ⟨t.position, t.step.position⟩

variable {left right : Rotation α}

theorem obey_of_draws {c : Symbol} (h : Symbol.Draws c) (t : Turtle α) :
    t.obey left right c = t.step := by
  rcases h with rfl | rfl | rfl <;> rfl

theorem obey_of_idle {c : Symbol} (h : Symbol.Idle c) (t : Turtle α) :
    t.obey left right c = t := by
  unfold obey
  split <;> first | rfl | exact absurd h (by decide)

theorem along_append [OfNat α 0] [OfNat α 1] (path : Word) (c : Symbol) :
    along left right (path ++ [c]) = (along left right path).obey left right c := by
  simp only [along, List.foldl_append, List.foldl_cons, List.foldl_nil]

end Turtle

namespace Walk

variable {α : Type} [OfNat α 0] [OfNat α 1] [Add α] [Sub α] [Mul α]
variable {left right : Rotation α}

/-! ## Where the turtles stand -/

/-- Every turtle of a walk, the saved ones included, stands at the end of the path that is left of
    the word when as many brackets more are closed as lead back to it. -/
def Stands (left right : Rotation α) (word : Word) (turtles : List (Turtle α)) : Prop :=
  ∀ k t, turtles[k]? = some t → t = Turtle.along left right (word.pathAfter k)

/-- A symbol that is no bracket lengthens the path of the turtle and no path behind a bracket. -/
theorem Stands.obey {word : Word} {c : Symbol} {t : Turtle α} {ts : List (Turtle α)}
    (h : Stands left right word (t :: ts)) (hopen : c ≠ '[') (hclose : c ≠ ']') :
    Stands left right (word ++ [c]) (t.obey left right c :: ts) := by
  intro k s hs
  cases k with
  | zero =>
    obtain rfl : t.obey left right c = s := by simpa using hs
    have ht : t = .along left right word.path := h 0 t rfl
    show _ = Turtle.along left right (Word.path (word ++ [c]))
    rw [Word.path_append hopen hclose, Turtle.along_append, ← ht]
  | succ k =>
    rw [Word.pathAfter_succ_append hopen hclose]
    exact h (k + 1) s hs

/-- A bracket that is opened leaves the turtle, and its copy behind the bracket, where it was. -/
theorem Stands.save {word : Word} {t : Turtle α} {ts : List (Turtle α)}
    (h : Stands left right word (t :: ts)) : Stands left right (word ++ ['[']) (t :: t :: ts) := by
  intro k s hs
  rw [Word.pathAfter_append_open]
  cases k with
  | zero => exact h 0 s hs
  | succ k => exact h k s hs

/-- A bracket that is closed leads back behind the bracket that was opened last. -/
theorem Stands.restore {word : Word} {t : Turtle α} {ts : List (Turtle α)}
    (h : Stands left right word (t :: ts)) : Stands left right (word ++ [']']) ts := by
  intro k s hs
  rw [Word.pathAfter_append_close]
  exact h (k + 1) s hs

/-- What was drawn from the ends of paths is not changed by reading on. -/
theorem strokes_append (word : Word) (c : Symbol) :
    ((Word.drawnAt (word ++ [c])).map fun i =>
        (Turtle.along left right (Word.path ((word ++ [c]).take i))).stroke) =
      (word.drawnAt.map fun i => (Turtle.along left right (Word.path (word.take i))).stroke) ++
        if Symbol.Draws c then [(Turtle.along left right word.path).stroke] else [] := by
  rw [Word.drawnAt_append, List.map_append]
  congr 1
  · refine List.map_congr_left fun i hi => ?_
    rw [List.take_append_of_le_length (Nat.le_of_lt (Word.lt_length_of_mem_drawnAt hi))]
  · split <;> simp

/-! ## The invariant -/

/-- The turtles of a walk stand where the paths of the word lead, and every segment has been drawn
    from the end of the path to its symbol. -/
structure Retraces (left right : Rotation α) (word : Word) (w : Walk α) : Prop where
  stands : Stands left right word (w.turtle :: w.saved)
  drawn : w.drawn.reverse =
    word.drawnAt.map fun i => (Turtle.along left right (Word.path (word.take i))).stroke

theorem retraces_start : Retraces left right [] (start : Walk α) := by
  refine ⟨?_, rfl⟩
  intro k t ht
  cases k with
  | zero =>
    obtain rfl : (start : Walk α).turtle = t := by simpa using ht
    rw [Word.pathAfter_nil]
    rfl
  | succ k => simp [start] at ht

variable [Extremes α]

theorem Retraces.reads {word : Word} {c : Symbol} {w w' : Walk α} (h : Retraces left right word w)
    (hr : Reads left right c w w') : Retraces left right (word ++ [c]) w' := by
  obtain ⟨hstands, hdrawn⟩ := h
  have hturtle : w.turtle = .along left right word.path := hstands 0 w.turtle rfl
  -- what is no bracket lengthens the path, and only what draws adds to the drawing
  cases hr with
  | draw hc =>
    refine ⟨?_, ?_⟩
    · have := hstands.obey hc.ne_open hc.ne_close
      rwa [Turtle.obey_of_draws hc] at this
    · rw [strokes_append, if_pos hc, ← hturtle, ← hdrawn, List.reverse_cons]
      rfl
  | left =>
    refine ⟨hstands.obey (by decide) (by decide), ?_⟩
    rw [strokes_append, if_neg (by decide), List.append_nil, ← hdrawn]
  | right =>
    refine ⟨hstands.obey (by decide) (by decide), ?_⟩
    rw [strokes_append, if_neg (by decide), List.append_nil, ← hdrawn]
  | save =>
    refine ⟨hstands.save, ?_⟩
    rw [strokes_append, if_neg (by decide), List.append_nil, ← hdrawn]
  | restore hs =>
    refine ⟨hs ▸ hstands.restore, ?_⟩
    rw [strokes_append, if_neg (by decide), List.append_nil, ← hdrawn]
  | pass hc =>
    refine ⟨?_, ?_⟩
    · have := hstands.obey hc.ne_open hc.ne_close
      rwa [Turtle.obey_of_idle hc] at this
    · rw [strokes_append, if_neg hc.not_draws, List.append_nil, ← hdrawn]

theorem retraces_of_follow {word : Word} {w : Walk α} {p : Nat}
    (h : follow left right start p word = .ok w) : Retraces left right word w := by
  refine follow_invariant ?_ (u := []) retraces_start h
  intro u c v v' hu hr
  exact hu.reads hr

/-- The points of a drawing, without saving: two for each symbol that draws, from the end of the path
    to it. -/
theorem points_eq_of_draw_ok {word : Word} {g : Geometry α}
    (h : Walk.draw left right word = .ok g) :
    g.points = word.drawnAt.flatMap fun i =>
      let t := Turtle.along left right (Word.path (word.take i))
      [t.position, t.step.position] := by
  obtain ⟨w, hw, rfl⟩ := draw_eq_ok_iff.1 h
  rw [geometry, (retraces_of_follow hw).drawn, List.flatMap_map]
  rfl

end Walk

/-- **The walk that saves turtles draws what paths draw.** Where a word can be drawn, what pruning
    leaves of the part in front of any position is its path; and the points of the drawing are, for
    each symbol that draws in turn, where the turtle stands at the end of the path to the symbol and
    where one step takes it from there. -/
theorem Word.drawing_retraces_paths {word : Word} {angle : Float} {g : Geometry Float}
    (h : word.draw angle = .ok g) :
    (∀ i p, Prunes (word.take i) p ↔ p = path (word.take i)) ∧
    g.points = word.drawnAt.flatMap fun i =>
      let t := Turtle.along (Rotation.ofAngle angle) (Rotation.ofAngle (-angle))
        (path (word.take i))
      [t.position, t.step.position] := by
  refine ⟨?_, Walk.points_eq_of_draw_ok h⟩
  intro i p
  apply prunes_iff
  intro u hu
  have hword : u <+: word := hu.trans (List.take_prefix i word)
  exact Walk.not_overclosed_of_draw_ok h hword

/-- A branch is left, and the turtle goes on from where the branch began. -/
theorem Word.drawing_retraces_branch :
    ∃ g, Word.draw ['A', '[', '+', 'A', ']', '-', 'A'] 0.5 = .ok g ∧
      Prunes ['A', '[', '+', 'A', ']', '-'] ['A', '-'] ∧
      g.points =
        let fork : Turtle Float := Turtle.start.step
        let branch := fork.turn (Rotation.ofAngle 0.5)
        let stem := fork.turn (Rotation.ofAngle (-0.5))
        [0, fork.position, fork.position, branch.step.position, fork.position,
          stem.step.position] := by
  obtain ⟨g, hg⟩ : ∃ g, Word.draw ['A', '[', '+', 'A', ']', '-', 'A'] 0.5 = .ok g := ⟨_, rfl⟩
  obtain ⟨hprunes, hpoints⟩ := drawing_retraces_paths hg
  exact ⟨g, hg, (hprunes 6 _).2 rfl, hpoints.trans rfl⟩

end LSystem
