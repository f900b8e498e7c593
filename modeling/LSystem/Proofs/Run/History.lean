import LSystem.Run
set_option autoImplicit false

/-! # What a run holds, whatever has been asked of it

A run holds more than its system and the number of its generation: the word, the length of the word
and a drawing, which may be older than the word. This module carries out operations one after the
other (`afterAll`), writes down beside them at which generations a drawing succeeded (`history`), and
shows that these two numbers and the system account for everything: the word is the one that the
system expands to, its length is kept right, and the drawing is that of the generation written down
last (`IsRunOf`).

Each operation keeps this on its own, also where it stops half-way through its loop, so any sequence
of operations keeps it. -/

namespace LSystem

/-! ## Operations and what they draw -/

/-- What can be asked of a run. -/
inductive Operation where
  | iterate
  | iterateTimes (n : Nat)
  | iterateWithin (limit n : Nat)
  | draw
  | trace (n : Nat)
  deriving DecidableEq, Repr

namespace Run

/-- The run that an operation ends in, whether it succeeds or fails. -/
def after (r : Run) : Operation → Run
  | .iterate => r.iterate
  | .iterateTimes n => r.iterateTimes n
  | .iterateWithin limit n => (r.iterateWithin limit n).1
  | .draw => r.draw.1
  | .trace n => (r.trace n).1

/-- The run that some operations end in, one carried out after the other. -/
def afterAll (r : Run) (ops : List Operation) : Run := ops.foldl after r

/-- The generations whose drawing succeeds in the course of a trace, in order. -/
def traced (r : Run) (n : Nat) : List Nat :=
  match r.draw with
  | (_, .error _) => []
  | (drawn, .ok _) =>
    r.generation :: match n with
      | 0 => []
      | n + 1 => drawn.iterate.traced n

/-- The generations whose drawing succeeds in the course of an operation, in order. -/
def drawings (r : Run) : Operation → List Nat
  | .iterate | .iterateTimes _ | .iterateWithin _ _ => []
  | .draw => r.traced 0
  | .trace n => r.traced n

/-- The generations whose drawing succeeds in the course of some operations, in order. -/
def history (r : Run) : List Operation → List Nat
  | [] => []
  | op :: ops => r.drawings op ++ (r.after op).history ops

variable {r r' : Run} {g : Geometry Float} {e : Failure}

theorem traced_of_error (h : r.draw = (r', .error e)) (n : Nat) : r.traced n = [] := by
  rw [traced, h]

theorem traced_zero_of_ok (h : r.draw = (r', .ok g)) : r.traced 0 = [r.generation] := by
  rw [traced, h]

theorem traced_succ_of_ok (h : r.draw = (r', .ok g)) (n : Nat) :
    r.traced (n + 1) = r.generation :: r'.iterate.traced n := by
  rw [traced, h]

/-! ## The invariant -/

/-- The run of `s` in which the drawings that succeeded were those of the generations `drawn`. -/
structure IsRunOf (r : Run) (s : System) (drawn : List Nat) : Prop where
  system : r.system = s
  current : r.current = s.expand r.generation
  symbols : r.symbols = r.current.length
  undrawn : drawn = [] → r.geometry = .blank
  drawing : ∀ k ∈ drawn.getLast?,
    k ≤ r.generation ∧ (s.expand k).draw s.angle = .ok r.geometry

namespace IsRunOf

variable {s : System} {drawn : List Nat}

theorem start (s : System) : (Run.start s).IsRunOf s [] where
  system := rfl
  current := rfl
  symbols := rfl
  undrawn _ := rfl
  drawing k hk := by simp at hk

/-- What is drawn of a run is the generation it is at. -/
theorem draw_current (h : r.IsRunOf s drawn) :
    r.current.draw r.system.angle = (s.expand r.generation).draw s.angle := by
  rw [h.current, h.system]

/-! ### Growing -/

theorem iterate (h : r.IsRunOf s drawn) : r.iterate.IsRunOf s drawn where
  system := h.system
  current := by rw [iterate_current, iterate_generation, System.expand_succ, h.system, h.current]
  symbols := rfl
  undrawn := h.undrawn
  drawing k hk := by
    obtain ⟨hle, hg⟩ := h.drawing k hk
    exact ⟨Nat.le_succ_of_le hle, hg⟩

theorem iterateTimes (h : r.IsRunOf s drawn) (n : Nat) :
    (r.iterateTimes n).IsRunOf s drawn := by
  induction n generalizing r with
  | zero => exact h
  | succ n ih => exact ih h.iterate

/-- A capped run stops in a run that it has reached by growing. -/
theorem iterateWithin (h : r.IsRunOf s drawn) (limit n : Nat) :
    (r.iterateWithin limit n).1.IsRunOf s drawn := by
  induction n generalizing r with
  | zero => exact h
  | succ n ih =>
    rw [Run.iterateWithin]
    split
    · exact h
    · exact ih h.iterate

/-! ### Drawing -/

/-- A drawing that succeeds takes the place of the one kept before. -/
theorem redraw (h : r.IsRunOf s drawn) (hd : r.draw = (r', .ok g)) :
    r'.IsRunOf s (drawn ++ [r.generation]) := by
  obtain ⟨rfl, hg⟩ := eq_of_draw_ok hd
  refine ⟨h.system, h.current, h.symbols, ?_, ?_⟩
  · intro hnil
    simp at hnil
  · intro k hk
    obtain rfl : r.generation = k := by simpa using hk
    rw [h.draw_current] at hg
    exact ⟨Nat.le_refl _, hg⟩

/-- A trace that fails keeps what it has drawn and stays at the generation it could not draw. -/
theorem trace (h : r.IsRunOf s drawn) (n : Nat) :
    (r.trace n).1.IsRunOf s (drawn ++ r.traced n) := by
  -- the trace is refused, or has drawn its last generation, or has drawn one and goes on
  induction r, n using Run.trace.induct generalizing drawn with
  | case1 n r r' e hd =>
    obtain ⟨rfl, -⟩ := eq_of_draw_error hd
    rw [trace_of_error hd, traced_of_error hd, List.append_nil]
    exact h
  | case2 r r' g hd =>
    rw [trace_zero_of_ok hd, traced_zero_of_ok hd]
    exact h.redraw hd
  | case3 r r' g hd n last rest hr ih =>
    rw [trace_succ_of_ok hd, traced_succ_of_ok hd, List.append_cons]
    exact ih (h.redraw hd).iterate

/-- A drawing is the first of the drawings of a trace. -/
theorem draw (h : r.IsRunOf s drawn) : r.draw.1.IsRunOf s (drawn ++ r.traced 0) := by
  have hfst : (r.trace 0).1 = r.draw.1 := by
    rw [Run.trace]
    split <;> rename_i hd <;> rw [hd]
  exact hfst ▸ h.trace 0

/-! ### Any operations -/

theorem after (h : r.IsRunOf s drawn) (op : Operation) :
    (r.after op).IsRunOf s (drawn ++ r.drawings op) := by
  cases op with
  | iterate => simpa [Run.after, drawings] using h.iterate
  | iterateTimes n => simpa [Run.after, drawings] using h.iterateTimes n
  | iterateWithin limit n => simpa [Run.after, drawings] using h.iterateWithin limit n
  | draw => exact h.draw
  | trace n => exact h.trace n

theorem afterAll (h : r.IsRunOf s drawn) (ops : List Operation) :
    (r.afterAll ops).IsRunOf s (drawn ++ r.history ops) := by
  induction ops generalizing r drawn with
  | nil => simpa [Run.afterAll, history] using h
  | cons op ops ih =>
    rw [history, ← List.append_assoc]
    exact ih (h.after op)

end IsRunOf

/-- **Everything a run holds is told by its system, its generation and its history.** -/
theorem isRunOf_afterAll_start (s : System) (ops : List Operation) :
    ((start s).afterAll ops).IsRunOf s ((start s).history ops) := by
  have h := (IsRunOf.start s).afterAll ops
  rwa [List.nil_append] at h

end Run

end LSystem
