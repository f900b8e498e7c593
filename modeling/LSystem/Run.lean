import LSystem.Drawing
set_option autoImplicit false

/-! # Runs: one system carried through its generations

A run holds the current generation of a system, its word, and the drawing of the last generation
that was drawn. Growing and drawing may be interleaved freely. An operation that can fail returns
the run it ends in beside its result, since what it did before the failure stands: a capped run
stays at the last generation that fitted, and a trace at the generation it could not draw. -/

namespace LSystem

/-- A system on its way. `symbols` is the length of the current word, kept because every
    generation is measured once anyway. -/
structure Run where
  system : System
  current : Word
  symbols : Nat
  generation : Nat
  geometry : Geometry Float

/-- One drawn generation. -/
structure Frame where
  generation : Nat
  geometry : Geometry Float

namespace Run

/-- Generation 0, with nothing drawn. -/
def start (s : System) : Run :=
  ⟨s, s.initiator, s.initiator.length, 0, .blank⟩

/-! ## Growing -/

/-- The run with a word already rewritten and measured as its next generation. -/
def commit (r : Run) (next : Word) (symbols : Nat) : Run :=
  { r with current := next, symbols, generation := r.generation + 1 }

/-- The next generation. -/
def iterate (r : Run) : Run :=
  let next := r.system.grammar.rewrite r.current
  r.commit next next.length

@[simp] theorem iterate_system (r : Run) : r.iterate.system = r.system := rfl

@[simp] theorem iterate_current (r : Run) :
    r.iterate.current = r.system.grammar.rewrite r.current := rfl

@[simp] theorem iterate_symbols (r : Run) : r.iterate.symbols = r.iterate.current.length := rfl

@[simp] theorem iterate_generation (r : Run) : r.iterate.generation = r.generation + 1 := rfl

@[simp] theorem iterate_geometry (r : Run) : r.iterate.geometry = r.geometry := rfl

/-- The `n`-th generation from here. -/
def iterateTimes (r : Run) : Nat → Run
  | 0 => r
  | n + 1 => r.iterate.iterateTimes n

/-- Up to `n` generations, stopping in front of the first that would exceed the limit. -/
def iterateWithin (r : Run) (limit : Nat) : Nat → Run × Except Failure Unit
  | 0 => (r, .ok ())
  | n + 1 =>
    let next := r.system.grammar.rewrite r.current
    let symbols := next.length
    if limit < symbols then (r, .error (.symbolLimit (r.generation + 1) symbols limit))
    else (r.commit next symbols).iterateWithin limit n

/-! ## Drawing -/

/-- Draw the current generation and keep the drawing; a failure leaves the run as it was. -/
def draw (r : Run) : Run × Except Failure (Geometry Float) :=
  match r.current.draw r.system.angle with
  | .ok g => ({ r with geometry := g }, .ok g)
  | .error e => (r, .error e)

/-- A drawing that succeeds is kept, and all else is as before. -/
theorem eq_of_draw_ok {r r' : Run} {g : Geometry Float} (h : r.draw = (r', .ok g)) :
    r' = { r with geometry := g } ∧ r.current.draw r.system.angle = .ok g := by
  unfold draw at h
  split at h
  · cases h
    exact ⟨rfl, ‹_›⟩
  · cases h

/-- A drawing that fails leaves the run as it was. -/
theorem eq_of_draw_error {r r' : Run} {e : Failure} (h : r.draw = (r', .error e)) :
    r' = r ∧ r.current.draw r.system.angle = .error e := by
  unfold draw at h
  split at h
  · cases h
  · cases h
    exact ⟨rfl, ‹_›⟩

/-- Draw this generation and each of the next `n`, one frame each. -/
def trace (r : Run) (n : Nat) : Run × Except Failure (List Frame) :=
  match r.draw with
  | (r, .error e) => (r, .error e)
  | (r, .ok g) =>
    let frame : Frame := ⟨r.generation, g⟩
    match n with
    | 0 => (r, .ok [frame])
    | n + 1 =>
      let (last, rest) := r.iterate.trace n
      (last, rest.map (frame :: ·))

/-- A trace ends at once in a generation that cannot be drawn. -/
theorem trace_of_error {r r' : Run} {e : Failure} (h : r.draw = (r', .error e)) (n : Nat) :
    r.trace n = (r', .error e) := by
  rw [trace, h]

theorem trace_zero_of_ok {r r' : Run} {g : Geometry Float} (h : r.draw = (r', .ok g)) :
    r.trace 0 = (r', .ok [⟨r'.generation, g⟩]) := by
  rw [trace, h]

/-- A trace goes on from the generation that it has drawn. -/
theorem trace_succ_of_ok {r r' : Run} {g : Geometry Float} (h : r.draw = (r', .ok g)) (n : Nat) :
    r.trace (n + 1) =
      ((r'.iterate.trace n).1, (r'.iterate.trace n).2.map (⟨r'.generation, g⟩ :: ·)) := by
  rw [trace, h]

end Run

end LSystem
