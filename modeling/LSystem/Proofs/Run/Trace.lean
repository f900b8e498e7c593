import LSystem.Proofs.Run.History
import Mathlib.Order.Bounds.Basic
set_option autoImplicit false

/-! # Tracing

A trace draws the generation that a run is at, grows, draws again, and so on, and it does not go back
when a drawing fails. What it returns and where it leaves the run is therefore settled by the first of
its generations that cannot be drawn. If there is none, each generation gets a frame, drawn as if
nothing had been drawn before; otherwise the run stands at the generation that failed and still keeps
the drawing of the one in front of it.

A run is nothing but its system, the number of its generation and the drawing it keeps
(`System.runAt`), so all of this can be said without any other run. -/

namespace LSystem

/-- The numbers of steps, from none to `n`, that lead from generation `g` to a word that cannot be
    drawn. -/
def System.undrawable (s : System) (g n : Nat) : Set Nat :=
  {k | k ≤ n ∧ ∃ e, (s.expand (g + k)).draw s.angle = .error e}

/-- The run of a system that is at some generation and keeps some drawing. -/
def System.runAt (s : System) (generation : Nat) (kept : Geometry Float) : Run :=
  ⟨s, s.expand generation, (s.expand generation).length, generation, kept⟩

/-- A frame shows a generation of a system when it bears its number and holds its drawing. -/
def Frame.Shows (f : Frame) (s : System) (generation : Nat) : Prop :=
  f.generation = generation ∧ (s.expand generation).draw s.angle = .ok f.geometry

namespace Run

variable {r r' : Run} {s : System}

/-! ## Runs by their generation -/

theorem IsRunOf.eq_runAt {drawn : List Nat} (h : r.IsRunOf s drawn) :
    r = s.runAt r.generation r.geometry := by
  obtain ⟨system, current, symbols, generation, geometry⟩ := r
  obtain ⟨rfl, hcurrent, hsymbols, -, -⟩ := h
  obtain rfl : current = system.expand generation := hcurrent
  obtain rfl : symbols = (system.expand generation).length := hsymbols
  rfl

theorem runAt_iterate (s : System) (k : Nat) (kept : Geometry Float) :
    (s.runAt k kept).iterate = s.runAt (k + 1) kept := by
  rw [iterate, commit, System.runAt, System.runAt, System.expand_succ]

theorem runAt_draw_of_ok {k : Nat} {g : Geometry Float} (kept : Geometry Float)
    (h : (s.expand k).draw s.angle = .ok g) : (s.runAt k kept).draw = (s.runAt k g, .ok g) := by
  rw [draw, System.runAt, h, System.runAt]

theorem runAt_draw_of_error {k : Nat} {e : Failure} (kept : Geometry Float)
    (h : (s.expand k).draw s.angle = .error e) :
    (s.runAt k kept).draw = (s.runAt k kept, .error e) := by
  rw [draw, System.runAt, h]

/-! ## One step of a trace -/

theorem trace_zero_runAt {k : Nat} {g : Geometry Float} (kept : Geometry Float)
    (h : (s.expand k).draw s.angle = .ok g) :
    (s.runAt k kept).trace 0 = (s.runAt k g, .ok [⟨k, g⟩]) :=
  trace_zero_of_ok (runAt_draw_of_ok kept h)

theorem trace_succ_runAt {k : Nat} {g : Geometry Float} (kept : Geometry Float)
    (h : (s.expand k).draw s.angle = .ok g) (n : Nat) :
    (s.runAt k kept).trace (n + 1) =
      (((s.runAt (k + 1) g).trace n).1, ((s.runAt (k + 1) g).trace n).2.map (⟨k, g⟩ :: ·)) := by
  rw [trace_succ_of_ok (runAt_draw_of_ok kept h), runAt_iterate]
  rfl

/-! ## A whole trace -/

/-- Where every generation can be drawn, each gets its frame and the last drawing is kept. -/
theorem trace_runAt_of_drawable {g n : Nat} (kept : Geometry Float)
    (h : ∀ k ≤ n, ∃ d, (s.expand (g + k)).draw s.angle = .ok d) :
    ∃ (frames : List Frame) (last : Frame),
      (s.runAt g kept).trace n = (s.runAt (g + n) last.geometry, .ok frames) ∧
      frames.length = n + 1 ∧ frames[n]? = some last ∧
      ∀ (k : Nat) (f : Frame), frames[k]? = some f → f.Shows s (g + k) := by
  obtain ⟨d, hd⟩ : ∃ d, (s.expand g).draw s.angle = .ok d := h 0 (Nat.zero_le n)
  induction n generalizing g kept d with
  | zero =>
    refine ⟨[⟨g, d⟩], ⟨g, d⟩, trace_zero_runAt kept hd, rfl, rfl, ?_⟩
    intro k f hf
    obtain ⟨rfl, rfl⟩ : k = 0 ∧ f = ⟨g, d⟩ := by
      cases k with
      | zero => simpa using hf.symm
      | succ k => simp at hf
    exact ⟨rfl, hd⟩
  | succ n ih =>
    -- the frames behind the first one are those of the trace from the next generation
    have hrest : ∀ k ≤ n, ∃ d, (s.expand (g + 1 + k)).draw s.angle = .ok d := by
      intro k hk
      have hnext := h (k + 1) (Nat.succ_le_succ hk)
      rwa [Nat.add_right_comm]
    obtain ⟨d', hd'⟩ := hrest 0 (Nat.zero_le n)
    obtain ⟨frames, last, htrace, hlen, hlast, hshows⟩ := ih d hrest d' hd'
    refine ⟨⟨g, d⟩ :: frames, last, ?_, by rw [List.length_cons, hlen], hlast, ?_⟩
    · rw [trace_succ_runAt kept hd, htrace, Nat.add_right_comm]
      rfl
    · intro k f hf
      cases k with
      | zero =>
        obtain rfl : (⟨g, d⟩ : Frame) = f := by simpa using hf
        exact ⟨rfl, hd⟩
      | succ k =>
        have hf' : f.Shows s (g + 1 + k) := hshows k f hf
        rwa [Nat.add_right_comm] at hf'

/-- A trace stops in front of the first drawing that fails and goes back over nothing. -/
theorem trace_runAt_of_undrawable {g k n : Nat} {e : Failure} (kept : Geometry Float)
    (hk : k ≤ n) (hbefore : ∀ j < k, ∃ d, (s.expand (g + j)).draw s.angle = .ok d)
    (he : (s.expand (g + k)).draw s.angle = .error e) :
    ∃ kept', (s.runAt g kept).trace n = (s.runAt (g + k) kept', .error e) ∧
      (k = 0 → kept' = kept) ∧
      ∀ j, k = j + 1 → (s.expand (g + j)).draw s.angle = .ok kept' := by
  induction k generalizing g kept n with
  | zero =>
    refine ⟨kept, trace_of_error (runAt_draw_of_error kept he) n, fun _ => rfl, ?_⟩
    intro j hj
    cases hj
  | succ k ih =>
    obtain ⟨m, rfl⟩ : ∃ m, n = m + 1 := ⟨n - 1, by omega⟩
    obtain ⟨d, hd⟩ : ∃ d, (s.expand g).draw s.angle = .ok d := hbefore 0 (Nat.succ_pos k)
    have hrest : ∀ j < k, ∃ d, (s.expand (g + 1 + j)).draw s.angle = .ok d := by
      intro j hj
      have hnext := hbefore (j + 1) (Nat.succ_lt_succ hj)
      rwa [Nat.add_right_comm]
    have he' : (s.expand (g + 1 + k)).draw s.angle = .error e := by rwa [Nat.add_right_comm]
    obtain ⟨kept', htrace, hfirst, hlater⟩ := ih d (Nat.le_of_succ_le_succ hk) hrest he'
    refine ⟨kept', ?_, fun h => absurd h (Nat.succ_ne_zero k), ?_⟩
    · rw [trace_succ_runAt kept hd, htrace, Nat.add_right_comm]
      rfl
    · rintro j hj
      obtain rfl : k = j := Nat.succ.inj hj
      cases k with
      | zero => rwa [hfirst rfl]
      | succ i =>
        have hi := hlater i rfl
        rwa [Nat.add_right_comm] at hi

/-! ## The trace of a system -/

theorem drawable_of_not_mem_undrawable {g k n : Nat} (hk : k ≤ n) (h : k ∉ s.undrawable g n) :
    ∃ d, (s.expand (g + k)).draw s.angle = .ok d := by
  cases hd : (s.expand (g + k)).draw s.angle with
  | ok d => exact ⟨d, rfl⟩
  | error e => exact absurd ⟨hk, e, hd⟩ h

/-- **A trace is settled by its first generation that cannot be drawn.** If there is none, it returns
    one frame for each generation, each drawn afresh, and keeps the last of them. If there is one, it
    returns the failure of its drawing and leaves the run there, with the drawing of the generation in
    front of it, or with the one kept before when it is the first. -/
theorem trace_reachable (s : System) (ops : List Operation) :
    let r := (start s).afterAll ops
    (∀ n, s.undrawable r.generation n = ∅ →
      ∃ (frames : List Frame) (last : Frame),
        r.trace n = (s.runAt (r.generation + n) last.geometry, .ok frames) ∧
        frames.length = n + 1 ∧ frames[n]? = some last ∧
        ∀ (k : Nat) (f : Frame), frames[k]? = some f → f.Shows s (r.generation + k)) ∧
    (∀ n k, IsLeast (s.undrawable r.generation n) k →
      ∃ (e : Failure) (kept : Geometry Float),
        (s.expand (r.generation + k)).draw s.angle = .error e ∧
        r.trace n = (s.runAt (r.generation + k) kept, .error e) ∧
        (k = 0 → kept = r.geometry) ∧
        ∀ j, k = j + 1 → (s.expand (r.generation + j)).draw s.angle = .ok kept) := by
  intro r
  have hr : r = s.runAt r.generation r.geometry := ((IsRunOf.start s).afterAll ops).eq_runAt
  refine ⟨?_, ?_⟩
  · intro n hnone
    have hall : ∀ k ≤ n, ∃ d, (s.expand (r.generation + k)).draw s.angle = .ok d := by
      intro k hk
      apply drawable_of_not_mem_undrawable hk
      rw [hnone]
      exact Set.notMem_empty k
    have htrace := trace_runAt_of_drawable r.geometry hall
    rwa [← hr] at htrace
  · rintro n k ⟨⟨hk, e, he⟩, hleast⟩
    have hbefore : ∀ j < k, ∃ d, (s.expand (r.generation + j)).draw s.angle = .ok d := by
      intro j hj
      apply drawable_of_not_mem_undrawable (n := n) (by omega)
      intro hmem
      have hle : k ≤ j := hleast hmem
      omega
    obtain ⟨kept, htrace, hfirst, hlater⟩ :=
      trace_runAt_of_undrawable r.geometry hk hbefore he
    rw [← hr] at htrace
    exact ⟨e, kept, he, htrace, hfirst, hlater⟩

-- an `A` that grows a `]` at every step can be drawn once
example :
    let r := start ⟨['A'], .ofList [('A', ['A', ']'])], 0⟩
    (r.trace 3).2 = .error (.unmatchedBracket 1) ∧ (r.trace 3).1.generation = 1 := by
  exact ⟨rfl, rfl⟩

end Run

end LSystem
