import LSystem.Document.Basic
import LSystem.Proofs.Run.History
import LSystem.Proofs.Drawing.Brackets
set_option autoImplicit false

/-! # What a drawing document tells of a run

A drawing document takes its generation and its number of symbols from the word of a run and its points
from the drawing that the run keeps. The word moves on with every step and the drawing does not, so the
two need not belong together: a document made between a step and the next drawing shows an older
generation under the number of a newer one. Made right after a drawing it is what it says, a snapshot
of one generation. -/

namespace LSystem

/-- The document describes one generation of a system, the one whose number it bears. -/
structure GeometryDocument.IsSnapshotOf (d : GeometryDocument) (s : System) : Prop where
  frame : ∃ g, (s.expand d.frame.generation).draw s.angle = .ok g ∧
    d.frame = .of d.frame.generation g
  symbols : d.symbols = (s.expand d.frame.generation).length

/-- What is kept once the generations `drawn` have been drawn: the drawing of the last of them, or at
    first a blank one. -/
def System.keeping (s : System) (drawn : List Nat) : Except Failure (Geometry Float) :=
  match drawn.getLast? with
  | none => .ok .blank
  | some k => (s.expand k).draw s.angle

theorem Run.IsRunOf.keeping_eq {r : Run} {s : System} {drawn : List Nat} (h : r.IsRunOf s drawn) :
    s.keeping drawn = .ok r.geometry := by
  unfold System.keeping
  cases hk : drawn.getLast? with
  | none =>
    have hnil : drawn = [] := List.getLast?_eq_none_iff.1 hk
    rw [h.undrawn hnil]
  | some k => exact (h.drawing k hk).2

/-- A frame tells its generation and its whole drawing. -/
theorem FrameDocument.of_inj {k k' : Nat} {g g' : Geometry Float} :
    FrameDocument.of k g = .of k' g' ↔ k = k' ∧ g = g' := by
  constructor
  · intro h
    obtain ⟨hk, -, hbounds, hpoints⟩ := FrameDocument.mk.inj h
    exact ⟨hk, congr (congrArg Geometry.mk hpoints) hbounds⟩
  · rintro ⟨rfl, hg⟩
    rw [hg]

namespace GeometryDocument

variable {r : Run} {s : System} {drawn : List Nat}

/-- The number of symbols always belongs to the generation. -/
theorem symbols_ofRun (h : r.IsRunOf s drawn) (name generated : String) :
    (ofRun name r generated).symbols = (s.expand r.generation).length := by
  show r.symbols = _
  rw [h.symbols, h.current]

/-- A document is a snapshot when the drawing kept is one of its own generation. -/
theorem isSnapshotOf_ofRun_iff (h : r.IsRunOf s drawn) (name generated : String) :
    (ofRun name r generated).IsSnapshotOf s ↔
      (s.expand r.generation).draw s.angle = .ok r.geometry := by
  constructor
  · rintro ⟨⟨g, hg, hframe⟩, -⟩
    obtain ⟨-, rfl⟩ := FrameDocument.of_inj.1 hframe
    exact hg
  · intro hg
    exact ⟨⟨r.geometry, hg, rfl⟩, symbols_ofRun h name generated⟩

/-- **Right after a drawing a document is a snapshot.** -/
theorem isSnapshotOf_ofRun_draw {g : Geometry Float} (h : r.IsRunOf s drawn)
    (hd : r.draw.2 = .ok g) (name generated : String) :
    (ofRun name r.draw.1 generated).IsSnapshotOf s := by
  have hr : r.draw = (r.draw.1, .ok g) := Prod.ext rfl hd
  have hredrawn := h.redraw hr
  obtain ⟨hafter, hg⟩ := Run.eq_of_draw_ok hr
  rw [isSnapshotOf_ofRun_iff hredrawn, hafter, ← h.draw_current]
  exact hg

/-- **When a document is a snapshot.** It always counts the symbols of its own generation, but it shows
    the drawing of the last generation that was drawn, or a blank one. So it is a snapshot exactly when
    its own generation would be drawn like that. -/
theorem isSnapshotOf_reachable (s : System) (ops : List Operation) (name generated : String) :
    let d := ofRun name ((Run.start s).afterAll ops) generated
    let kept := s.keeping ((Run.start s).history ops)
    d.symbols = (s.expand d.frame.generation).length ∧
    (∃ g, kept = .ok g ∧ d.frame = .of d.frame.generation g) ∧
    (d.IsSnapshotOf s ↔ (s.expand d.frame.generation).draw s.angle = kept) := by
  intro d kept
  have h : ((Run.start s).afterAll ops).IsRunOf s ((Run.start s).history ops) :=
    (Run.IsRunOf.start s).afterAll ops
  have hkept : kept = .ok ((Run.start s).afterAll ops).geometry := h.keeping_eq
  refine ⟨symbols_ofRun h name generated, ⟨_, hkept, rfl⟩, ?_⟩
  rw [hkept]
  exact isSnapshotOf_ofRun_iff h name generated

/-- The first step of the dragon curve draws two segments. A document made after that step and before
    the first drawing shows none, and one made after a drawing and that step shows one. -/
theorem not_isSnapshotOf_dragon :
    let dragon : System :=
      ⟨['A'], .ofList [('A', ['A', '+', 'B']), ('B', ['A', '-', 'B'])], Binary64.turnOver 4⟩
    let after (ops : List Operation) := ofRun "dragon" ((Run.start dragon).afterAll ops) ""
    (after [.iterate]).frame.generation = 1 ∧ ¬ (after [.iterate]).IsSnapshotOf dragon ∧
    (after [.draw, .iterate]).frame.generation = 1 ∧
      ¬ (after [.draw, .iterate]).IsSnapshotOf dragon := by
  intro dragon after
  have htwo : ∀ d : GeometryDocument, d.frame.generation = 1 → d.IsSnapshotOf dragon →
      d.frame.points.length = 4 := by
    rintro d hgeneration ⟨⟨g, hg, hframe⟩, -⟩
    rw [hgeneration] at hg
    rw [hframe]
    exact Walk.length_points_of_draw_ok hg
  refine ⟨rfl, ?_, rfl, ?_⟩
  · intro h
    exact absurd (htwo _ rfl h) (by decide)
  · intro h
    exact absurd (htwo _ rfl h) (by decide +kernel)

end GeometryDocument

end LSystem
