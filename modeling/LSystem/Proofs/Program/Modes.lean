import LSystem.Proofs.Document.ReadBack
import LSystem.Proofs.Program.Export
set_option autoImplicit false

/-! # The two modes of an export

A system is exported in one of two modes, one for a single generation and one for all up to it, which come
to their drawings by different ways: a run that grows and is drawn once, and a trace that draws wherever it
comes by. What they write agrees all the same (`generate_modes_agree`). Either way the file is the text of
a document that can be read back from it (`Holds`), and every member of the document is one of the system
or of its drawings (`Tells`). -/

namespace LSystem

/-! ## What documents tell -/

/-- The frame tells of a drawing at generation `k`. -/
structure FrameDocument.Tells (f : FrameDocument) (k : Nat) (g : Geometry Float) : Prop where
  generation : f.generation = k
  segments : f.segments = g.segmentCount
  bounds : f.bounds = g.bounds
  points : f.points = g.points

/-- The document tells of all generations of a system up to the `n`-th, in order. -/
structure TraceDocument.Tells (d : TraceDocument) (name : String) (s : System) (n : Nat)
    (stamp : String) : Prop where
  system : d.system = name
  angle : d.angle = s.angle
  length : d.frames.length = n + 1
  frames : ∀ k ≤ n, ∃ f g, d.frames[k]? = some f ∧ (s.expand k).draw s.angle = .ok g ∧ f.Tells k g
  generated : d.generated = stamp

/-- The document tells of the `n`-th generation of a system alone. -/
structure GeometryDocument.Tells (d : GeometryDocument) (name : String) (s : System) (n : Nat)
    (stamp : String) : Prop where
  system : d.system = name
  angle : d.angle = s.angle
  symbols : d.symbols = (s.expand n).length
  frame : ∃ g, (s.expand n).draw s.angle = .ok g ∧ d.frame.Tells n g
  generated : d.generated = stamp

theorem FrameDocument.tells_of (k : Nat) (g : Geometry Float) : (FrameDocument.of k g).Tells k g :=
  ⟨rfl, rfl, rfl, rfl⟩

/-- What is told of a drawing makes up the whole frame. -/
theorem FrameDocument.Tells.unique {f f' : FrameDocument} {k : Nat} {g : Geometry Float}
    (h : f.Tells k g) (h' : f'.Tells k g) : f = f' := by
  cases f
  cases f'
  obtain ⟨rfl, rfl, rfl, rfl⟩ := h
  obtain ⟨rfl, rfl, rfl, rfl⟩ := h'
  rfl

/-- Where both documents tell of a generation, they tell the same of it. -/
theorem TraceDocument.Tells.getElem?_last {d : TraceDocument} {e : GeometryDocument} {name : String}
    {s : System} {n : Nat} {stamp : String} (hd : d.Tells name s n stamp) (he : e.Tells name s n stamp) :
    d.frames[n]? = some e.frame := by
  obtain ⟨f, g, hf, hg, htells⟩ := hd.frames n (Nat.le_refl n)
  obtain ⟨g', hg', htells'⟩ := he.frame
  obtain rfl : g = g' := Except.ok.inj (hg.symm.trans hg')
  rw [hf, htells.unique htells']

namespace Document.Shows

variable {name stamp : String} {s : System} {n : Nat} {d : Document}

/-- What shows all generations is a trace document. -/
theorem exists_trace (h : Shows name s n stamp true d) :
    ∃ t : TraceDocument, d = .trace t ∧ t.Tells name s n stamp := by
  cases h with
  | @every frames hlength hframes =>
    have hlength' : (TraceDocument.ofFrames name s.angle frames stamp).frames.length = n + 1 := by
      rw [TraceDocument.length_frames_ofFrames, hlength]
    refine ⟨_, rfl, rfl, rfl, hlength', fun k hk => ?_, rfl⟩
    obtain ⟨f, hf⟩ : ∃ f, (TraceDocument.ofFrames name s.angle frames stamp).frames[k]? = some f :=
      ⟨_, List.getElem?_eq_getElem (by omega)⟩
    obtain ⟨g, hg, rfl⟩ := TraceDocument.exists_of_frame hframes hf
    exact ⟨_, g, hf, hg, FrameDocument.tells_of k g⟩

/-- What shows the last generation is a drawing document. -/
theorem exists_geometry (h : Shows name s n stamp false d) :
    ∃ e : GeometryDocument, d = .geometry e ∧ e.Tells name s n stamp := by
  cases h with
  | @last g hg => exact ⟨_, rfl, rfl, rfl, rfl, ⟨g, hg, FrameDocument.tells_of n g⟩, rfl⟩

end Document.Shows

/-- A document as JSON. -/
def Document.toJson : Document → Json
  | .geometry d => d.toJson
  | .trace d => d.toJson

namespace Workspace

variable {w w' : Workspace} {reader : LibraryReader} {vars : Variables} {library : Path} {name : String}
  {n : Nat} {limit? : Option Nat} {output? : Option Path}

/-- A path leads to the text of a document. Read as JSON the text is the document, and whatever rounds
    numbers correctly recovers the document from it, as long as it is finite. -/
structure Holds (w : Workspace) (path : Path) (d : Document) : Prop where
  text : w.read path = .text d.text
  json : Json.Reader.read? d.text = some d.toJson
  recovered : ∀ toFloat?, Json.Numeral.CorrectlyRounded toFloat? → d.isFinite = true →
    Document.ofText? toFloat? d.text = some d

theorem Writes.holds {path : Path} {d : Document} (h : w.Writes path d.text w') : w'.Holds path d where
  text := h.read
  json := by
    cases d with
    | geometry e => exact e.read?_text
    | trace t => exact t.read?_text
  recovered _ hround hfinite := Document.ofText?_text hround hfinite

/-! ## One mode and the other -/

/-- What is exported in one mode is exported in the other unless something cannot be drawn. -/
theorem Exportable.switch {v : Workspace} {definitions : Library} {s : System} {every every' : Bool}
    (h : w.Exportable reader vars v definitions s library name n limit? output? every)
    (hfree : s.obstacles n every' = ∅) :
    w.Exportable reader vars v definitions s library name n limit? output? every' :=
  ⟨h.opens, h.loads, h.resolves, h.fits, hfree, h.writable⟩

theorem obstacles_last_subset (s : System) (n : Nat) : s.obstacles n false ⊆ s.obstacles n true :=
  fun _ hk => ⟨hk.1, .inl rfl⟩

/-- **The two modes agree.** Where all generations are exported, so is the last one alone. Of each
    generation the one document tells what the drawing of its word is, and of the last one the other
    document tells the same. Where only the last one is exported, an earlier one has an unmatched
    bracket. -/
theorem generate_modes_agree (w : Workspace) (reader : LibraryReader) (stamp : String) (vars : Variables)
    {plain all : List String}
    (hplain : Invocation.ofArguments plain = .ok ⟨library, .generate name n limit? output? false⟩)
    (hall : Invocation.ofArguments all = .ok ⟨library, .generate name n limit? output? true⟩) :
    let path := w.outputFor vars name output?
    let one := w.runWith reader stamp vars plain
    let many := w.runWith reader stamp vars all
    (many.1.status = 0 → one.1.status = 0 ∧
      ∃ (s : System) (d : TraceDocument) (e : GeometryDocument), w.Resolves reader vars library name s ∧
        many.2.Holds path (.trace d) ∧ d.Tells name s n stamp ∧
        one.2.Holds path (.geometry e) ∧ e.Tells name s n stamp ∧
        d.frames[n]? = some e.frame) ∧
    (one.1.status = 0 → many.1.status ≠ 0 →
      ∃ s k i, w.Resolves reader vars library name s ∧ k < n ∧
        (s.expand k).draw s.angle = .error (.unmatchedBracket i) ∧
        many.1 = .failed (.unmatchedBracket i)) := by
  intro path one many
  refine ⟨fun h => ?_, fun h hmany => ?_⟩
  · obtain ⟨v, definitions, s, hmany⟩ := exists_exportable hall h
    have hlast : s.obstacles n false = ∅ :=
      Set.subset_eq_empty (obstacles_last_subset s n) hmany.drawable
    obtain ⟨-, d, hd, hdwrites⟩ := hmany.exports stamp hall
    obtain ⟨hone, e, he, hewrites⟩ := (hmany.switch hlast).exports stamp hplain
    obtain ⟨d, rfl, hdtells⟩ := hd.exists_trace
    obtain ⟨e, rfl, hetells⟩ := he.exists_geometry
    exact ⟨hone, s, d, e, hmany.resolvesName, hdwrites.holds, hdtells, hewrites.holds, hetells,
      hdtells.getElem?_last hetells⟩
  · obtain ⟨v, definitions, s, hone⟩ := exists_exportable hplain h
    rcases (s.obstacles n true).eq_empty_or_nonempty with hfree | hne
    · exact absurd ((hone.switch hfree).exports stamp hall).1 hmany
    · -- the first of the generations that cannot be drawn is not the last of all
      obtain ⟨k, i, hk, hi⟩ := Command.exists_first_obstacle hne
      have hle : k ≤ n := hk.1.1.1
      have hlt : k ≠ n := by
        intro heq
        have hmem : k ∈ s.obstacles n false := ⟨hk.1.1, .inr heq⟩
        rw [hone.drawable] at hmem
        exact hmem
      refine ⟨s, k, i, hone.resolvesName, lt_of_le_of_ne hle hlt, hi, ?_⟩
      exact congrArg Prod.fst (runWith_of_refuses hall hone.opens hone.loads
        (.undrawable hone.resolves hone.fits hk hi))

/-- The dragon curve after two steps, in both modes. -/
theorem generate_modes_agree_dragon :
    let one := runProgram .empty "T" [] ["generate", "-s", "dragon", "-i", "2"]
    let many := runProgram .empty "T" [] ["generate", "-s", "dragon", "-i", "2", "--all-generations"]
    many.1.status = 0 ∧ one.1.status = 0 ∧
      ∃ (s : System) (d : TraceDocument) (e : GeometryDocument),
        Resolves .empty Yaml.library? [] "systems.yaml" "dragon" s ∧
        many.2.Holds "out/dragon.json" (.trace d) ∧ d.Tells "dragon" s 2 "T" ∧
        one.2.Holds "out/dragon.json" (.geometry e) ∧ e.Tells "dragon" s 2 "T" ∧
        d.frames[2]? = some e.frame := by
  intro one many
  have hplain : Invocation.ofArguments ["generate", "-s", "dragon", "-i", "2"] =
      .ok ⟨"systems.yaml", .generate "dragon" 2 none none false⟩ := rfl
  have hall : Invocation.ofArguments ["generate", "-s", "dragon", "-i", "2", "--all-generations"] =
      .ok ⟨"systems.yaml", .generate "dragon" 2 none none true⟩ := rfl
  have h : many.1.status = 0 := by decide +kernel
  exact ⟨h, (generate_modes_agree .empty Yaml.library? "T" [] hplain hall).1 h⟩

/-- A system that cannot be drawn at first, and can be after a step: it is exported in one mode only. -/
example :
    let w := ofFiles [("systems.yaml",
      "systems:\n  - name: late\n    axiom: \"]\"\n    angle_degrees: 90\n    rules:\n      \"]\": A\n")]
    (w.runProgram "" [] ["generate", "-s", "late", "-i", "1"]).1.status = 0 ∧
      (w.runProgram "" [] ["generate", "-s", "late", "-i", "1", "--all-generations"]).1.status = 1 := by
  decide +kernel

end Workspace

end LSystem
