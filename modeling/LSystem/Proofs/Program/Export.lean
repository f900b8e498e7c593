import LSystem.Proofs.Command.Answer
import LSystem.Proofs.Program.Session
set_option autoImplicit false

/-! # Exporting a system

What `generate` leaves in the workspace. The program writes its one file or none: whatever can be refused
is refused before (`generate_refused_or_written`). It exits with 0 just where nothing stands in the way of
the export, and then the file shows what was asked for (`Exportable`). -/

namespace LSystem

@[simp] theorem TraceDocument.length_frames_ofFrames (name : String) (angle : Float)
    (frames : List Frame) (stamp : String) :
    (ofFrames name angle frames stamp).frames.length = frames.length :=
  List.length_map _

/-- A frame of a trace document that shows a system from its start on. -/
theorem TraceDocument.exists_of_frame {name stamp : String} {s : System} {frames : List Frame}
    (hframes : ∀ (k : Nat) (f : Frame), frames[k]? = some f → f.Shows s k) {k : Nat}
    {f : FrameDocument} (hf : (ofFrames name s.angle frames stamp).frames[k]? = some f) :
    ∃ g, (s.expand k).draw s.angle = .ok g ∧ f = .of k g := by
  rw [ofFrames, List.getElem?_map] at hf
  obtain ⟨frame, hframe, rfl⟩ := Option.map_eq_some_iff.1 hf
  obtain ⟨rfl, hg⟩ := hframes k frame hframe
  exact ⟨frame.geometry, hg, rfl⟩

namespace Workspace

variable {w v w' : Workspace} {reader : LibraryReader} {stamp : String} {vars : Variables}
  {arguments : List String} {library : Path} {name : String} {n : Nat} {limit? : Option Nat}
  {output? : Option Path} {every : Bool} {definitions : Library} {s : System}

/-! ## Files -/

theorem Writes.read {path : Path} {text : String} (h : w.Writes path text w') :
    w'.read path = .text text := by
  obtain ⟨l, hfind, hl, -⟩ := h
  have hat : (w'.find? path).bind w'.at? = some (.file text) := by rw [hfind, Option.bind_some, hl]
  rw [Workspace.read, Workspace.entry?, hat]

theorem AddsFolders.writes {path : Path} {text : String} (h : w.AddsFolders v)
    (hw : v.Writes path text w') : w.Writes path text w' := by
  obtain ⟨l, hfind, hl, hrest⟩ := hw
  exact ⟨l, hfind, hl, fun l' hne c => (hrest l' hne c).trans (h.files l' c)⟩

/-! ## What is exported -/

/-- The most symbols that a generation may have: as it is given, or else as it is set. -/
def limitFor (w : Workspace) (vars : Variables) (limit? : Option Nat) : Nat :=
  limit?.getD (w.settings vars).symbolLimit

/-- The file that an export is written to: as it is given, or else one named for the system. -/
def outputFor (w : Workspace) (vars : Variables) (name : String) (output? : Option Path) : Path :=
  output?.getD (Command.defaultOutput (w.settings vars) name)

/-- A name stands for a system when the program comes to its command. -/
def Resolves (w : Workspace) (reader : LibraryReader) (vars : Variables) (library : Path) (name : String)
    (s : System) : Prop :=
  ∃ v definitions, w.Opens vars v ∧ Program.library? reader (v.read library) = some definitions ∧
    definitions.resolve name = .ok s

/-- Nothing stands in the way of an export from the workspace `v` on. -/
structure Exportable (w : Workspace) (reader : LibraryReader) (vars : Variables) (v : Workspace)
    (definitions : Library) (s : System) (library : Path) (name : String) (n : Nat) (limit? : Option Nat)
    (output? : Option Path) (every : Bool) : Prop where
  opens : w.Opens vars v
  loads : Program.library? reader (v.read library) = some definitions
  resolves : definitions.resolve name = .ok s
  fits : s.excesses (w.limitFor vars limit?) 0 n = ∅
  drawable : s.obstacles n every = ∅
  writable : ∀ text, (v.write? (w.outputFor vars name output?) text).isSome

/-- What can be exported is written, and the program exits with 0. -/
theorem Exportable.exports
    (h : w.Exportable reader vars v definitions s library name n limit? output? every) (stamp : String)
    (hcall : Invocation.ofArguments arguments =
      .ok ⟨library, .generate name n limit? output? every⟩) :
    let result := w.runWith reader stamp vars arguments
    result.1.status = 0 ∧ ∃ d : Document, Document.Shows name s n stamp every d ∧
      w.Writes (w.outputFor vars name output?) d.text result.2 := by
  obtain ⟨d, text, hshows, hanswer⟩ := Command.answer_of_free (w.settings vars) stamp output?
    h.resolves h.fits h.drawable
  obtain ⟨w', hw'⟩ := Option.isSome_iff_exists.1 (h.writable d.text)
  have hrun : w.runWith reader stamp vars arguments = (.finished text, w') := by
    rw [h.opens.runWith_eq reader stamp hcall, answer_of_ok h.loads hanswer, deliver_of_write? rfl hw']
  rw [hrun]
  exact ⟨rfl, d, hshows, h.opens.addsFolders.writes (writes_of_write? hw')⟩

/-- Where the program exits with 0, nothing stood in the way. -/
theorem exists_exportable
    (hcall : Invocation.ofArguments arguments = .ok ⟨library, .generate name n limit? output? every⟩)
    (h : (w.runWith reader stamp vars arguments).1.status = 0) :
    ∃ v definitions s, w.Exportable reader vars v definitions s library name n limit? output? every := by
  obtain ⟨v, definitions, a, hopens, hdefs, hanswer, hrun⟩ := exists_of_status_zero hcall h
  obtain ⟨s, d, text, hs, hfits, hfree, hshows, rfl⟩ := Command.exists_of_answer_generate hanswer
  refine ⟨v, definitions, s, hopens, hdefs, hs, hfits, hfree, fun t => ?_⟩
  rw [hrun] at h
  cases hw : v.write? (w.outputFor vars name output?) d.text with
  | none =>
    rw [deliver_of_write?_none rfl hw] at h
    cases h
  | some w' =>
    rw [isSome_write? v _ t d.text, hw]
    rfl

/-- What nothing speaks against can be exported. -/
theorem exportable_of_not_refuses (hopens : w.Opens vars v)
    (hdefs : Program.library? reader (v.read library) = some definitions)
    (hnone : ∀ e, ¬ definitions.Refuses name n (w.limitFor vars limit?) every e)
    (hwrite : ∀ text, (v.write? (w.outputFor vars name output?) text).isSome) :
    ∃ s, w.Exportable reader vars v definitions s library name n limit? output? every := by
  rcases Command.refused_or_free definitions name n (w.limitFor vars limit?) every with
    ⟨e, he⟩ | ⟨s, hs, hfits, hfree⟩
  · exact absurd he (hnone e)
  · exact ⟨s, hopens, hdefs, hs, hfits, hfree, hwrite⟩

theorem Exportable.resolvesName
    (h : w.Exportable reader vars v definitions s library name n limit? output? every) :
    w.Resolves reader vars library name s :=
  ⟨v, definitions, h.opens, h.loads, h.resolves⟩

/-- What is refused is not written anywhere. -/
theorem runWith_of_refuses {e : Failure}
    (hcall : Invocation.ofArguments arguments = .ok ⟨library, .generate name n limit? output? every⟩)
    (hopens : w.Opens vars v) (hdefs : Program.library? reader (v.read library) = some definitions)
    (h : definitions.Refuses name n (w.limitFor vars limit?) every e) :
    w.runWith reader stamp vars arguments = (.failed e, v) := by
  rw [hopens.runWith_eq reader stamp hcall, answer_of_error hdefs (Command.answer_of_refuses h)]

/-! ## One file or none -/

/-- **A refused export leaves no trace, and any other one leaves one file.** Where the program does not
    even come to its command, it ends without a word as well. Why it refuses is settled by `Refuses`. -/
theorem generate_refused_or_written (w : Workspace) (reader : LibraryReader) (stamp : String)
    (vars : Variables)
    (hcall : Invocation.ofArguments arguments =
      .ok ⟨library, .generate name n limit? output? every⟩) :
    let result := w.runWith reader stamp vars arguments
    ((∀ v, ¬ w.Opens vars v) →
      result.1.status ≠ 0 ∧ result.1.output = "" ∧ w.SameFiles result.2) ∧
    ∀ v definitions, w.Opens vars v → Program.library? reader (v.read library) = some definitions →
      (∀ e, definitions.Refuses name n (w.limitFor vars limit?) every e →
        result.1 = .failed e ∧ result.1.status = 1 ∧ result.1.output = "" ∧ w.SameFiles result.2) ∧
      ((∀ e, ¬ definitions.Refuses name n (w.limitFor vars limit?) every e) →
        (∀ text, (v.write? (w.outputFor vars name output?) text).isSome) →
        result.1.status = 0 ∧
          ∃ d : Document, w.Writes (w.outputFor vars name output?) d.text result.2) := by
  intro result
  refine ⟨runWith_of_not_opens, fun v definitions hopens hdefs => ⟨fun e he => ?_, ?_⟩⟩
  · have hresult : result = (.failed e, v) := runWith_of_refuses hcall hopens hdefs he
    rw [hresult]
    exact ⟨rfl, rfl, rfl, hopens.addsFolders.files⟩
  · intro hnone hwrite
    obtain ⟨s, hexportable⟩ := exportable_of_not_refuses hopens hdefs hnone hwrite
    obtain ⟨hzero, d, -, hwrites⟩ := hexportable.exports stamp hcall
    exact ⟨hzero, d, hwrites⟩

/-- Words of 1, 7 and 20 symbols: an export under a limit of 10 leaves an older one as it is. -/
theorem generate_refused_tree :
    let w := ofFiles [("out/tree.json", "old")]
    let result := w.runProgram "" [] ["generate", "-s", "tree", "-i", "3", "--max-symbols", "10"]
    result.1 = .failed (.symbolLimit 2 20 10) ∧ result.1.status = 1 ∧ result.1.output = "" ∧
      w.SameFiles result.2 := by
  obtain ⟨s, hs, hlengths⟩ : ∃ s, Library.resolve [] "tree" = .ok s ∧
      (s.expand 1).length = 7 ∧ (s.expand 2).length = 20 :=
    ⟨_, rfl, by decide +kernel, by decide +kernel⟩
  have hk : IsLeast (s.excesses 10 0 3) 2 := by
    refine ⟨⟨by decide, by decide, by rw [Nat.zero_add, hlengths.2]; decide⟩, ?_⟩
    rintro k ⟨h1, -, hlong⟩
    by_contra hlt
    obtain rfl : k = 1 := by omega
    rw [Nat.zero_add, hlengths.1] at hlong
    exact absurd hlong (by decide)
  have hrefuses : Library.Refuses [] "tree" 3 10 false (.symbolLimit 2 20 10) := by
    rw [← hlengths.2]
    exact .tooLong hs hk
  have hopens : Opens (ofFiles [("out/tree.json", "old")]) [] _ :=
    opens_of_openLog (by decide +kernel) (by decide +kernel)
  have hcall :
      Invocation.ofArguments ["generate", "-s", "tree", "-i", "3", "--max-symbols", "10"] =
        .ok ⟨"systems.yaml", .generate "tree" 3 (some 10) none false⟩ := rfl
  exact ((generate_refused_or_written _ Yaml.library? "" [] hcall).2 _ [] hopens
    (library?_of_missing (by decide +kernel))).1 _ hrefuses

/-- Where a file stands in the way of the log, the program ends without looking for the system. -/
theorem generate_without_log :
    let w := ofFiles [("f", "")]
    let arguments := ["generate", "--system", "nosuch"]
    let result := w.runProgram "" [("LSYSTEM_LOG_DIR", "f/logs")] arguments
    Invocation.ofArguments arguments =
      .ok ⟨"systems.yaml", .generate "nosuch" 8 none none false⟩ ∧
    w.read "systems.yaml" = .missing ∧
    Library.resolve [] "nosuch" = .error (.unknownSystem "nosuch") ∧
    result.1 ≠ .failed (.unknownSystem "nosuch") := by
  refine ⟨rfl, by decide +kernel, rfl, ?_⟩
  have hblocked : (match (runProgram (ofFiles [("f", "")]) "" [("LSYSTEM_LOG_DIR", "f/logs")]
      ["generate", "--system", "nosuch"]).1 with | .blocked => true | _ => false) = true := by
    decide +kernel
  intro h
  rw [h] at hblocked
  cases hblocked

end Workspace

end LSystem
