import LSystem.Proofs.Program.Export
set_option autoImplicit false

/-! # How far the limit reaches

A limit is looked at whenever a generation has been grown, and only then. So whatever the program prints
or exports is of a generation within the limit, unless it is the word that a system starts from: that one
is never grown and never measured (`emitted_within_limit`). -/

namespace LSystem

theorem System.length_expand_le {s : System} {limit n k : Nat} (h : s.excesses limit 0 n = ∅)
    (h1 : 1 ≤ k) (hk : k ≤ n) : (s.expand k).length ≤ limit := by
  simpa only [Nat.zero_add] using excesses_eq_empty_iff.1 h k h1 hk

namespace Workspace

variable {w : Workspace} {reader : LibraryReader} {stamp : String} {vars : Variables}
  {arguments : List String} {library : Path} {command : Command}

/-- A word that the program prints stays within the limit unless it is printed as it was given. -/
theorem exists_of_expand_zero {name : String} {n : Nat} {limit? : Option Nat}
    (hcall : Invocation.ofArguments arguments = .ok ⟨library, .expand name n limit?⟩)
    (h : (w.runWith reader stamp vars arguments).1.status = 0) :
    ∃ s, w.Resolves reader vars library name s ∧ s.excesses (w.limitFor vars limit?) 0 n = ∅ ∧
      (w.runWith reader stamp vars arguments).1.output = String.ofList (s.expand n) ++ "\n" := by
  obtain ⟨v, definitions, a, hopens, hdefs, hanswer, hrun⟩ := exists_of_status_zero hcall h
  obtain ⟨s, hs, hfits, rfl⟩ := Command.exists_of_answer_expand hanswer
  refine ⟨s, ⟨v, definitions, hopens, hdefs, hs⟩, hfits, ?_⟩
  rw [hrun, deliver_of_none rfl]
  rfl

/-- **All that the program emits stays within the limit, but for the words that systems start from.** -/
theorem emitted_within_limit
    (hcall : Invocation.ofArguments arguments = .ok ⟨library, command⟩)
    (h : (w.runWith reader stamp vars arguments).1.status = 0) :
    let result := w.runWith reader stamp vars arguments
    (∀ name n limit?, command = .expand name n limit? →
      ∃ s, w.Resolves reader vars library name s ∧
        result.1.output = String.ofList (s.expand n) ++ "\n" ∧
        (1 ≤ n → (s.expand n).length ≤ w.limitFor vars limit?)) ∧
    (∀ name n limit? output?, command = .generate name n limit? output? false →
      ∃ (s : System) (d : GeometryDocument), w.Resolves reader vars library name s ∧
        result.2.read (w.outputFor vars name output?) = .text d.text ∧
        d.frame.generation = n ∧ d.symbols = (s.expand n).length ∧
        (1 ≤ n → d.symbols ≤ w.limitFor vars limit?)) ∧
    (∀ name n limit? output?, command = .generate name n limit? output? true →
      ∃ (s : System) (d : TraceDocument), w.Resolves reader vars library name s ∧
        result.2.read (w.outputFor vars name output?) = .text d.text ∧ d.frames.length = n + 1 ∧
        ∀ (k : Nat) (f : FrameDocument), d.frames[k]? = some f →
          (∃ g, (s.expand k).draw s.angle = .ok g ∧ f = .of k g) ∧
          (1 ≤ k → (s.expand k).length ≤ w.limitFor vars limit?)) := by
  intro result
  refine ⟨?_, ?_, ?_⟩
  · rintro name n limit? rfl
    obtain ⟨s, hs, hfits, houtput⟩ := exists_of_expand_zero hcall h
    exact ⟨s, hs, houtput, fun h1 => System.length_expand_le hfits h1 (Nat.le_refl n)⟩
  · rintro name n limit? output? rfl
    obtain ⟨v, definitions, s, hexportable⟩ := exists_exportable hcall h
    obtain ⟨-, d, hd, hwrites⟩ := hexportable.exports stamp hcall
    cases hd with
    | last hg =>
      exact ⟨s, _, hexportable.resolvesName, hwrites.read, rfl, rfl,
        fun h1 => System.length_expand_le hexportable.fits h1 (Nat.le_refl n)⟩
  · rintro name n limit? output? rfl
    obtain ⟨v, definitions, s, hexportable⟩ := exists_exportable hcall h
    obtain ⟨-, d, hd, hwrites⟩ := hexportable.exports stamp hcall
    cases hd with
    | @every frames hlength hframes =>
      have hlength' : (TraceDocument.ofFrames name s.angle frames stamp).frames.length = n + 1 := by
        rw [TraceDocument.length_frames_ofFrames, hlength]
      refine ⟨s, _, hexportable.resolvesName, hwrites.read, hlength', fun k f hf => ⟨?_, ?_⟩⟩
      · exact TraceDocument.exists_of_frame hframes hf
      · obtain ⟨hk, -⟩ := List.getElem?_eq_some_iff.1 hf
        exact fun h1 => System.length_expand_le hexportable.fits h1 (by omega)

/-- Printed under a limit that the word just meets. -/
theorem emitted_within_limit_dragon :
    let result := runProgram .empty "" [] ["expand", "-s", "dragon", "-i", "2", "--max-symbols", "7"]
    result.1.status = 0 ∧
      ∃ s, Resolves .empty Yaml.library? [] "systems.yaml" "dragon" s ∧
        result.1.output = String.ofList (s.expand 2) ++ "\n" ∧
        (1 ≤ 2 → (s.expand 2).length ≤ 7) := by
  intro result
  have hcall : Invocation.ofArguments ["expand", "-s", "dragon", "-i", "2", "--max-symbols", "7"] =
      .ok ⟨"systems.yaml", .expand "dragon" 2 (some 7)⟩ := rfl
  have h : result.1.status = 0 := by decide +kernel
  exact ⟨h, (emitted_within_limit hcall h).1 "dragon" 2 (some 7) rfl⟩

/-- A word of five symbols is printed and drawn under a limit of one. -/
theorem emitted_beyond_limit :
    let run (arguments : List String) := runProgram .empty "" [] arguments
    let printed := run
      ["expand", "-s", "sierpinski_regular", "-i", "0", "--max-symbols", "1"]
    let drawn := run
      ["generate", "-s", "sierpinski_regular", "-i", "0", "--max-symbols", "1"]
    printed.1.status = 0 ∧ printed.1.output = "A-B-B\n" ∧ drawn.1.status = 0 := by
  decide +kernel

end Workspace

end LSystem
