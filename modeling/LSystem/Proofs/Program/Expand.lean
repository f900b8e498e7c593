import LSystem.Proofs.Library.Resolve
import LSystem.Proofs.Program.Export
set_option autoImplicit false

/-! # Printing a generation

What `expand` prints, and why it prints nothing. Once the program has come to its command, its outcome is
settled by what the definitions make of one name, by the number of steps and by the limit (`Prints`), and
there is always exactly one; the rest of the workspace has no part in it, and no file is touched
(`expand_law`). -/

namespace LSystem

/-- How it ends when generation `n` of what a name stands for is to be printed under a limit. -/
inductive Library.Prints (library : Library) (name : String) (n limit : Nat) : Outcome → Prop
  | unresolved {e : Failure} (h : library.resolve name = .error e) :
      Prints library name n limit (.failed e)
  | tooLong {s : System} {k : Nat} (hs : library.resolve name = .ok s)
      (hk : IsLeast {k | 1 ≤ k ∧ k ≤ n ∧ limit < (s.expand k).length} k) :
      Prints library name n limit (.failed (.symbolLimit k (s.expand k).length limit))
  | printed {s : System} (hs : library.resolve name = .ok s)
      (hfits : ∀ k, 1 ≤ k → k ≤ n → (s.expand k).length ≤ limit) :
      Prints library name n limit (.finished (String.ofList (s.expand n) ++ "\n"))

namespace Library.Prints

variable {library library' : Library} {name : String} {n limit : Nat} {o o' : Outcome}

/-- Of the ways to end only one applies. -/
theorem unique (h : library.Prints name n limit o) (h' : library.Prints name n limit o') : o = o' := by
  cases h with
  | unresolved h =>
    cases h' with
    | unresolved h' =>
      rw [h] at h'
      rw [Except.error.inj h']
    | tooLong hs' | printed hs' =>
      rw [h] at hs'
      cases hs'
  | tooLong hs hk =>
    cases h' with
    | unresolved h' =>
      rw [hs] at h'
      cases h'
    | tooLong hs' hk' =>
      rw [hs] at hs'
      obtain rfl := Except.ok.inj hs'
      rw [hk.unique hk']
    | printed hs' hfits' =>
      rw [hs] at hs'
      obtain rfl := Except.ok.inj hs'
      obtain ⟨⟨h1, hn, hlong⟩, -⟩ := hk
      exact absurd (hfits' _ h1 hn) (Nat.not_le.2 hlong)
  | printed hs hfits =>
    cases h' with
    | unresolved h' =>
      rw [hs] at h'
      cases h'
    | tooLong hs' hk' =>
      rw [hs] at hs'
      obtain rfl := Except.ok.inj hs'
      obtain ⟨⟨h1, hn, hlong⟩, -⟩ := hk'
      exact absurd (hfits _ h1 hn) (Nat.not_le.2 hlong)
    | printed hs' =>
      rw [hs] at hs'
      rw [Except.ok.inj hs']

/-- Definitions of other names make no difference. -/
theorem of_filter_eq (h : library.Prints name n limit o)
    (hfilter : library'.filter (·.name == name) = library.filter (·.name == name)) :
    library'.Prints name n limit o := by
  have hresolve : library'.resolve name = library.resolve name := by
    rw [← resolve_filter library', hfilter, resolve_filter]
  cases h with
  | unresolved h => exact .unresolved (hresolve.trans h)
  | tooLong hs hk => exact .tooLong (hresolve.trans hs) hk
  | printed hs hfits => exact .printed (hresolve.trans hs) hfits

theorem status_eq_zero_iff (h : library.Prints name n limit o) :
    o.status = 0 ↔ ∃ s, library.resolve name = .ok s ∧
      ∀ k, 1 ≤ k → k ≤ n → (s.expand k).length ≤ limit := by
  cases h with
  | unresolved h =>
    constructor
    · intro hzero
      simp [Outcome.status] at hzero
    · rintro ⟨s, hs, -⟩
      rw [h] at hs
      cases hs
  | tooLong hs hk =>
    constructor
    · intro hzero
      simp [Outcome.status] at hzero
    · rintro ⟨s', hs', hfits⟩
      rw [hs] at hs'
      obtain rfl := Except.ok.inj hs'
      obtain ⟨⟨h1, hn, hlong⟩, -⟩ := hk
      exact absurd (hfits _ h1 hn) (Nat.not_le.2 hlong)
  | printed hs hfits => exact ⟨fun _ => ⟨_, hs, hfits⟩, fun _ => rfl⟩

/-- Whatever is refused is refused without a word. -/
theorem of_status_ne_zero (h : library.Prints name n limit o) (hne : o.status ≠ 0) :
    o.status = 1 ∧ o.output = "" := by
  cases h with
  | unresolved h => exact ⟨rfl, rfl⟩
  | tooLong hs hk => exact ⟨rfl, rfl⟩
  | printed hs hfits => exact absurd rfl hne

end Library.Prints

namespace Workspace

variable {w v : Workspace} {reader : LibraryReader} {stamp : String} {vars : Variables}
  {arguments : List String} {library : Path} {name : String} {n : Nat} {limit? : Option Nat}
  {definitions : Library}

/-- Once the program has come to its command it prints as the definitions say, and touches nothing. -/
theorem runWith_expand (stamp : String)
    (hcall : Invocation.ofArguments arguments = .ok ⟨library, .expand name n limit?⟩)
    (hopens : w.Opens vars v) (hdefs : Program.library? reader (v.read library) = some definitions) :
    ∃ o, w.runWith reader stamp vars arguments = (o, v) ∧
      definitions.Prints name n (w.limitFor vars limit?) o := by
  rw [hopens.runWith_eq reader stamp hcall]
  cases hs : definitions.resolve name with
  | error e =>
    exact ⟨_, answer_of_error hdefs (Command.answer_expand_of_error _ _ hs), .unresolved hs⟩
  | ok s =>
    rcases (s.excesses (w.limitFor vars limit?) 0 n).eq_empty_or_nonempty with hfits | hlong
    · refine ⟨_, (answer_of_ok hdefs (Command.answer_expand_of_fits _ hs hfits)).trans
        (deliver_of_none rfl), .printed hs ?_⟩
      simpa only [Nat.zero_add] using System.excesses_eq_empty_iff.1 hfits
    · have hk := isLeast_csInf hlong
      refine ⟨_, answer_of_error hdefs (Command.answer_expand_of_tooLong _ hs hk), .tooLong hs ?_⟩
      simpa only [System.excesses, Nat.zero_add] using hk

/-- **What `expand` comes to.** Where the program does not even come to its command, it ends without a word.
    Where it does, it prints the word that was asked for exactly when the name stands for a system and no
    generation on the way exceeds the limit, and otherwise it says what is in the way and prints nothing.
    It touches no file, and of the definitions only those of the name count. -/
theorem expand_law (w : Workspace) (reader : LibraryReader) (stamp : String) (vars : Variables)
    (hcall : Invocation.ofArguments arguments = .ok ⟨library, .expand name n limit?⟩) :
    let result := w.runWith reader stamp vars arguments
    let limit := w.limitFor vars limit?
    ((∀ v, ¬ w.Opens vars v) →
      result.1.status ≠ 0 ∧ result.1.output = "" ∧ w.SameFiles result.2) ∧
    ∀ (v : Workspace) (definitions : Library), w.Opens vars v →
      Program.library? reader (v.read library) = some definitions →
      definitions.Prints name n limit result.1 ∧
      (result.1.status = 0 ↔ ∃ s, definitions.resolve name = .ok s ∧
        ∀ k, 1 ≤ k → k ≤ n → (s.expand k).length ≤ limit) ∧
      (result.1.status ≠ 0 → result.1.status = 1 ∧ result.1.output = "") ∧
      w.SameFiles result.2 ∧
      ∀ (w' v' : Workspace) (definitions' : Library),
        w'.Opens vars v' → w'.limitFor vars limit? = limit →
        Program.library? reader (v'.read library) = some definitions' →
        definitions'.filter (·.name == name) = definitions.filter (·.name == name) →
        (w'.runWith reader stamp vars arguments).1 = result.1 := by
  intro result limit
  refine ⟨runWith_of_not_opens, ?_⟩
  intro v definitions hopens hdefs
  obtain ⟨o, hrun, hprints⟩ := runWith_expand stamp hcall hopens hdefs
  have hresult : result = (o, v) := hrun
  rw [hresult]
  refine ⟨hprints, hprints.status_eq_zero_iff, hprints.of_status_ne_zero, hopens.addsFolders.files, ?_⟩
  intro w' v' definitions' hopens' hlimit hdefs' hfilter
  obtain ⟨o', hrun', hprints'⟩ := runWith_expand stamp hcall hopens' hdefs'
  rw [hrun']
  rw [hlimit] at hprints'
  exact hprints'.unique (hprints.of_filter_eq hfilter)

/-- The second generation of the dragon curve, of seven symbols, under a limit that it just meets. -/
theorem expand_law_dragon :
    let result := runProgram .empty "" [] ["expand", "-s", "dragon", "-i", "2", "--max-symbols", "7"]
    Library.Prints [] "dragon" 2 7 result.1 ∧ result.1.status = 0 ∧ SameFiles .empty result.2 := by
  intro result
  have hcall : Invocation.ofArguments ["expand", "-s", "dragon", "-i", "2", "--max-symbols", "7"] =
      .ok ⟨"systems.yaml", .expand "dragon" 2 (some 7)⟩ := rfl
  have hopens : Opens .empty [] _ := opens_of_openLog (by decide +kernel) (by decide +kernel)
  obtain ⟨hprints, -, -, hfiles, -⟩ := (expand_law .empty Yaml.library? "" [] hcall).2 _ [] hopens
    (library?_of_missing (by decide +kernel))
  exact ⟨hprints, by decide +kernel, hfiles⟩

/-- Where a file stands in the way of the log, nothing is printed of a system that could be. -/
theorem expand_without_log :
    let w := ofFiles [("f", "")]
    let arguments := ["expand", "--system", "dragon", "--iterations", "1"]
    let result := w.runProgram "" [("LSYSTEM_LOG_DIR", "f/logs")] arguments
    Invocation.ofArguments arguments = .ok ⟨"systems.yaml", .expand "dragon" 1 none⟩ ∧
    w.read "systems.yaml" = .missing ∧
    (∃ s, Library.resolve [] "dragon" = .ok s ∧ ∀ k, 1 ≤ k → k ≤ 1 →
      (s.expand k).length ≤ w.limitFor [("LSYSTEM_LOG_DIR", "f/logs")] none) ∧
    result.1.status ≠ 0 := by
  refine ⟨rfl, by decide +kernel, ⟨_, rfl, ?_⟩, by decide +kernel⟩
  intro k h1 hk
  obtain rfl : k = 1 := by omega
  decide +kernel

end Workspace

end LSystem
