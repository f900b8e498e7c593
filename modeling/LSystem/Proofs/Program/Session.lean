import LSystem.Program.OnWorkspace
import LSystem.Proofs.Workspace.Writing
set_option autoImplicit false

/-! # What the program does to a workspace

On a workspace the program is a function, and `runWith_eq` says which one. It has two parts. In the
first the program sets up: where the environment file cannot be set or the log cannot be opened, it stops
there, without a word and with all files as they were (`runWith_of_not_opens`). All that the first part
leaves behind are folders. In the second it answers its command, and whatever it writes it writes in the
last step: it exits with 0 only where there is an answer and that step succeeds (`exists_of_status_zero`).
-/

namespace LSystem

deriving instance DecidableEq for LogOpening
deriving instance DecidableEq for Content

namespace Workspace

variable {w w' : Workspace} {reader : LibraryReader} {stamp : String} {vars : Variables}
  {arguments : List String}

/-- The settings that the program works with. -/
def settings (w : Workspace) (vars : Variables) : Settings := Settings.load vars w.environmentFile?

/-- How an answer is carried out. -/
def deliver (w : Workspace) (a : Answer) : Outcome × Workspace :=
  match a.document with
  | none => (.finished a.output, w)
  | some (path, document) =>
    match w.write? path document.text with
    | some w' => (.finished a.output, w')
    | none => (.blocked, w)

/-- How an invocation is answered. -/
def answer (w : Workspace) (reader : LibraryReader) (settings : Settings) (stamp : String)
    (call : Invocation) : Outcome × Workspace :=
  match Program.library? reader (w.read call.library) with
  | none => (.blocked, w)
  | some definitions =>
    match call.command.answer settings definitions stamp with
    | .error e => (.failed e, w)
    | .ok a => w.deliver a

theorem finish_host (w : Workspace) (stamp : String) (a : Answer) :
    Program.finish (host stamp) a w = w.deliver a := by
  unfold Program.finish deliver
  cases a.document with
  | none => rfl
  | some p =>
    obtain ⟨path, document⟩ := p
    simp only [host, bind, StateT.bind]
    cases w.write? path document.text <;> rfl

theorem perform_host (w : Workspace) (reader : LibraryReader) (settings : Settings) (stamp : String)
    (call : Invocation) :
    Program.perform (host stamp) reader settings call w = w.answer reader settings stamp call := by
  have hread : (host stamp).read call.library w = (w.read call.library, w) := rfl
  have hstamp : (host stamp).stamp w = (stamp, w) := rfl
  unfold Program.perform answer
  simp only [bind, StateT.bind, hread]
  cases Program.library? reader (w.read call.library) with
  | none => rfl
  | some definitions =>
    simp only [bind, StateT.bind, hstamp]
    cases call.command.answer settings definitions stamp with
    | error e => rfl
    | ok a => exact finish_host w stamp a

/-- **The program as a function of the workspace.** -/
theorem runWith_eq (w : Workspace) (reader : LibraryReader) (stamp : String) (vars : Variables)
    (arguments : List String) :
    w.runWith reader stamp vars arguments =
      if !(Settings.environment vars w.environmentFile?).areHoldable then (.unset, w)
      else
        match w.openLog "1970-01-01" (w.settings vars).logDirectory with
        | (.noFolder, v) => (.blocked, v)
        | (.noFile, v) => (.unlogged, v)
        | (.opened, v) =>
          match Invocation.ofArguments arguments with
          | .error misuse => (.misused misuse, v)
          | .ok call => v.answer reader (w.settings vars) stamp call := by
  have hfile : (host stamp).environmentFile w = (w.environmentFile?, w) := rfl
  have hlog (path : Path) : (host stamp).openLog path w = w.openLog "1970-01-01" path := rfl
  unfold runWith Program.run
  simp only [StateT.run, bind, StateT.bind, hfile]
  cases (Settings.environment vars w.environmentFile?).areHoldable with
  | false => rfl
  | true =>
    simp only [StateT.bind, hlog, settings, Bool.not_true, Bool.false_eq_true, if_false]
    obtain ⟨opening, v⟩ := w.openLog "1970-01-01" (Settings.load vars w.environmentFile?).logDirectory
    cases opening with
    | noFolder => rfl
    | noFile => rfl
    | opened =>
      cases Invocation.ofArguments arguments with
      | error misuse => rfl
      | ok call => exact perform_host v reader _ stamp call

/-! ## Setting up -/

theorem addsFolders_openLog (w : Workspace) (day : String) (path : Path) :
    w.AddsFolders (w.openLog day path).2 := by
  unfold openLog
  cases h : if (w.entry? path).isSome then some w else w.makeFolder? path with
  | none => exact .refl w
  | some v =>
    have hadds : w.AddsFolders v := by
      split_ifs at h
      · obtain rfl := Option.some.inj h
        exact .refl w
      · exact addsFolders_of_makeFolder? h
    show w.AddsFolders (if _ then (LogOpening.opened, v) else (LogOpening.noFile, v)).2
    split_ifs <;> exact hadds

/-- The program comes to its command, with the workspace `v` before it. -/
structure Opens (w : Workspace) (vars : Variables) (v : Workspace) : Prop where
  holdable : (Settings.environment vars w.environmentFile?).areHoldable = true
  opened : w.openLog "1970-01-01" (w.settings vars).logDirectory = (.opened, v)

theorem opens_of_openLog
    (holdable : (Settings.environment vars w.environmentFile?).areHoldable = true)
    (opened : (w.openLog "1970-01-01" (w.settings vars).logDirectory).1 = .opened) :
    w.Opens vars (w.openLog "1970-01-01" (w.settings vars).logDirectory).2 :=
  ⟨holdable, Prod.ext opened rfl⟩

theorem Opens.addsFolders (h : w.Opens vars w') : w.AddsFolders w' := by
  have hadds := w.addsFolders_openLog "1970-01-01" (w.settings vars).logDirectory
  rwa [h.opened] at hadds

theorem Opens.runWith_eq {call : Invocation} (h : w.Opens vars w') (reader : LibraryReader)
    (stamp : String) (hcall : Invocation.ofArguments arguments = .ok call) :
    w.runWith reader stamp vars arguments = w'.answer reader (w.settings vars) stamp call := by
  rw [Workspace.runWith_eq, h.holdable, h.opened, hcall]
  rfl

/-- Where the program does not come to its command, it says nothing and no file is touched. -/
theorem runWith_of_not_opens (h : ∀ v, ¬ w.Opens vars v) :
    let result := w.runWith reader stamp vars arguments
    result.1.status ≠ 0 ∧ result.1.output = "" ∧ w.SameFiles result.2 := by
  intro result
  have hresult : result = w.runWith reader stamp vars arguments := rfl
  rw [runWith_eq] at hresult
  cases hhold : (Settings.environment vars w.environmentFile?).areHoldable with
  | false =>
    simp only [hhold, Bool.not_false, if_true] at hresult
    rw [hresult]
    exact ⟨(by decide : Outcome.unset.status ≠ 0), rfl, (AddsFolders.refl w).files⟩
  | true =>
    have hadds := w.addsFolders_openLog "1970-01-01" (w.settings vars).logDirectory
    obtain ⟨⟨opening, v⟩, hlog⟩ : ∃ p, w.openLog "1970-01-01" (w.settings vars).logDirectory = p :=
      ⟨_, rfl⟩
    rw [hlog] at hadds
    simp only [hhold, hlog, Bool.not_true, Bool.false_eq_true, if_false] at hresult
    cases opening with
    | noFolder =>
      rw [hresult]
      exact ⟨(by decide : Outcome.blocked.status ≠ 0), rfl, hadds.files⟩
    | noFile =>
      rw [hresult]
      exact ⟨(by decide : Outcome.unlogged.status ≠ 0), rfl, hadds.files⟩
    | opened => exact absurd ⟨hhold, hlog⟩ (h v)

/-! ## Answering -/

variable {settings : Settings} {call : Invocation} {a : Answer}

/-- Without a file of definitions there are none. -/
theorem library?_of_missing {path : Path} (h : w.read path = .missing) :
    Program.library? reader (w.read path) = some [] := by
  rw [h]
  rfl

/-- An answer without a document is only printed. -/
theorem deliver_of_none (h : a.document = none) : w.deliver a = (.finished a.output, w) := by
  rw [deliver, h]

/-- An answer with a document is printed once the document is written. -/
theorem deliver_of_write? {path : Path} {d : Document} (h : a.document = some (path, d))
    (hw : w.write? path d.text = some w') : w.deliver a = (.finished a.output, w') := by
  rw [deliver, h]
  simp only [hw]

theorem deliver_of_write?_none {path : Path} {d : Document} (h : a.document = some (path, d))
    (hw : w.write? path d.text = none) : w.deliver a = (.blocked, w) := by
  rw [deliver, h]
  simp only [hw]

theorem answer_of_error {definitions : Library} {e : Failure}
    (hdefs : Program.library? reader (w.read call.library) = some definitions)
    (h : call.command.answer settings definitions stamp = .error e) :
    w.answer reader settings stamp call = (.failed e, w) := by
  simp only [answer, hdefs, h]

theorem answer_of_ok {definitions : Library}
    (hdefs : Program.library? reader (w.read call.library) = some definitions)
    (h : call.command.answer settings definitions stamp = .ok a) :
    w.answer reader settings stamp call = w.deliver a := by
  simp only [answer, hdefs, h]

/-- The program exits with 0 only if it comes to its command, finds the definitions and carries out an
    answer. -/
theorem exists_of_status_zero (hcall : Invocation.ofArguments arguments = .ok call)
    (h : (w.runWith reader stamp vars arguments).1.status = 0) :
    ∃ v definitions a, w.Opens vars v ∧
      Program.library? reader (v.read call.library) = some definitions ∧
      call.command.answer (w.settings vars) definitions stamp = .ok a ∧
      w.runWith reader stamp vars arguments = v.deliver a := by
  by_cases hopens : ∃ v, w.Opens vars v
  · obtain ⟨v, hv⟩ := hopens
    have hrun := hv.runWith_eq reader stamp hcall
    rw [hrun, answer] at h
    cases hdefs : Program.library? reader (v.read call.library) with
    | none =>
      simp only [hdefs] at h
      cases h
    | some definitions =>
      cases ha : call.command.answer (w.settings vars) definitions stamp with
      | error e =>
        simp only [hdefs, ha] at h
        cases h
      | ok a => exact ⟨v, definitions, a, hv, hdefs, ha, hrun.trans (answer_of_ok hdefs ha)⟩
  · exact absurd h (runWith_of_not_opens (not_exists.1 hopens)).1

end Workspace

end LSystem
