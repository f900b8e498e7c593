import LSystem.Proofs.Decimal.Count
import LSystem.Proofs.Program.Expand
set_option autoImplicit false

/-! # Where settings come from

A variable has the text that the process gives to it; else the text that the environment file assigns to it
first, as far as the file can be read; else none (`effective?`). The program may as well make the
assignments one after the other, each only where there is no text yet: the settings are the same. The file
is the nearest one on the way up from the working directory (`environmentFile?_eq_some_iff`). The limit is
such a text where it writes a count that fits, and the default where it does not; an option on the command
line goes in front of either.

A process cannot hold a text with a character of code 0. Where the file assigns one, the program ends
before there are any settings (`settings_law`). -/

namespace LSystem

/-! ## Assignments of a file -/

namespace EnvFile

/-- The assignment that a line makes. -/
def Statement.assignment? : Statement → Option (String × String)
  | .assignment name value => some (name, value)
  | _ => none

/-- Whether a line says something. -/
def Statement.isWellFormed : Statement → Bool
  | .malformed => false
  | _ => true

/-- What the lines of a file say, each where the variables are set that earlier lines assign to. A line
    that is not finished is malformed. -/
def statementsOf (vars : Variables) : List (Option (List Char)) → List Statement
  | [] => []
  | none :: rest => .malformed :: statementsOf vars rest
  | some line :: rest =>
    let statement := Statement.ofLine vars line
    statement :: statementsOf (vars ++ statement.assignment?.toList) rest

/-- What an environment file says, line by line; a byte order mark in front does not matter. -/
def statements (vars : Variables) (text : String) : List Statement :=
  let cs := match text.toList with
    | '\ufeff' :: cs => cs
    | cs => cs
  statementsOf vars (lines [] .plain (textLines cs))

/-- The assignments of a file are those in front of its first malformed line, in their order. -/
theorem assignmentsOf_eq (vars : Variables) (ls : List (Option (List Char))) :
    assignmentsOf vars ls =
      ((statementsOf vars ls).takeWhile (·.isWellFormed)).filterMap (·.assignment?) := by
  induction ls generalizing vars with
  | nil => rfl
  | cons l ls ih =>
    cases l with
    | none => rfl
    | some line =>
      rw [assignmentsOf, statementsOf]
      cases h : Statement.ofLine vars line with
      | nothing => simp [Statement.isWellFormed, Statement.assignment?, ih]
      | assignment name value => simp [Statement.isWellFormed, Statement.assignment?, ih]
      | malformed => simp [Statement.isWellFormed]

theorem assignments_eq (vars : Variables) (text : String) :
    assignments vars text =
      ((statements vars text).takeWhile (·.isWellFormed)).filterMap (·.assignment?) :=
  assignmentsOf_eq vars _

end EnvFile

/-! ## Variables -/

namespace Variables

/-- The variables with one more assignment, which counts where the name has no value yet. -/
def setUnlessSet (vars : Variables) (assignment : String × String) : Variables :=
  if (vars.get? assignment.1).isSome then vars else vars ++ [assignment]

theorem get?_setUnlessSet (vars : Variables) (assignment : String × String) (name : String) :
    (vars.setUnlessSet assignment).get? name =
      (vars.get? name).or (get? [assignment] name) := by
  unfold setUnlessSet
  split_ifs with hset
  · by_cases hname : name = assignment.1
    · obtain ⟨value, hvalue⟩ := Option.isSome_iff_exists.1 hset
      rw [hname, hvalue, Option.some_or]
    · have hnone : get? [assignment] name = none := by
        rw [get?, List.lookup_eq_none_iff]
        simpa using hname
      rw [hnone, Option.or_none]
  · exact get?_append vars [assignment] name

/-- One after the other, the first assignment of each name counts. -/
theorem get?_foldl_setUnlessSet (vars assignments : Variables) (name : String) :
    get? (assignments.foldl setUnlessSet vars) name = (vars.get? name).or (assignments.get? name) := by
  induction assignments generalizing vars with
  | nil => simp [get?]
  | cons assignment assignments ih =>
    have hcons : get? (assignment :: assignments) name =
        (get? [assignment] name).or (get? assignments name) :=
      get?_append [assignment] assignments name
    rw [List.foldl_cons, ih, get?_setUnlessSet, hcons, Option.or_assoc]

end Variables

/-! ## Settings -/

namespace Settings

/-- The assignments of an environment file, if there is one: those in front of the first line that is
    malformed. -/
def assigned (vars : Variables) (file : Option String) : Variables :=
  match file with
  | none => []
  | some text =>
    ((EnvFile.statements vars text).takeWhile (·.isWellFormed)).filterMap (·.assignment?)

/-- The text of a variable: as the process has it, else as it is assigned first. -/
def effective? (vars : Variables) (file : Option String) (name : String) : Option String :=
  (vars.get? name).or ((assigned vars file).get? name)

theorem get?_environment (vars : Variables) (file : Option String) (name : String) :
    (environment vars file).get? name = effective? vars file name := by
  unfold effective? assigned environment
  cases file with
  | none => simp [Variables.get?]
  | some text => rw [Variables.get?_append, EnvFile.assignments_eq]

/-- The settings depend on what the variables show only. -/
theorem load_eq (vars : Variables) (file : Option String) :
    load vars file =
      ⟨(effective? vars file "LSYSTEM_LOG_DIR").getD "logs",
        (effective? vars file "LSYSTEM_OUTPUT_DIR").getD "out",
        ((effective? vars file "LSYSTEM_MAX_SYMBOLS").bind Decimal.count?).getD 5000000⟩ := by
  simp only [load, ofVariables, get?_environment, default]

theorem load_eq_ofVariables_foldl (vars : Variables) (file : Option String) :
    load vars file = ofVariables ((assigned vars file).foldl Variables.setUnlessSet vars) := by
  rw [load_eq]
  simp only [ofVariables, Variables.get?_foldl_setUnlessSet, default]
  rfl

/-- The limit is the count that the text writes, where it writes one that fits. -/
theorem symbolLimit_of_writes {vars : Variables} {file : Option String} {text : String} {n : Nat}
    (htext : effective? vars file "LSYSTEM_MAX_SYMBOLS" = some text) (hn : Decimal.Writes text n)
    (hfits : n < 2 ^ 64) : (load vars file).symbolLimit = n := by
  rw [load_eq, htext, Option.bind_some, Decimal.count?_eq_some_iff.2 ⟨hn, hfits⟩, Option.getD_some]

/-- Without such a text the limit is the default. -/
theorem symbolLimit_of_not_writes {vars : Variables} {file : Option String}
    (h : ∀ text n, effective? vars file "LSYSTEM_MAX_SYMBOLS" = some text →
      Decimal.Writes text n → 2 ^ 64 ≤ n) : (load vars file).symbolLimit = 5000000 := by
  have hnone : (effective? vars file "LSYSTEM_MAX_SYMBOLS").bind Decimal.count? = none := by
    rw [Option.eq_none_iff_forall_ne_some]
    intro n hn
    obtain ⟨text, htext, hcount⟩ := Option.bind_eq_some_iff.1 hn
    obtain ⟨hwrites, hfits⟩ := Decimal.count?_eq_some_iff.1 hcount
    exact absurd (h text n htext hwrites) (Nat.not_le.2 hfits)
  rw [load_eq, hnone, Option.getD_none]

/-- A process can hold the variables unless one of them has a character of code 0. -/
theorem areHoldable_environment_iff {vars : Variables} {file : Option String} :
    (environment vars file).areHoldable = true ↔
      ∀ name text, effective? vars file name = some text → '\x00' ∉ text.toList := by
  simp only [← get?_environment]
  generalize environment vars file = env
  rw [Variables.areHoldable, List.all_eq_true]
  constructor
  · intro h name text htext
    obtain ⟨earlier, later, hsplit, -⟩ := List.lookup_eq_some_iff.1 htext
    have hmem : (name, text) ∈ env := by
      rw [hsplit]
      exact List.mem_append_right _ List.mem_cons_self
    simpa [htext] using h _ hmem
  · rintro h ⟨name, value⟩ -
    cases htext : env.get? name with
    | none => simp [htext]
    | some text => simpa [htext] using h name text htext

end Settings

namespace Workspace

/-! ## The environment file -/

theorem length_le_reach {w : Workspace} {l : Location} {e : Entry} (h : w.get? l = some e) :
    l.length ≤ w.reach :=
  List.le_max?_getD_of_mem (List.mem_map.2 ⟨(l, e), (Table.mem_entries_iff w l e).2 h, rfl⟩)

theorem lt_reach_of_environmentFileIn? {w : Workspace} {k : Nat} {text : String}
    (h : w.environmentFileIn? (List.replicate k "..") = some text) : k < w.reach := by
  unfold environmentFileIn? at h
  split at h
  · rename_i content hat
    unfold at? at hat
    split at hat
    · cases hat
    · have hlength := length_le_reach hat
      rwa [List.length_cons, List.length_replicate] at hlength
  · cases h

/-- The nearest file is found, however far up it is. -/
theorem environmentFile?_of_nearest {w : Workspace} {k : Nat} {text : String}
    (h : w.environmentFileIn? (List.replicate k "..") = some text)
    (hnearer : ∀ j < k, w.environmentFileIn? (List.replicate j "..") = none) :
    w.environmentFile? = some text := by
  obtain ⟨n, hn⟩ := Nat.exists_eq_add_of_lt (lt_reach_of_environmentFileIn? h)
  obtain ⟨farther, hsplit⟩ : ∃ farther, List.range w.reach = List.range k ++ k :: farther := by
    rw [hn, Nat.add_assoc, List.range_add, List.range_succ_eq_map]
    exact ⟨_, rfl⟩
  refine List.findSome?_eq_some_iff.2 ⟨(List.range k).map (List.replicate · ".."),
    List.replicate k "..", farther.map (List.replicate · "..") ++ [["/"]], ?_, h, ?_⟩
  · rw [upward, hsplit, List.map_append, List.map_cons, List.append_assoc, List.cons_append]
  · simpa using hnearer

/-- Where no folder on the way up has a file, the root is left. -/
theorem environmentFile?_of_root {w : Workspace}
    (hnone : ∀ k, w.environmentFileIn? (List.replicate k "..") = none) :
    w.environmentFile? = w.environmentFileIn? ["/"] := by
  have hfolders : ((List.range w.reach).map (List.replicate · "..")).findSome? w.environmentFileIn? =
      none := by
    simpa using fun k _ => hnone k
  rw [environmentFile?, upward, List.findSome?_append, hfolders, Option.none_or, List.findSome?_singleton]

/-- **Which environment file counts.** It is that of the nearest folder on the way up which has one, and that
    of the root if there is no other. -/
theorem environmentFile?_eq_some_iff {w : Workspace} {text : String} :
    w.environmentFile? = some text ↔
      (∃ k, w.environmentFileIn? (List.replicate k "..") = some text ∧
        ∀ j < k, w.environmentFileIn? (List.replicate j "..") = none) ∨
      (∀ k, w.environmentFileIn? (List.replicate k "..") = none) ∧
        w.environmentFileIn? ["/"] = some text := by
  constructor
  · intro h
    by_cases hsome : ∃ k, w.environmentFileIn? (List.replicate k "..") ≠ none
    · obtain ⟨found, hfound⟩ := Option.ne_none_iff_exists'.1 (Nat.find_spec hsome)
      have hnearer : ∀ j < Nat.find hsome, w.environmentFileIn? (List.replicate j "..") = none :=
        fun j hj => not_not.1 (Nat.find_min hsome hj)
      rw [environmentFile?_of_nearest hfound hnearer] at h
      exact .inl ⟨_, hfound.trans h, hnearer⟩
    · have hnone : ∀ k, w.environmentFileIn? (List.replicate k "..") = none := by
        simpa using hsome
      exact .inr ⟨hnone, environmentFile?_of_root hnone ▸ h⟩
  · rintro (⟨k, hfound, hnearer⟩ | ⟨hnone, hroot⟩)
    · exact environmentFile?_of_nearest hfound hnearer
    · exact (environmentFile?_of_root hnone).trans hroot

/-- The file two folders up counts, and the one at the root does not. -/
example : environmentFile? (ofFiles [("../../.env", "A=1"), ("/.env", "A=2")]) = some "A=1" :=
  environmentFile?_eq_some_iff.2 (.inl ⟨2, by decide +kernel, by decide +kernel⟩)

/-! ## The program -/

variable {w v : Workspace} {reader : LibraryReader} {stamp : String} {vars : Variables}
  {arguments : List String} {library : Path} {definitions : Library} {name : String} {n : Nat}
  {limit? : Option Nat} {output? : Option Path} {every : Bool}

theorem answer_ne_unset (w : Workspace) (reader : LibraryReader) (settings : Settings) (stamp : String)
    (call : Invocation) : (w.answer reader settings stamp call).1 ≠ .unset := by
  unfold answer
  split
  · exact Outcome.noConfusion
  · split
    · exact Outcome.noConfusion
    · unfold deliver
      split
      · exact Outcome.noConfusion
      · split <;> exact Outcome.noConfusion

/-- The program ends before it has settings where it cannot hold what the file assigns, and only there. -/
theorem runWith_unset_iff :
    (w.runWith reader stamp vars arguments).1 = .unset ↔
      (Settings.environment vars w.environmentFile?).areHoldable = false := by
  rw [runWith_eq]
  cases (Settings.environment vars w.environmentFile?).areHoldable with
  | false => exact iff_of_true rfl rfl
  | true =>
    refine iff_of_false ?_ Bool.noConfusion
    rw [if_neg (by decide)]
    split
    · exact Outcome.noConfusion
    · exact Outcome.noConfusion
    · split
      · exact Outcome.noConfusion
      · exact answer_ne_unset _ _ _ _ _

theorem runWith_of_not_holdable (reader : LibraryReader) (stamp : String) (arguments : List String)
    (h : (Settings.environment vars w.environmentFile?).areHoldable = false) :
    w.runWith reader stamp vars arguments = (.unset, w) := by
  rw [runWith_eq, h]
  rfl

/-- What nothing speaks against is exported. -/
theorem status_of_not_refuses (stamp : String)
    (hcall : Invocation.ofArguments arguments =
      .ok ⟨library, .generate name n limit? output? every⟩)
    (hopens : w.Opens vars v) (hdefs : Program.library? reader (v.read library) = some definitions)
    (hnone : ∀ e, ¬ definitions.Refuses name n (w.limitFor vars limit?) every e)
    (hwrite : ∀ text, (v.write? (w.outputFor vars name output?) text).isSome) :
    (w.runWith reader stamp vars arguments).1.status = 0 := by
  obtain ⟨s, hexportable⟩ := exportable_of_not_refuses hopens hdefs hnone hwrite
  exact (hexportable.exports stamp hcall).1

/-- **Where the settings come from, and what becomes of them.** Each is the text of its variable, be it the
    one that the process has or the first that the file assigns in front of its first malformed line, or it
    is the default; the limit is the default, too, where its text writes no count below `2 ^ 64`. To make
    the assignments of the file one by one, each unless there is a text already, comes to the same. Where
    some text cannot be held by a process, and only there, the program ends at once and touches nothing.
    Under the limit, unless another one is given with the command, `expand` and `generate` are carried
    out. -/
theorem settings_law (w : Workspace) (vars : Variables) :
    let text? := Settings.effective? vars w.environmentFile?
    let settings := w.settings vars
    settings = .ofVariables
      ((Settings.assigned vars w.environmentFile?).foldl Variables.setUnlessSet vars) ∧
    settings.logDirectory = (text? "LSYSTEM_LOG_DIR").getD "logs" ∧
    settings.outputDirectory = (text? "LSYSTEM_OUTPUT_DIR").getD "out" ∧
    (∀ text n, text? "LSYSTEM_MAX_SYMBOLS" = some text → Decimal.Writes text n → n < 2 ^ 64 →
      settings.symbolLimit = n) ∧
    ((∀ text n, text? "LSYSTEM_MAX_SYMBOLS" = some text → Decimal.Writes text n → 2 ^ 64 ≤ n) →
      settings.symbolLimit = 5000000) ∧
    ∀ reader stamp arguments,
      let result := w.runWith reader stamp vars arguments
      (result.1 = .unset ↔ ∃ name text, text? name = some text ∧ '\x00' ∈ text.toList) ∧
      (result.1 = .unset → result.1.status = 101 ∧ result.1.output = "" ∧ result.2 = w) ∧
      ∀ v library definitions, w.Opens vars v →
        Program.library? reader (v.read library) = some definitions → ∀ name n limit?,
        let limit := limit?.getD settings.symbolLimit
        (Invocation.ofArguments arguments = .ok ⟨library, .expand name n limit?⟩ →
          definitions.Prints name n limit result.1) ∧
        ∀ output? every, Invocation.ofArguments arguments =
            .ok ⟨library, .generate name n limit? output? every⟩ →
          (∀ e, definitions.Refuses name n limit every e → result.1 = .failed e) ∧
          ((∀ e, ¬ definitions.Refuses name n limit every e) →
            (∀ text, (v.write? (w.outputFor vars name output?) text).isSome) →
            result.1.status = 0) := by
  intro text? settings
  have hload : settings = .load vars w.environmentFile? := rfl
  refine ⟨Settings.load_eq_ofVariables_foldl _ _, ?_, ?_, ?_, ?_, ?_⟩
  · rw [hload, Settings.load_eq]
  · rw [hload, Settings.load_eq]
  · intro text n htext hn hfits
    exact Settings.symbolLimit_of_writes htext hn hfits
  · intro h
    exact Settings.symbolLimit_of_not_writes h
  · intro reader stamp arguments result
    refine ⟨?_, ?_, ?_⟩
    · rw [runWith_unset_iff, ← Bool.not_eq_true, Settings.areHoldable_environment_iff]
      simp only [not_forall, not_not, exists_prop]
      rfl
    · intro hunset
      have hresult : result = (.unset, w) :=
        runWith_of_not_holdable reader stamp arguments (runWith_unset_iff.1 hunset)
      rw [hresult]
      exact ⟨rfl, rfl, rfl⟩
    · intro v library definitions hopens hdefs name n limit? limit
      refine ⟨?_, ?_⟩
      · intro hcall
        obtain ⟨o, hrun, hprints⟩ := runWith_expand stamp hcall hopens hdefs
        have hresult : result = (o, v) := hrun
        rw [hresult]
        exact hprints
      · intro output? every hcall
        refine ⟨?_, status_of_not_refuses stamp hcall hopens hdefs⟩
        intro e he
        exact congrArg Prod.fst (runWith_of_refuses hcall hopens hdefs he)

/-- A limit of code 0 is no count, so the default should be the limit, and under the default the first
    generation of the dragon curve is printed. The program does not get so far. -/
theorem not_printed_under_unheld_limit :
    let w := ofFiles [(".env", "LSYSTEM_MAX_SYMBOLS=\x00\n")]
    let arguments := ["expand", "--system", "dragon", "--iterations", "1"]
    let result := w.runProgram "" [] arguments
    Invocation.ofArguments arguments = .ok ⟨"systems.yaml", .expand "dragon" 1 none⟩ ∧
    w.read "systems.yaml" = .missing ∧
    Settings.effective? [] w.environmentFile? "LSYSTEM_MAX_SYMBOLS" = some "\x00" ∧
    (∀ n, ¬ Decimal.Writes "\x00" n) ∧
    Library.Prints [] "dragon" 1 Settings.default.symbolLimit (.finished "A+B\n") ∧
    ¬ Library.Prints [] "dragon" 1 Settings.default.symbolLimit result.1 := by
  intro w arguments result
  have hstatus : result.1.status = 101 := by decide +kernel
  refine ⟨rfl, by decide +kernel, by decide +kernel, ?_, ?_, ?_⟩
  · rintro n ⟨digits, hdigits, htext⟩
    have hzero : '\x00' ∈ digits := by
      rcases htext with htext | htext
      · rw [← htext]
        exact List.mem_singleton_self _
      · exact absurd (List.cons.inj htext).1 (by decide)
    exact absurd (hdigits.decimal _ hzero).1 (by decide)
  · obtain ⟨s, hs, hout, hfits⟩ : ∃ s, Library.resolve [] "dragon" = .ok s ∧
        String.ofList (s.expand 1) ++ "\n" = "A+B\n" ∧
        (s.expand 1).length ≤ Settings.default.symbolLimit :=
      ⟨_, rfl, by decide +kernel, by decide +kernel⟩
    rw [← hout]
    refine .printed hs ?_
    intro k h1 hk
    obtain rfl : k = 1 := by omega
    exact hfits
  · intro h
    have hone := (h.of_status_ne_zero (by rw [hstatus]; decide)).1
    rw [hstatus] at hone
    exact absurd hone (by decide)

end Workspace

end LSystem
