import LSystem.Command.Answer
import LSystem.Proofs.Run.Limit
import LSystem.Proofs.Run.Trace
import LSystem.Proofs.Drawing.Brackets
import Mathlib.Order.Lattice.Nat
set_option autoImplicit false

/-! # How a command is answered

Both ways of drawing a system grow it under the limit first. The one grows a run and draws where it
ends; the other grows one on trial and then traces another, which has no limit, from the start. Either
way a command is refused for one of three reasons, and of these the first that applies is the one that
counts (`Refuses`): the name stands for no system, some generation behind the first is too long, or a
generation that is to be drawn cannot be. Where none applies the document shows just the generations
that were asked for (`Shows`). -/

namespace LSystem

/-! ## Reasons and documents -/

/-- The generations that cannot be drawn among those that are asked for: the `n`-th alone, or with
    `every` all up to it. -/
def System.obstacles (s : System) (n : Nat) (every : Bool) : Set Nat :=
  {k | k ∈ s.undrawable 0 n ∧ (every = true ∨ k = n)}

/-- Why a system of a library is not drawn up to generation `n`. -/
inductive Library.Refuses (library : Library) (name : String) (n limit : Nat) (every : Bool) :
    Failure → Prop
  | unresolved {e : Failure} (h : library.resolve name = .error e) :
      Refuses library name n limit every e
  | tooLong {s : System} {k : Nat} (hs : library.resolve name = .ok s)
      (hk : IsLeast (s.excesses limit 0 n) k) :
      Refuses library name n limit every (.symbolLimit k (s.expand k).length limit)
  | undrawable {s : System} {k i : Nat} (hs : library.resolve name = .ok s)
      (hfits : s.excesses limit 0 n = ∅) (hk : IsLeast (s.obstacles n every) k)
      (hi : (s.expand k).draw s.angle = .error (.unmatchedBracket i)) :
      Refuses library name n limit every (.unmatchedBracket i)

/-- The document shows generation `n` of a system, or with `every` all generations up to it. -/
inductive Document.Shows (name : String) (s : System) (n : Nat) (stamp : String) :
    Bool → Document → Prop
  | last {g : Geometry Float} (hg : (s.expand n).draw s.angle = .ok g) :
      Shows name s n stamp false (.geometry (.ofRun name (s.runAt n g) stamp))
  | every {frames : List Frame} (hlength : frames.length = n + 1)
      (hframes : ∀ (k : Nat) (f : Frame), frames[k]? = some f → f.Shows s k) :
      Shows name s n stamp true (.trace (.ofFrames name s.angle frames stamp))

namespace Command

variable {s : System} {name : String} {n limit : Nat} {output : Path} {stamp : String}

/-! ## Growing -/

theorem iterateTimes_start (s : System) (n : Nat) :
    (Run.start s).iterateTimes n = s.runAt n .blank := by
  have h := ((Run.IsRunOf.start s).iterateTimes n).eq_runAt
  have hgeneration : ((Run.start s).iterateTimes n).generation = n := by
    rw [Run.iterateTimes_generation]
    exact Nat.zero_add n
  rwa [hgeneration, Run.iterateTimes_geometry] at h

theorem grown_of_fits (h : s.excesses limit 0 n = ∅) : grown s n limit = .ok (s.runAt n .blank) := by
  rw [grown, (Run.IsRunOf.start s).iterateWithin_of_no_excess h, iterateTimes_start]
  rfl

theorem grown_of_tooLong {k : Nat} (h : IsLeast (s.excesses limit 0 n) k) :
    grown s n limit = .error (.symbolLimit k (s.expand k).length limit) := by
  have hgeneration : (Run.start s).generation + k = k := Nat.zero_add k
  rw [grown, (Run.IsRunOf.start s).iterateWithin_of_least_excess h, hgeneration]
  rfl

/-! ## Drawing -/

theorem exists_unmatchedBracket {k : Nat} {e : Failure}
    (h : (s.expand k).draw s.angle = .error e) : ∃ i, e = .unmatchedBracket i := by
  obtain ⟨i, hi, -⟩ := Walk.first_of_draw_error h
  exact ⟨i, hi⟩

/-- The first of the generations that cannot be drawn has an unmatched bracket. -/
theorem exists_first_obstacle {every : Bool} (hne : (s.obstacles n every).Nonempty) :
    ∃ k i, IsLeast (s.obstacles n every) k ∧
      (s.expand k).draw s.angle = .error (.unmatchedBracket i) := by
  have hk := isLeast_csInf hne
  obtain ⟨⟨-, e, he⟩, -⟩ := hk.1
  rw [Nat.zero_add] at he
  obtain ⟨i, rfl⟩ := exists_unmatchedBracket he
  exact ⟨_, i, hk, he⟩

theorem drawingAnswer_of_fits (hfits : s.excesses limit 0 n = ∅) {g : Geometry Float}
    (hg : (s.expand n).draw s.angle = .ok g) :
    ∃ text, drawingAnswer name s n limit output stamp =
      .ok ⟨some (output, .geometry (.ofRun name (s.runAt n g) stamp)), text⟩ := by
  unfold drawingAnswer
  rw [grown_of_fits hfits]
  simp only [bind, Except.bind, Run.runAt_draw_of_ok _ hg]
  exact ⟨_, rfl⟩

theorem drawingAnswer_of_error (hfits : s.excesses limit 0 n = ∅) {e : Failure}
    (he : (s.expand n).draw s.angle = .error e) :
    drawingAnswer name s n limit output stamp = .error e := by
  unfold drawingAnswer
  rw [grown_of_fits hfits]
  simp only [bind, Except.bind, Run.runAt_draw_of_error _ he]

theorem traceAnswer_of_drawable (hfits : s.excesses limit 0 n = ∅)
    (hall : ∀ k ≤ n, ∃ g, (s.expand k).draw s.angle = .ok g) :
    ∃ frames text, traceAnswer name s n limit output stamp =
        .ok ⟨some (output, .trace (.ofFrames name s.angle frames stamp)), text⟩ ∧
      frames.length = n + 1 ∧ ∀ (k : Nat) (f : Frame), frames[k]? = some f → f.Shows s k := by
  obtain ⟨frames, last, htrace, hlength, -, hframes⟩ :=
    Run.trace_runAt_of_drawable (s := s) (g := 0) (n := n) .blank (by simpa using hall)
  have hstart : (Run.start s).trace n = (s.runAt (0 + n) last.geometry, .ok frames) := htrace
  unfold traceAnswer
  rw [grown_of_fits hfits]
  simp only [bind, Except.bind, hstart]
  exact ⟨frames, _, rfl, hlength, by simpa using hframes⟩

theorem traceAnswer_of_undrawable (hfits : s.excesses limit 0 n = ∅) {k : Nat} {e : Failure}
    (hk : IsLeast (s.undrawable 0 n) k) (he : (s.expand k).draw s.angle = .error e) :
    traceAnswer name s n limit output stamp = .error e := by
  have hbefore : ∀ j < k, ∃ g, (s.expand (0 + j)).draw s.angle = .ok g := by
    intro j hj
    have hle : k ≤ n := hk.1.1
    refine Run.drawable_of_not_mem_undrawable (n := n) (by omega) fun hmem => ?_
    exact absurd (hk.2 hmem) (Nat.not_le.2 hj)
  obtain ⟨kept, htrace, -⟩ :=
    Run.trace_runAt_of_undrawable .blank hk.1.1 hbefore (by simpa using he)
  have hstart : (Run.start s).trace n = (s.runAt (0 + k) kept, .error e) := htrace
  unfold traceAnswer
  rw [grown_of_fits hfits]
  simp only [bind, Except.bind, hstart]

/-! ## Answering -/

variable {library : Library} {settings : Settings} {limit? : Option Nat} {output? : Option Path}
  {every : Bool}

theorem answer_of_refuses {e : Failure}
    (h : library.Refuses name n (limit?.getD settings.symbolLimit) every e) :
    answer settings library stamp (.generate name n limit? output? every) = .error e := by
  cases h with
  | unresolved h =>
    simp only [answer, h]
    rfl
  | tooLong hs hk =>
    simp only [answer, hs, bind, Except.bind]
    cases every with
    | false =>
      show drawingAnswer _ _ _ _ _ _ = _
      rw [drawingAnswer, grown_of_tooLong hk]
      rfl
    | true =>
      show traceAnswer _ _ _ _ _ _ = _
      rw [traceAnswer, grown_of_tooLong hk]
      rfl
  | undrawable hs hfits hk hi =>
    simp only [answer, hs, bind, Except.bind]
    cases every with
    | false =>
      obtain rfl : _ = n := by simpa using hk.1.2
      exact drawingAnswer_of_error hfits hi
    | true =>
      refine traceAnswer_of_undrawable hfits ?_ hi
      simpa [System.obstacles] using hk

theorem answer_of_free (settings : Settings) (stamp : String) (output? : Option Path) {s : System}
    (hs : library.resolve name = .ok s)
    (hfits : s.excesses (limit?.getD settings.symbolLimit) 0 n = ∅) (hfree : s.obstacles n every = ∅) :
    ∃ d text, d.Shows name s n stamp every ∧
      answer settings library stamp (.generate name n limit? output? every) =
        .ok ⟨some (output?.getD (defaultOutput settings name), d), text⟩ := by
  have hdrawable : ∀ k ≤ n, every = true ∨ k = n → ∃ g, (s.expand k).draw s.angle = .ok g := by
    intro k hk hasked
    rw [← Nat.zero_add k]
    refine Run.drawable_of_not_mem_undrawable hk fun hmem => ?_
    have hnone : k ∈ s.obstacles n every := ⟨hmem, hasked⟩
    rw [hfree] at hnone
    exact hnone
  simp only [answer, hs, bind, Except.bind]
  cases every with
  | false =>
    obtain ⟨g, hg⟩ := hdrawable n (Nat.le_refl n) (.inr rfl)
    obtain ⟨text, h⟩ := drawingAnswer_of_fits hfits hg
    exact ⟨_, text, .last hg, h⟩
  | true =>
    obtain ⟨frames, text, h, hlength, hframes⟩ :=
      traceAnswer_of_drawable hfits fun k hk => hdrawable k hk (.inl rfl)
    exact ⟨_, text, .every hlength hframes, h⟩

/-- A system is drawn unless there is a reason not to. -/
theorem refused_or_free (library : Library) (name : String) (n limit : Nat) (every : Bool) :
    (∃ e, library.Refuses name n limit every e) ∨
      ∃ s, library.resolve name = .ok s ∧ s.excesses limit 0 n = ∅ ∧ s.obstacles n every = ∅ := by
  cases hs : library.resolve name with
  | error e => exact .inl ⟨e, .unresolved hs⟩
  | ok s =>
    rcases (s.excesses limit 0 n).eq_empty_or_nonempty with hfits | hlong
    · rcases (s.obstacles n every).eq_empty_or_nonempty with hfree | hne
      · exact .inr ⟨s, rfl, hfits, hfree⟩
      · obtain ⟨k, i, hk, hi⟩ := exists_first_obstacle hne
        exact .inl ⟨_, .undrawable hs hfits hk hi⟩
    · exact .inl ⟨_, .tooLong hs (isLeast_csInf hlong)⟩

/-- What is answered has been found, has stayed within the limit and is drawn. -/
theorem exists_of_answer_generate {a : Answer}
    (h : answer settings library stamp (.generate name n limit? output? every) = .ok a) :
    ∃ s d text, library.resolve name = .ok s ∧
      s.excesses (limit?.getD settings.symbolLimit) 0 n = ∅ ∧ s.obstacles n every = ∅ ∧
      d.Shows name s n stamp every ∧
      a = ⟨some (output?.getD (defaultOutput settings name), d), text⟩ := by
  rcases refused_or_free library name n (limit?.getD settings.symbolLimit) every with
    ⟨e, he⟩ | ⟨s, hs, hfits, hfree⟩
  · rw [answer_of_refuses he] at h
    cases h
  · obtain ⟨d, text, hd, hanswer⟩ := answer_of_free settings stamp output? hs hfits hfree
    rw [hanswer] at h
    exact ⟨s, d, text, hs, hfits, hfree, hd, (Except.ok.inj h).symm⟩

/-! ## Printing -/

theorem answer_expand_of_error (settings : Settings) (stamp : String) {e : Failure}
    (h : library.resolve name = .error e) :
    answer settings library stamp (.expand name n limit?) = .error e := by
  simp only [answer, h]
  rfl

theorem answer_expand_of_tooLong (stamp : String) {k : Nat} (hs : library.resolve name = .ok s)
    (hk : IsLeast (s.excesses (limit?.getD settings.symbolLimit) 0 n) k) :
    answer settings library stamp (.expand name n limit?) =
      .error (.symbolLimit k (s.expand k).length (limit?.getD settings.symbolLimit)) := by
  simp only [answer, hs, bind, Except.bind, grown_of_tooLong hk]

theorem answer_expand_of_fits (stamp : String) (hs : library.resolve name = .ok s)
    (hfits : s.excesses (limit?.getD settings.symbolLimit) 0 n = ∅) :
    answer settings library stamp (.expand name n limit?) =
      .ok ⟨none, String.ofList (s.expand n) ++ "\n"⟩ := by
  simp only [answer, hs, bind, Except.bind, grown_of_fits hfits]
  rfl

/-- What is printed has been found and has stayed within the limit. -/
theorem exists_of_answer_expand {a : Answer}
    (h : answer settings library stamp (.expand name n limit?) = .ok a) :
    ∃ s, library.resolve name = .ok s ∧ s.excesses (limit?.getD settings.symbolLimit) 0 n = ∅ ∧
      a = ⟨none, String.ofList (s.expand n) ++ "\n"⟩ := by
  cases hs : library.resolve name with
  | error e =>
    rw [answer_expand_of_error settings stamp hs] at h
    cases h
  | ok s =>
    rcases (s.excesses (limit?.getD settings.symbolLimit) 0 n).eq_empty_or_nonempty with hfits | hlong
    · rw [answer_expand_of_fits stamp hs hfits] at h
      exact ⟨s, rfl, hfits, (Except.ok.inj h).symm⟩
    · rw [answer_expand_of_tooLong stamp hs (isLeast_csInf hlong)] at h
      cases h

end Command

end LSystem
