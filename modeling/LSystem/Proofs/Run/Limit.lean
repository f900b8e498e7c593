import LSystem.Proofs.Run.History
import Mathlib.Order.Bounds.Basic
set_option autoImplicit false

/-! # Growing within a limit

A capped run measures each generation before it commits to it. So it does what a run without a limit
does, up to the generation in front of the first that is too long, and there it stops for good: the
limit looks at nothing but the next word, which a refusal leaves as it was. Nothing is assumed of the
lengths, which may rise and fall from one generation to the next where productions erase. -/

namespace LSystem

/-- The numbers of steps, from one to `n`, that lead from generation `g` to a word longer than
    `limit`. -/
def System.excesses (s : System) (limit g n : Nat) : Set Nat :=
  {k | 1 ≤ k ∧ k ≤ n ∧ limit < (s.expand (g + k)).length}

theorem System.excesses_eq_empty_iff {s : System} {limit g n : Nat} :
    s.excesses limit g n = ∅ ↔ ∀ k, 1 ≤ k → k ≤ n → (s.expand (g + k)).length ≤ limit := by
  simp only [excesses, Set.eq_empty_iff_forall_notMem, Set.mem_ofPred_eq, not_and, Nat.not_lt]

namespace Run

variable {r r' : Run} {limit : Nat}

/-! ## Growing without a limit -/

/-- The last of `n + 1` generations can be split off as well as the first. -/
theorem iterateTimes_succ (r : Run) (n : Nat) :
    r.iterateTimes (n + 1) = (r.iterateTimes n).iterate := by
  induction n generalizing r with
  | zero => rfl
  | succ n ih => exact ih r.iterate

@[simp] theorem iterateTimes_generation (r : Run) (n : Nat) :
    (r.iterateTimes n).generation = r.generation + n := by
  induction n with
  | zero => rfl
  | succ n ih => rw [iterateTimes_succ, iterate_generation, ih, Nat.add_assoc]

@[simp] theorem iterateTimes_geometry (r : Run) (n : Nat) :
    (r.iterateTimes n).geometry = r.geometry := by
  induction n with
  | zero => rfl
  | succ n ih => rw [iterateTimes_succ, iterate_geometry, ih]

/-- A run measures the word that its system expands to. -/
theorem IsRunOf.symbols_iterateTimes {s : System} {drawn : List Nat} (h : r.IsRunOf s drawn)
    (n : Nat) : (r.iterateTimes n).symbols = (s.expand (r.generation + n)).length := by
  have hn := h.iterateTimes n
  rw [hn.symbols, hn.current, iterateTimes_generation]

/-! ## One step under a limit -/

theorem iterateWithin_succ_of_le (h : r.iterate.symbols ≤ limit) (n : Nat) :
    r.iterateWithin limit (n + 1) = r.iterate.iterateWithin limit n := by
  rw [iterateWithin]
  exact if_neg (Nat.not_lt.2 h)

theorem iterateWithin_succ_of_lt (h : limit < r.iterate.symbols) (n : Nat) :
    r.iterateWithin limit (n + 1)
      = (r, .error (.symbolLimit (r.generation + 1) r.iterate.symbols limit)) := by
  rw [iterateWithin]
  exact if_pos h

/-! ## Many steps under a limit -/

/-- Where all generations fit, the limit makes no difference. -/
theorem iterateWithin_of_fits {n : Nat}
    (h : ∀ k, 1 ≤ k → k ≤ n → (r.iterateTimes k).symbols ≤ limit) :
    r.iterateWithin limit n = (r.iterateTimes n, .ok ()) := by
  induction n generalizing r with
  | zero => rfl
  | succ n ih =>
    have hfirst : r.iterate.symbols ≤ limit := h 1 (Nat.le_refl 1) (by omega)
    have hrest : ∀ k, 1 ≤ k → k ≤ n → (r.iterate.iterateTimes k).symbols ≤ limit := by
      intro k _ hk
      exact h (k + 1) (by omega) (by omega)
    rw [iterateWithin_succ_of_le hfirst]
    exact ih hrest

/-- A budget of steps may be spent in two parts; what is refused in the first part ends both. -/
theorem iterateWithin_add (r : Run) (limit a b : Nat) :
    r.iterateWithin limit (a + b) =
      match r.iterateWithin limit a with
      | (r', .ok ()) => r'.iterateWithin limit b
      | (r', .error e) => (r', .error e) := by
  induction a generalizing r with
  | zero => rw [Nat.zero_add, iterateWithin]
  | succ a ih =>
    rw [Nat.succ_add]
    by_cases h : r.iterate.symbols ≤ limit
    · rw [iterateWithin_succ_of_le h, iterateWithin_succ_of_le h]
      exact ih r.iterate
    · have hlong := Nat.not_le.1 h
      rw [iterateWithin_succ_of_lt hlong, iterateWithin_succ_of_lt hlong]

/-- Of the generations in front of the first that is too long all are reached. -/
theorem iterateWithin_of_exceeds {k n : Nat} (hk : k < n)
    (hfits : ∀ j, 1 ≤ j → j ≤ k → (r.iterateTimes j).symbols ≤ limit)
    (hlong : limit < (r.iterateTimes (k + 1)).symbols) :
    r.iterateWithin limit n = (r.iterateTimes k,
      .error (.symbolLimit (r.generation + (k + 1)) (r.iterateTimes (k + 1)).symbols limit)) := by
  -- the budget is spent on the `k` steps that fit, on the one that does not, and on a rest
  obtain ⟨rest, rfl⟩ : ∃ rest, n = k + (rest + 1) := ⟨n - k - 1, by omega⟩
  rw [iterateTimes_succ] at hlong ⊢
  rw [iterateWithin_add, iterateWithin_of_fits hfits]
  show (r.iterateTimes k).iterateWithin limit (rest + 1) = _
  rw [iterateWithin_succ_of_lt hlong, iterateTimes_generation, Nat.add_assoc]

/-- A capped run that is refused stands in front of a generation that is too long. -/
theorem exceeds_of_refused {n : Nat} {e : Failure}
    (h : r.iterateWithin limit n = (r', .error e)) :
    limit < r'.iterate.symbols
      ∧ e = .symbolLimit (r'.generation + 1) r'.iterate.symbols limit := by
  induction n generalizing r with
  | zero =>
    rw [iterateWithin] at h
    cases h
  | succ n ih =>
    by_cases hfirst : r.iterate.symbols ≤ limit
    · rw [iterateWithin_succ_of_le hfirst] at h
      exact ih h
    · have hlong := Nat.not_le.1 hfirst
      rw [iterateWithin_succ_of_lt hlong] at h
      cases h
      exact ⟨hlong, rfl⟩

/-- What was refused is refused again, whatever is left of the budget. -/
theorem iterateWithin_of_refused {n m : Nat} {e : Failure}
    (h : r.iterateWithin limit n = (r', .error e)) (hm : 1 ≤ m) :
    r'.iterateWithin limit m = (r', .error e) := by
  obtain ⟨hlong, rfl⟩ := exceeds_of_refused h
  obtain ⟨rest, rfl⟩ : ∃ rest, m = rest + 1 := ⟨m - 1, by omega⟩
  exact iterateWithin_succ_of_lt hlong rest

/-! ## The capped run of a system -/

section
variable {s : System} {drawn : List Nat} {n : Nat}

theorem IsRunOf.fits_of_not_mem (h : r.IsRunOf s drawn) {k : Nat} (h1 : 1 ≤ k) (hn : k ≤ n)
    (hk : k ∉ s.excesses limit r.generation n) : (r.iterateTimes k).symbols ≤ limit := by
  rw [h.symbols_iterateTimes]
  by_contra hlong
  exact hk ⟨h1, hn, Nat.not_le.1 hlong⟩

theorem IsRunOf.iterateWithin_of_no_excess (h : r.IsRunOf s drawn)
    (hnone : s.excesses limit r.generation n = ∅) :
    r.iterateWithin limit n = (r.iterateTimes n, .ok ()) := by
  apply iterateWithin_of_fits
  intro k h1 hk
  refine h.fits_of_not_mem h1 hk ?_
  rw [hnone]
  exact Set.notMem_empty k

theorem IsRunOf.iterateWithin_of_least_excess (h : r.IsRunOf s drawn) {k : Nat}
    (hk : IsLeast (s.excesses limit r.generation n) k) :
    r.iterateWithin limit n = (r.iterateTimes (k - 1),
      .error (.symbolLimit (r.generation + k) (s.expand (r.generation + k)).length limit)) := by
  obtain ⟨⟨h1, hn, hlong⟩, hleast⟩ := hk
  obtain ⟨j, rfl⟩ : ∃ j, k = j + 1 := ⟨k - 1, by omega⟩
  rw [← h.symbols_iterateTimes] at hlong ⊢
  refine iterateWithin_of_exceeds hn ?_ hlong
  -- a word in front of the least excess is none itself
  intro i hi hij
  have hnot : i ∉ s.excesses limit r.generation n := by
    intro hmem
    have hle : j + 1 ≤ i := hleast hmem
    omega
  exact h.fits_of_not_mem hi (by omega) hnot

end

/-- **The capped run is the run without a limit, cut in front of the first generation that is too
    long.** Hence a budget may be split at will, and asking again after a refusal changes nothing. -/
theorem iterateWithin_reachable (s : System) (ops : List Operation) (limit : Nat) :
    let r := (start s).afterAll ops
    (∀ n, s.excesses limit r.generation n = ∅ →
      r.iterateWithin limit n = (r.iterateTimes n, .ok ())) ∧
    (∀ n k, IsLeast (s.excesses limit r.generation n) k →
      r.iterateWithin limit n = (r.iterateTimes (k - 1),
        .error (.symbolLimit (r.generation + k) (s.expand (r.generation + k)).length limit)) ∧
      (r.iterateTimes (k - 1)).geometry = r.geometry) ∧
    (∀ a b, r.iterateWithin limit (a + b) =
      match r.iterateWithin limit a with
      | (r', .ok ()) => r'.iterateWithin limit b
      | (r', .error e) => (r', .error e)) ∧
    (∀ n r' e, r.iterateWithin limit n = (r', .error e) →
      ∀ m, 1 ≤ m → r'.iterateWithin limit m = (r', .error e)) := by
  intro r
  have h : r.IsRunOf s ([] ++ (start s).history ops) := (IsRunOf.start s).afterAll ops
  refine ⟨?_, ?_, ?_, ?_⟩
  · intro n hnone
    exact h.iterateWithin_of_no_excess hnone
  · intro n k hk
    exact ⟨h.iterateWithin_of_least_excess hk, iterateTimes_geometry r (k - 1)⟩
  · intro a b
    exact iterateWithin_add r limit a b
  · intro n r' e hrefused m hm
    exact iterateWithin_of_refused hrefused hm

-- the words of the dragon have 1, 3, 7, 15 and 31 symbols
example :
    ((start ⟨['A'], .ofList [('A', ['A', '+', 'B']), ('B', ['A', '-', 'B'])], 0⟩).iterateWithin
      20 10).2 = .error (.symbolLimit 4 31 20) := by
  rfl

end Run

end LSystem
