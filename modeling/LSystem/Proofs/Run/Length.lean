import LSystem.Proofs.Grammar.Length
import LSystem.Proofs.Run.Limit
import Mathlib.Order.Lattice.Nat
set_option autoImplicit false

/-! # How long the words of a capped run become

A limit is compared with a word that has been built already, so it cannot keep all words within itself.
But each word is built from the one in front of it, which is the first or was within the limit, and a step
makes it longer by no more than the longest replacement (`built_within`). The limit is compared with every
generation on the way; where nothing is erased the last of them is the longest, and to look at this one
alone is enough (`capped_run_of_nonErasing`). -/

namespace LSystem

namespace Run

variable {r : Run} {s : System} {drawn : List Nat} {limit n : Nat}

/-! ## Generations only go on -/

theorem generation_le_iterateWithin (r : Run) (limit n : Nat) :
    r.generation ≤ (r.iterateWithin limit n).1.generation := by
  induction n generalizing r with
  | zero => exact Nat.le_refl _
  | succ n ih =>
    by_cases hfits : r.iterate.symbols ≤ limit
    · rw [iterateWithin_succ_of_le hfits]
      exact (Nat.le_succ _).trans (ih r.iterate)
    · rw [iterateWithin_succ_of_lt (Nat.not_le.1 hfits)]

theorem generation_le_trace (r : Run) (n : Nat) : r.generation ≤ (r.trace n).1.generation := by
  induction r, n using Run.trace.induct with
  | case1 n r r' e hd =>
    obtain ⟨rfl, -⟩ := eq_of_draw_error hd
    rw [trace_of_error hd]
  | case2 r r' g hd =>
    obtain ⟨rfl, -⟩ := eq_of_draw_ok hd
    rw [trace_zero_of_ok hd]
  | case3 r r' g hd n last rest hr ih =>
    obtain ⟨rfl, -⟩ := eq_of_draw_ok hd
    rw [trace_succ_of_ok hd]
    exact (Nat.le_succ _).trans ih

theorem generation_le_after (r : Run) (op : Operation) :
    r.generation ≤ (r.after op).generation := by
  cases op with
  | iterate => exact Nat.le_succ _
  | iterateTimes n =>
    show r.generation ≤ (r.iterateTimes n).generation
    rw [iterateTimes_generation]
    exact Nat.le_add_right _ _
  | iterateWithin limit n => exact generation_le_iterateWithin r limit n
  | draw =>
    show r.generation ≤ r.draw.1.generation
    rcases hd : r.draw with ⟨r', e | g⟩
    · rw [(eq_of_draw_error hd).1]
    · rw [(eq_of_draw_ok hd).1]
  | trace n => exact generation_le_trace r n

theorem generation_le_afterAll (r : Run) (ops : List Operation) :
    r.generation ≤ (r.afterAll ops).generation := by
  induction ops generalizing r with
  | nil => exact Nat.le_refl _
  | cons op ops ih => exact (generation_le_after r op).trans (ih (r.after op))

/-! ## Where nothing is erased -/

theorem IsRunOf.symbols_eq (h : r.IsRunOf s drawn) : r.symbols = (s.expand r.generation).length := by
  rw [h.symbols, h.current]

theorem IsRunOf.symbols_le_afterAll (h : r.IsRunOf s drawn) (hs : s.grammar.NonErasing)
    (ops : List Operation) : r.symbols ≤ (r.afterAll ops).symbols := by
  rw [h.symbols_eq, (h.afterAll ops).symbols_eq]
  exact System.length_expand_mono hs (generation_le_afterAll r ops)

/-- A capped run succeeds unless a generation exceeds the limit. -/
theorem IsRunOf.iterateWithin_eq_ok_iff (h : r.IsRunOf s drawn) :
    (r.iterateWithin limit n).2 = .ok () ↔ s.excesses limit r.generation n = ∅ := by
  constructor
  · intro hok
    by_contra hne
    have hleast := isLeast_csInf (Set.nonempty_iff_ne_empty.2 hne)
    rw [h.iterateWithin_of_least_excess hleast] at hok
    cases hok
  · intro hnone
    rw [h.iterateWithin_of_no_excess hnone]

/-- The last generation is the longest, so that the limit need be compared with no other. -/
theorem IsRunOf.iterateWithin_eq_ok_iff_last (h : r.IsRunOf s drawn) (hs : s.grammar.NonErasing)
    (hn : 1 ≤ n) :
    (r.iterateWithin limit n).2 = .ok () ↔ (s.expand (r.generation + n)).length ≤ limit := by
  rw [h.iterateWithin_eq_ok_iff, System.excesses_eq_empty_iff]
  constructor
  · intro hall
    exact hall n hn (Nat.le_refl n)
  · intro hlast k _ hk
    exact (System.length_expand_mono hs (Nat.add_le_add_left hk r.generation)).trans hlast

/-- **Where nothing is erased, words never become shorter and the last generation decides.** So what is
    refused is refused with a lower limit, too, and on the way to any later generation. -/
theorem capped_run_of_nonErasing (hs : s.grammar.NonErasing) (ops : List Operation) :
    let r := (start s).afterAll ops
    (∀ more, r.symbols ≤ (r.afterAll more).symbols) ∧
    (∀ limit n, 1 ≤ n →
      ((r.iterateWithin limit n).2 = .ok () ↔ (s.expand (r.generation + n)).length ≤ limit)) ∧
    (∀ limit n e, (r.iterateWithin limit n).2 = .error e →
      ∀ limit' n', limit' ≤ limit → n ≤ n' → ∃ e', (r.iterateWithin limit' n').2 = .error e') := by
  intro r
  have h : r.IsRunOf s ([] ++ (start s).history ops) := (IsRunOf.start s).afterAll ops
  refine ⟨h.symbols_le_afterAll hs, ?_, ?_⟩
  · intro limit n hn
    exact h.iterateWithin_eq_ok_iff_last hs hn
  · intro limit n e he limit' n' hlimit hn'
    have hn : 1 ≤ n := by
      by_contra hzero
      obtain rfl : n = 0 := by omega
      rw [iterateWithin] at he
      cases he
    cases hresult : (r.iterateWithin limit' n').2 with
    | error e' => exact ⟨e', rfl⟩
    | ok _ =>
      -- the word that was too long would not be longer than the last one, which fits
      have hlast := (h.iterateWithin_eq_ok_iff_last hs (hn.trans hn')).1 hresult
      have hlonger := System.length_expand_mono hs (Nat.add_le_add_left hn' r.generation)
      have hok := (h.iterateWithin_eq_ok_iff_last hs hn).2 ((hlonger.trans hlast).trans hlimit)
      rw [he] at hok
      cases hok

/-- Of the dragon three further generations stay within twenty symbols, and four do not. -/
theorem capped_run_of_dragon :
    let dragon : System := ⟨['A'], .ofList [('A', ['A', '+', 'B']), ('B', ['A', '-', 'B'])], 0⟩
    dragon.grammar.NonErasing ∧
      ((start dragon).iterateWithin 20 3).2 = .ok () ∧
      ∃ e, ((start dragon).iterateWithin 10 7).2 = .error e := by
  intro dragon
  have hs : dragon.grammar.NonErasing := by decide
  obtain ⟨-, hlast, hrefused⟩ := capped_run_of_nonErasing hs []
  refine ⟨hs, (hlast 20 3 (by decide)).2 (by decide), ?_⟩
  exact hrefused 20 4 (.symbolLimit 4 31 20) rfl 10 7 (by decide) (by decide)

/-! ## What a capped run builds -/

/-- The words that a capped run builds, in order: those it commits to and, where it is refused, the one
    that is too long. -/
def built (r : Run) (limit : Nat) : Nat → List Word
  | 0 => []
  | n + 1 =>
    let next := r.system.grammar.rewrite r.current
    if limit < next.length then [next]
    else next :: (r.commit next next.length).built limit n

theorem built_succ_of_le (h : r.iterate.symbols ≤ limit) (n : Nat) :
    r.built limit (n + 1) = r.iterate.current :: r.iterate.built limit n := by
  rw [built]
  exact if_neg (Nat.not_lt.2 h)

theorem built_succ_of_lt (h : limit < r.iterate.symbols) (n : Nat) :
    r.built limit (n + 1) = [r.iterate.current] := by
  rw [built]
  exact if_pos h

/-- What has been built are the generations that the run has gone through, and after a refusal the next
    one. -/
theorem IsRunOf.built_eq (h : r.IsRunOf s drawn) (limit n : Nat) :
    let last := (r.iterateWithin limit n).1.generation
    r.built limit n = (List.range' (r.generation + 1) (last - r.generation)).map s.expand ++
      match (r.iterateWithin limit n).2 with
      | .ok _ => []
      | .error _ => [s.expand (last + 1)] := by
  intro last
  induction n generalizing r with
  | zero =>
    have hnone : last - r.generation = 0 := Nat.sub_self _
    rw [hnone]
    rfl
  | succ n ih =>
    have hnext : r.iterate.current = s.expand (r.generation + 1) := h.iterate.current
    by_cases hfits : r.iterate.symbols ≤ limit
    · have hlast : last = (r.iterate.iterateWithin limit n).1.generation := by
        show (r.iterateWithin limit (n + 1)).1.generation = _
        rw [iterateWithin_succ_of_le hfits]
      have hle := generation_le_iterateWithin r.iterate limit n
      rw [iterate_generation] at hle
      obtain ⟨m, hm⟩ : ∃ m, last - r.generation = m + 1 := ⟨last - r.generation - 1, by omega⟩
      rw [built_succ_of_le hfits, iterateWithin_succ_of_le hfits, ih h.iterate, hm, List.range'_succ,
        List.map_cons, List.cons_append, hnext, ← hlast, iterate_generation,
        show last - (r.generation + 1) = m by omega]
    · have hlong := Nat.not_le.1 hfits
      have hlast : last = r.generation := by
        show (r.iterateWithin limit (n + 1)).1.generation = _
        rw [iterateWithin_succ_of_lt hlong]
      rw [built_succ_of_lt hlong, iterateWithin_succ_of_lt hlong, hlast, Nat.sub_self, hnext]
      rfl

/-- A word is built from the first one or from one within the limit. -/
theorem length_of_mem_built {bound : Nat} (hcurrent : r.current.length ≤ bound)
    (hlimit : limit ≤ bound) {w : Word} (hw : w ∈ r.built limit n) :
    w.length ≤ r.system.grammar.stretch * bound := by
  induction n generalizing r with
  | zero => cases hw
  | succ n ih =>
    have hnext : r.iterate.current.length ≤ r.system.grammar.stretch * bound :=
      (r.system.grammar.length_rewrite_le r.current).trans (Nat.mul_le_mul_left _ hcurrent)
    by_cases hfits : r.iterate.symbols ≤ limit
    · rw [built_succ_of_le hfits] at hw
      rcases List.mem_cons.1 hw with rfl | hw
      · exact hnext
      · have hrest := ih (r := r.iterate) (hfits.trans hlimit) hw
        exact hrest
    · rw [built_succ_of_lt (Nat.not_le.1 hfits)] at hw
      obtain rfl := List.mem_singleton.1 hw
      exact hnext

/-- No run commits to a word that exceeds the limit. -/
theorem IsRunOf.length_committed (h : r.IsRunOf s drawn) {k : Nat} (hlow : r.generation < k)
    (hhigh : k ≤ (r.iterateWithin limit n).1.generation) : (s.expand k).length ≤ limit := by
  induction n generalizing r with
  | zero => exact absurd hhigh (Nat.not_le.2 hlow)
  | succ n ih =>
    by_cases hfits : r.iterate.symbols ≤ limit
    · rw [iterateWithin_succ_of_le hfits] at hhigh
      rcases Nat.eq_or_lt_of_le hlow with rfl | hlater
      · rwa [h.iterate.symbols_eq] at hfits
      · exact ih h.iterate hlater hhigh
    · rw [iterateWithin_succ_of_lt (Nat.not_le.1 hfits)] at hhigh
      exact absurd hhigh (Nat.not_le.2 hlow)

/-- **A limit bounds all words that are built, the refused one included.** A capped run builds the
    generations that it goes through, all of them within the limit, and where it is refused the next one.
    This one exceeds the limit, but by no more than one step can make of a word within the limit or of the
    first word. Without a limit, generation `k` has at most as many symbols as `k` such steps can make of
    the initiator. -/
theorem built_within (s : System) (ops : List Operation) (limit n : Nat) :
    let r := (start s).afterAll ops
    let last := (r.iterateWithin limit n).1
    let bound := s.grammar.stretch * max r.symbols limit
    (r.built limit n =
      (List.range' (r.generation + 1) (last.generation - r.generation)).map s.expand ++
        match (r.iterateWithin limit n).2 with
        | .ok _ => []
        | .error _ => [s.expand (last.generation + 1)]) ∧
    (∀ w ∈ r.built limit n, w.length ≤ bound) ∧
    (∀ k, r.generation < k → k ≤ last.generation → (s.expand k).length ≤ limit) ∧
    (∀ e, (r.iterateWithin limit n).2 = .error e →
      ∃ symbols, e = .symbolLimit (last.generation + 1) symbols limit ∧
        symbols = (s.expand (last.generation + 1)).length ∧ limit < symbols ∧ symbols ≤ bound) ∧
    ∀ k, (s.expand k).length ≤ s.initiator.length * s.grammar.stretch ^ k := by
  intro r last bound
  have h : r.IsRunOf s ([] ++ (start s).history ops) := (IsRunOf.start s).afterAll ops
  have hbuilt := h.built_eq limit n
  have hbound : ∀ w ∈ r.built limit n, w.length ≤ bound := by
    intro w hw
    have hfirst : r.current.length ≤ max r.symbols limit := h.symbols ▸ le_max_left _ _
    have hlength := length_of_mem_built hfirst (le_max_right _ _) hw
    rwa [h.system] at hlength
  refine ⟨hbuilt, hbound, ?_, ?_, s.length_expand_le_mul_pow⟩
  · intro k hlow hhigh
    exact h.length_committed hlow hhigh
  · intro e he
    have hrefused : r.iterateWithin limit n = (last, .error e) := Prod.ext rfl he
    obtain ⟨hlong, rfl⟩ := exceeds_of_refused hrefused
    have hlast : last.IsRunOf s ([] ++ (start s).history ops) := h.iterateWithin limit n
    have hsymbols : last.iterate.symbols = (s.expand (last.generation + 1)).length :=
      hlast.iterate.symbols_eq
    refine ⟨last.iterate.symbols, rfl, hsymbols, hlong, ?_⟩
    rw [hsymbols]
    apply hbound
    rw [hbuilt, he]
    exact List.mem_append_right _ (List.mem_singleton.2 rfl)

-- of the dragon generations 1 to 4 are built, and the last of them is refused
example :
    let dragon : System := ⟨['A'], .ofList [('A', ['A', '+', 'B']), ('B', ['A', '-', 'B'])], 0⟩
    dragon.grammar.stretch = 3 ∧ ((start dragon).built 20 10).map List.length = [3, 7, 15, 31] := by
  decide

end Run

end LSystem
