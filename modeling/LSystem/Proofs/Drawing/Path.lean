import LSystem.Proofs.Drawing.Brackets
set_option autoImplicit false

/-! # The path to a symbol

Where a turtle stands when it comes to a symbol can be told without saving anything. What it has done
inside a closed pair of brackets is undone by the `]`, and an open `[` moves nothing; so it stands
where it would stand had it obeyed the rest alone, the *path* to the symbol.

The path of a word is defined twice. `Prunes` deletes matching brackets with all that is between
them, pair by pair, and at last the brackets still open. `path` finds what is left in one pass from
the right, in which a symbol counts only while no `]` waits for its `[`. The two agree wherever no `]`
is without partner (`prunes_iff`). -/

namespace LSystem

namespace Word

/-! ## Deleting closed brackets -/

/-- `w.Prunes p` when `p` is left of `w` after matching brackets have been deleted together with what
    is between them, innermost first, and then the brackets still open. -/
inductive Prunes : Word → Word → Prop
  | opened {w : Word} (h : ']' ∉ w) : Prunes w (w.filter (· ≠ '['))
  | block {u b v p : Word} (hopen : '[' ∉ b) (hclose : ']' ∉ b) (h : Prunes (u ++ v) p) :
      Prunes (u ++ '[' :: (b ++ ']' :: v)) p

/-- The path of a word given from its last symbol to its first, in front of as many `]` as
    `closing` says. -/
def pathBack : Nat → Word → Word
  | _, [] => []
  | closing, ']' :: w => pathBack (closing + 1) w
  | closing, '[' :: w => pathBack (closing - 1) w
  | 0, c :: w => c :: pathBack 0 w
  | closing + 1, _ :: w => pathBack (closing + 1) w

/-- The path that is left of a word when `k` brackets more are closed behind it. -/
def pathAfter (k : Nat) (w : Word) : Word := (pathBack k w.reverse).reverse

/-- The word without its closed pairs of brackets, what is between them, and its open brackets. -/
def path (w : Word) : Word := pathAfter 0 w

/-! ### One symbol -/

@[simp] theorem pathBack_close (k : Nat) (w : Word) :
    pathBack k (']' :: w) = pathBack (k + 1) w := by
  rw [pathBack]

@[simp] theorem pathBack_open (k : Nat) (w : Word) :
    pathBack k ('[' :: w) = pathBack (k - 1) w := by
  rw [pathBack]

theorem pathBack_zero_cons {c : Symbol} (hopen : c ≠ '[') (hclose : c ≠ ']') (w : Word) :
    pathBack 0 (c :: w) = c :: pathBack 0 w := by
  rw [pathBack] <;> simp_all

theorem pathBack_succ_cons {c : Symbol} (hopen : c ≠ '[') (hclose : c ≠ ']') (k : Nat) (w : Word) :
    pathBack (k + 1) (c :: w) = pathBack (k + 1) w := by
  rw [pathBack] <;> simp_all

@[simp] theorem pathAfter_nil (k : Nat) : pathAfter k [] = [] := by
  rw [pathAfter, List.reverse_nil, pathBack, List.reverse_nil]

@[simp] theorem pathAfter_append_open (k : Nat) (w : Word) :
    pathAfter k (w ++ ['[']) = pathAfter (k - 1) w := by
  rw [pathAfter, List.reverse_append, List.reverse_singleton, List.singleton_append, pathBack_open,
    pathAfter]

@[simp] theorem pathAfter_append_close (k : Nat) (w : Word) :
    pathAfter k (w ++ [']']) = pathAfter (k + 1) w := by
  rw [pathAfter, List.reverse_append, List.reverse_singleton, List.singleton_append, pathBack_close,
    pathAfter]

theorem path_append {c : Symbol} (hopen : c ≠ '[') (hclose : c ≠ ']') (w : Word) :
    path (w ++ [c]) = path w ++ [c] := by
  rw [path, pathAfter, List.reverse_append, List.reverse_singleton, List.singleton_append,
    pathBack_zero_cons hopen hclose, List.reverse_cons, path, pathAfter]

theorem pathAfter_succ_append {c : Symbol} (hopen : c ≠ '[') (hclose : c ≠ ']') (k : Nat)
    (w : Word) : pathAfter (k + 1) (w ++ [c]) = pathAfter (k + 1) w := by
  rw [pathAfter, List.reverse_append, List.reverse_singleton, List.singleton_append,
    pathBack_succ_cons hopen hclose, pathAfter]

/-! ### Both definitions agree -/

theorem pathBack_of_no_close {w : Word} (h : ']' ∉ w) : pathBack 0 w = w.filter (· ≠ '[') := by
  induction w with
  | nil => rw [pathBack, List.filter_nil]
  | cons c cs ih =>
    obtain ⟨hc, hcs⟩ := List.ne_and_not_mem_of_not_mem_cons h
    by_cases hopen : c = '['
    · subst hopen
      rw [pathBack_open, List.filter_cons_of_neg (by simp)]
      exact ih hcs
    · rw [pathBack_zero_cons hopen (Ne.symm hc), List.filter_cons_of_pos (by simpa using hopen),
        ih hcs]

theorem path_of_no_close {w : Word} (h : ']' ∉ w) : path w = w.filter (· ≠ '[') := by
  rw [path, pathAfter, pathBack_of_no_close (by simpa using h), List.filter_reverse,
    List.reverse_reverse]

/-- Seen from the right, a `]` waits for its `[` and hides what is between them. -/
theorem pathBack_block {b : Word} (hopen : '[' ∉ b) (hclose : ']' ∉ b) (k : Nat) (v u : Word) :
    pathBack k (v ++ ']' :: (b ++ '[' :: u)) = pathBack k (v ++ u) := by
  -- while the `]` waits, what is between the brackets is dropped
  have hinner : ∀ k, pathBack (k + 1) (b ++ '[' :: u) = pathBack k u := by
    intro k
    induction b with
    | nil => rw [List.nil_append, pathBack_open, Nat.add_sub_cancel]
    | cons c cs ih =>
      obtain ⟨hc, hcs⟩ := List.ne_and_not_mem_of_not_mem_cons hopen
      obtain ⟨hc', hcs'⟩ := List.ne_and_not_mem_of_not_mem_cons hclose
      rw [List.cons_append, pathBack_succ_cons (Ne.symm hc) (Ne.symm hc')]
      exact ih hcs hcs'
  induction v generalizing k with
  | nil => rw [List.nil_append, List.nil_append, pathBack_close, hinner]
  | cons c cs ih =>
    rw [List.cons_append, List.cons_append]
    by_cases hc : c = ']'
    · subst hc
      rw [pathBack_close, pathBack_close, ih]
    · by_cases ho : c = '['
      · subst ho
        rw [pathBack_open, pathBack_open, ih]
      · cases k with
        | zero => rw [pathBack_zero_cons ho hc, pathBack_zero_cons ho hc, ih]
        | succ k => rw [pathBack_succ_cons ho hc, pathBack_succ_cons ho hc, ih]

theorem path_block {b : Word} (hopen : '[' ∉ b) (hclose : ']' ∉ b) (u v : Word) :
    path (u ++ '[' :: (b ++ ']' :: v)) = path (u ++ v) := by
  have hrev : (u ++ '[' :: (b ++ ']' :: v)).reverse
      = v.reverse ++ ']' :: (b.reverse ++ '[' :: u.reverse) := by simp
  rw [path, pathAfter, hrev, pathBack_block (by simpa using hopen) (by simpa using hclose), path,
    pathAfter, List.reverse_append]

theorem eq_path_of_prunes {w p : Word} (h : w.Prunes p) : p = w.path := by
  induction h with
  | opened h => exact (path_of_no_close h).symm
  | block hopen hclose _ ih => rw [path_block hopen hclose, ih]

/-- The first `]` of a word that is nowhere overclosed has its partner in front of it, and nothing
    but other symbols in between. -/
theorem exists_block {w : Word} (h : ∀ u : Word, u <+: w → ¬ u.Overclosed) (hw : ']' ∈ w) :
    ∃ u b v : Word, w = u ++ '[' :: (b ++ ']' :: v) ∧ '[' ∉ b ∧ ']' ∉ b := by
  obtain ⟨a, v, rfl, ha⟩ := List.eq_append_cons_of_mem hw
  -- up to this first `]` the word is not overclosed, so something was opened
  have hmem : '[' ∈ a := by
    have hclosed := h (a ++ [']']) ⟨v, by simp⟩
    by_contra hopen
    refine hclosed ?_
    simp [Overclosed, List.count_eq_zero_of_not_mem hopen, List.count_append]
  -- the `[` that comes last in front of it is the first one from the right
  obtain ⟨b, u, hrev, hb⟩ := List.eq_append_cons_of_mem (List.mem_reverse.2 hmem)
  have hab : a = u.reverse ++ '[' :: b.reverse := by
    rw [← List.reverse_reverse a, hrev]
    simp
  refine ⟨u.reverse, b.reverse, v, by simp [hab], by simpa using hb, ?_⟩
  intro hclose
  apply ha
  rw [hab]
  exact List.mem_append_right _ (List.mem_cons_of_mem _ hclose)

/-- A word stays nowhere overclosed when a pair of brackets is deleted from it. -/
theorem not_overclosed_of_block {u b v : Word} (hopen : '[' ∉ b) (hclose : ']' ∉ b)
    (h : ∀ q : Word, q <+: u ++ '[' :: (b ++ ']' :: v) → ¬ q.Overclosed) :
    ∀ q : Word, q <+: u ++ v → ¬ q.Overclosed := by
  rintro q ⟨t, ht⟩
  rcases List.append_eq_append_iff.1 ht with ⟨rest, rfl, -⟩ | ⟨v', rfl, rfl⟩
  · exact h q ⟨rest ++ '[' :: (b ++ ']' :: v), by simp⟩
  · -- what `q` has of `v` follows the pair in the longer word, which adds one to both counts
    have hlong := h (u ++ '[' :: (b ++ ']' :: v')) ⟨t, by simp⟩
    unfold Overclosed at hlong ⊢
    simp [List.count_eq_zero_of_not_mem hopen, List.count_eq_zero_of_not_mem hclose] at hlong ⊢
    omega

theorem prunes_path {w : Word} (h : ∀ u : Word, u <+: w → ¬ u.Overclosed) : w.Prunes w.path := by
  -- by the number of symbols, of which each pair takes two away
  induction hn : w.length using Nat.strong_induction_on generalizing w with
  | _ n ih =>
    by_cases hw : ']' ∈ w
    · obtain ⟨u, b, v, rfl, hopen, hclose⟩ := exists_block h hw
      rw [path_block hopen hclose]
      have hshort : (u ++ v).length < n := by
        rw [← hn]
        simp only [List.length_append, List.length_cons]
        omega
      have hrest := not_overclosed_of_block hopen hclose h
      exact .block hopen hclose (ih _ hshort hrest rfl)
    · rw [path_of_no_close hw]
      exact .opened hw

/-- Where no `]` is without partner, pruning leaves the path and nothing else. -/
theorem prunes_iff {w : Word} (h : ∀ u : Word, u <+: w → ¬ u.Overclosed) {p : Word} :
    w.Prunes p ↔ p = w.path := by
  constructor
  · exact eq_path_of_prunes
  · rintro rfl
    exact prunes_path h

end Word

end LSystem
