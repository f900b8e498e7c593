import LSystem.Json.Reader
import Mathlib.Tactic.IntervalCases
import Mathlib.Tactic.SplitIfs
set_option autoImplicit false

/-! # Strings are read as they are quoted

Every character is escaped by itself, and what the reader makes of one escape does not depend on the
next: only halves of a surrogate pair would, and a character that is escaped by its number is none. So a
string is read back character by character (`string?_quoted`), whatever characters it has. -/

namespace LSystem.Json.Reader

/-- What a character inside a string is read as, before halves are put together. -/
def piece (c : Char) : Piece :=
  if c.toNat < 32 ∧ c ∉ ['\n', '\r', '\t', '\x08', '\x0c'] then .unit c.toNat else .char c

theorem hex4?_of_lt {n : Nat} (hn : n < 32) (s : List Char) :
    hex4? ('0' :: '0' :: Nat.digitChar (n / 16) :: Nat.digitChar (n % 16) :: s) = some (n, s) := by
  interval_cases n <;> rfl

theorem pieces?_plain {fuel : Nat} {e c : Char} (he : plainEscape? e = some c) (s : List Char) :
    pieces? (fuel + 1) ('\\' :: e :: s) = (pieces? fuel s).map fun (ps, s) => (.char c :: ps, s) := by
  have hu : e ≠ 'u' := by
    rintro rfl
    cases he
  rw [pieces?, if_neg (by decide), if_pos (by decide)]
  · rw [he]
    cases pieces? fuel s <;> rfl
  · exact fun h => absurd h hu

theorem pieces?_unit {fuel n : Nat} (hn : n < 32) (s : List Char) :
    pieces? (fuel + 1) ('\\' :: 'u' :: '0' :: '0' :: Nat.digitChar (n / 16) :: Nat.digitChar (n % 16) :: s)
      = (pieces? fuel s).map fun (ps, s) => (.unit n :: ps, s) := by
  rw [pieces?, if_neg (by decide), if_pos (by decide)]
  simp only [hex4?_of_lt hn, Option.bind_eq_bind, Option.bind_some]
  cases pieces? fuel s <;> rfl

theorem pieces?_char {fuel : Nat} {c : Char} (hquote : c ≠ '"') (hescape : c ≠ '\\')
    (hcontrol : ¬ c.toNat < 32) (s : List Char) :
    pieces? (fuel + 1) (c :: s) = (pieces? fuel s).map fun (ps, s) => (.char c :: ps, s) := by
  simp only [pieces?, beq_iff_eq, hquote, hescape, hcontrol, if_false]
  cases pieces? fuel s <;> rfl

/-- One character is read as it was escaped. -/
theorem pieces?_escape (fuel : Nat) (c : Char) (s : List Char) :
    pieces? (fuel + 1) (escape c ++ s) = (pieces? fuel s).map fun (ps, s) => (piece c :: ps, s) := by
  unfold escape
  split
  case h_8 _ hquote hescape hn hr ht hb hf =>
    split_ifs with hcontrol
    · have hpiece : piece c = .unit c.toNat := if_pos ⟨hcontrol, by simp_all⟩
      rw [hpiece]
      exact pieces?_unit hcontrol s
    · have hpiece : piece c = .char c := if_neg fun h => hcontrol h.1
      rw [hpiece]
      exact pieces?_char hquote hescape hcontrol s
  all_goals exact pieces?_plain rfl s

theorem length_le_length_flatMap_escape (cs : List Char) : cs.length ≤ (cs.flatMap escape).length := by
  induction cs with
  | nil => exact Nat.le_refl 0
  | cons c cs ih =>
    have hc : 1 ≤ (escape c).length := by
      unfold escape
      split
      case h_8 => split_ifs <;> simp
      all_goals exact Nat.le_add_left 1 1
    rw [List.flatMap_cons, List.length_append, List.length_cons]
    omega

theorem pieces?_quoted (cs : List Char) (s : List Char) {fuel : Nat} (hfuel : cs.length < fuel) :
    pieces? fuel (cs.flatMap escape ++ '"' :: s) = some (cs.map piece, s) := by
  induction cs generalizing fuel with
  | nil =>
    obtain ⟨fuel, rfl⟩ := Nat.exists_eq_succ_of_ne_zero (Nat.ne_zero_of_lt hfuel)
    rfl
  | cons c cs ih =>
    rw [List.length_cons] at hfuel
    obtain ⟨fuel, rfl⟩ := Nat.exists_eq_succ_of_ne_zero (Nat.ne_zero_of_lt hfuel)
    rw [List.flatMap_cons, List.append_assoc, pieces?_escape, ih (by omega)]
    rfl

/-- A control character is no half of a pair. -/
theorem assemble_unit (half : Option Char) {n : Nat} (hn : n < 32) (ps : List Piece) :
    assemble half (.unit n :: ps) = (assemble half ps).map (Char.ofNat n :: ·) := by
  have hhigh : ¬ (0xd800 ≤ n ∧ n < 0xe000) := by omega
  have hpair (lo : Nat) : ¬ (0xd800 ≤ n ∧ n < 0xdc00 ∧ 0xdc00 ≤ lo ∧ lo < 0xe000) := by omega
  rcases ps with _ | ⟨c | lo, ps⟩
  · simp [assemble, hhigh]
  · simp only [assemble, hhigh, if_false]
    cases assemble half ps <;> rfl
  · rw [assemble, if_neg (hpair lo), if_neg hhigh]
    cases assemble half (.unit lo :: ps) <;> rfl

theorem assemble_pieces (half : Option Char) (cs : List Char) :
    assemble half (cs.map piece) = some cs := by
  induction cs with
  | nil => rfl
  | cons c cs ih =>
    rw [List.map_cons]
    by_cases hc : c.toNat < 32 ∧ c ∉ ['\n', '\r', '\t', '\x08', '\x0c']
    · rw [piece, if_pos hc, assemble_unit half hc.1, ih, Char.ofNat_toNat]
      rfl
    · rw [piece, if_neg hc, assemble, ih]
      rfl

/-- **A string is read back**, its opening quote already taken. -/
theorem string?_quoted (half : Option Char) (t : String) (s : List Char) :
    string? half (t.toList.flatMap escape ++ '"' :: s) = some (t, s) := by
  have hlength := length_le_length_flatMap_escape t.toList
  have hfuel : t.toList.length < (t.toList.flatMap escape ++ '"' :: s).length + 1 := by
    rw [List.length_append]
    omega
  rw [string?, pieces?_quoted t.toList s hfuel]
  simp [assemble_pieces]

end LSystem.Json.Reader
