import LSystem.Bundled
import LSystem.Proofs.Drawing.Guarded
import LSystem.Proofs.Grammar.Weights
import LSystem.Yaml.Library
import Mathlib.Tactic.Ring
set_option autoImplicit false

/-! # How the systems that come with the program grow

The presets and the definitions of the bundled library draw a number of segments in generation `n` for
which there is a closed form. To check it, nothing but the productions is looked at: with a closed form
for each symbol that is replaced, every replacement yields one equation between numbers
(`Spells.grows`). That the generations can be drawn, and leave no bracket open, is settled by their few
words, too. -/

namespace LSystem

/-! ## Drawing all generations -/

/-- At every angle the word can be drawn, no turtle is left saved, and there are so many segments. -/
def Word.DrawsClosed (w : Word) (segments : Nat) : Prop :=
  ∀ angle : Float, ∃ walk : Walk Float,
    Walk.follow (.ofAngle angle) (.ofAngle (-angle)) .start 0 w = .ok walk ∧ walk.saved = [] ∧
      w.draw angle = .ok walk.geometry ∧ walk.geometry.segmentCount = segments

/-- The symbols of the word that draw are those that some productions replace. -/
def Word.DrawsWhereReplaced (productions : List (Symbol × Word)) (w : Word) : Prop :=
  ∀ c ∈ w, (Table.findEntry c productions).isSome ↔ Symbol.Draws c

instance (productions : List (Symbol × Word)) : DecidablePred (Word.DrawsWhereReplaced productions) :=
  -- by the symbols of the word, not by all there are
  List.decidableBAll fun c => (Table.findEntry c productions).isSome ↔ Symbol.Draws c

theorem Word.drawsClosed_strokes {w : Word} (hg : w.Guarded) (hb : w.Balanced) :
    w.DrawsClosed w.strokes := by
  intro angle
  obtain ⟨g, hdraw⟩ := hg.exists_draw_ok angle
  obtain ⟨walk, hwalk, rfl⟩ := Walk.draw_eq_ok_iff.1 hdraw
  refine ⟨walk, hwalk, hb.saved_of_follow hwalk, hdraw, ?_⟩
  rw [Geometry.segmentCount, Walk.length_points_of_draw_ok hdraw]
  omega

namespace Library

variable {library : Library} {name : String}

/-- The name stands for a system whose generation `n` draws `segments n` segments. -/
def Grows (library : Library) (name : String) (segments : Nat → Nat) : Prop :=
  ∃ s, library.resolve name = .ok s ∧ ∀ n, (s.expand n).DrawsClosed (segments n)

/-- The name stands for a system with these words, whose brackets are closed in each of them. -/
def Spells (library : Library) (name : String) (initiator : Word)
    (productions : List (Symbol × Word)) : Prop :=
  ∃ s, library.resolve name = .ok s ∧ s.initiator = initiator ∧ s.grammar.entries = productions ∧
    s.Guarded ∧ s.Balanced

namespace Spells

variable {initiator : Word} {productions : List (Symbol × Word)}

/-- What the generations weigh, given closed forms `v n` for what the symbols weigh that are replaced. -/
theorem weigh_expand (h : library.Spells name initiator productions) {base : Symbol → Nat}
    {v : Nat → Symbol → Nat} (hstart : ∀ e ∈ productions, v 0 e.1 = base e.1)
    (hstep : ∀ n, ∀ e ∈ productions,
      e.2.weigh (Grammar.worth productions base (v n)) = v (n + 1) e.1) :
    ∃ s, library.resolve name = .ok s ∧ s.Guarded ∧ s.Balanced ∧ ∀ n,
      (s.expand n).weigh base = initiator.weigh (Grammar.worth productions base (v n)) := by
  obtain ⟨s, hs, rfl, rfl, hg, hb⟩ := h
  refine ⟨s, hs, hg, hb, ?_⟩
  intro n
  exact s.grammar.weigh_expand_of_productions hstart hstep s.initiator n

theorem grows (h : library.Spells name initiator productions) {v : Nat → Symbol → Nat}
    {segments : Nat → Nat} (hstart : ∀ e ∈ productions, v 0 e.1 = Word.stroke e.1)
    (hstep : ∀ n, ∀ e ∈ productions,
      e.2.weigh (Grammar.worth productions Word.stroke (v n)) = v (n + 1) e.1)
    (hsum : ∀ n, initiator.weigh (Grammar.worth productions Word.stroke (v n)) = segments n) :
    library.Grows name segments := by
  obtain ⟨s, hs, hg, hb, hweigh⟩ := h.weigh_expand hstart hstep
  refine ⟨s, hs, ?_⟩
  intro n
  have hdraws := Word.drawsClosed_strokes (hg.expand n) (hb.expand hg n)
  rwa [Word.strokes_eq_weigh, hweigh, hsum] at hdraws

/-- Where the symbols that draw are those that are replaced, and each of the replacements draws `k` strokes,
    a step multiplies the segments by `k`. -/
theorem grows_by (h : library.Spells name initiator productions) {k : Nat} {segments : Nat → Nat}
    (hdraws : ∀ e ∈ productions, Symbol.Draws e.1 ∧ e.2.strokes = k)
    (hreplaced : ∀ u ∈ initiator :: productions.map Prod.snd, Word.DrawsWhereReplaced productions u)
    (hsum : ∀ n, initiator.strokes * k ^ n = segments n) : library.Grows name segments := by
  have hweigh : ∀ n, ∀ u ∈ initiator :: productions.map Prod.snd,
      u.weigh (Grammar.worth productions Word.stroke fun _ => k ^ n) = u.strokes * k ^ n := by
    intro n u hu
    rw [Word.strokes_eq_weigh, ← Word.weigh_mul]
    apply Word.weigh_congr
    intro c hc
    by_cases hstroke : Symbol.Draws c <;>
      simp [Grammar.worth, hreplaced u hu c hc, Word.stroke, hstroke]
  refine h.grows (v := fun n _ => k ^ n) ?_ ?_ ?_
  · intro e he
    rw [Word.stroke, if_pos (hdraws e he).1, Nat.pow_zero]
  · intro n e he
    rw [hweigh n e.2 (List.mem_cons_of_mem _ (List.mem_map_of_mem he)), (hdraws e he).2, Nat.pow_succ,
      Nat.mul_comm]
  · intro n
    rw [hweigh n initiator List.mem_cons_self, hsum]

theorem length_expand (h : library.Spells name initiator productions) {v : Nat → Symbol → Nat}
    {symbols : Nat → Nat} (hstart : ∀ e ∈ productions, v 0 e.1 = 1)
    (hstep : ∀ n, ∀ e ∈ productions,
      e.2.weigh (Grammar.worth productions (fun _ => 1) (v n)) = v (n + 1) e.1)
    (hsum : ∀ n, initiator.weigh (Grammar.worth productions (fun _ => 1) (v n)) = symbols n) :
    ∃ s, library.resolve name = .ok s ∧ ∀ n, (s.expand n).length = symbols n := by
  obtain ⟨s, hs, -, -, hweigh⟩ := h.weigh_expand hstart hstep
  refine ⟨s, hs, ?_⟩
  intro n
  rw [Word.length_eq_weigh, hweigh, hsum]

end Spells

/-! ## Presets -/

/-- Half of a product that is even, as one of its factors is. -/
theorem two_mul_half (n : Nat) : 2 * ((n + 2) * 2 ^ n / 2) = (n + 2) * 2 ^ n := by
  apply Nat.mul_div_cancel'
  cases n with
  | zero => exact Nat.dvd_refl 2
  | succ n => exact Dvd.intro_left ((n + 1 + 2) * 2 ^ n) (by ring)

theorem grows_tree : Grows [] "tree" fun n => (n + 2) * 2 ^ n / 2 := by
  have h : Spells [] "tree" ['A'] [('A', "B[+A]-A".toList), ('B', "BB".toList)] :=
    ⟨_, rfl, rfl, rfl, by decide, by decide⟩
  refine h.grows (v := fun n c => if c = 'A' then (n + 2) * 2 ^ n / 2 else 2 ^ n) ?_ ?_ ?_
  · simp [Word.stroke, Symbol.Draws]
  · intro n
    have hA : 2 ^ n + ((n + 2) * 2 ^ n / 2 + (n + 2) * 2 ^ n / 2) = (n + 1 + 2) * 2 ^ (n + 1) / 2 := by
      have hnow := two_mul_half n
      have hnext := two_mul_half (n + 1)
      have hpow : (n + 1 + 2) * 2 ^ (n + 1) = 2 * ((n + 2) * 2 ^ n) + 2 * 2 ^ n := by ring
      omega
    have hB : 2 ^ n + 2 ^ n = 2 ^ (n + 1) := by ring
    simpa [Grammar.worth, Table.findEntry, Word.stroke, Symbol.Draws] using ⟨hA, hB⟩
  · simp [Grammar.worth, Table.findEntry]

/-- What an `A` draws that becomes three of its kind and two that double. -/
def tripling (n : Nat) : Nat := 3 ^ (n + 1) - 2 ^ (n + 1)

theorem tripling_add (n : Nat) : tripling n + 2 ^ (n + 1) = 3 ^ (n + 1) :=
  Nat.sub_add_cancel (Nat.pow_le_pow_left (by decide) (n + 1))

theorem tripling_succ (n : Nat) : 3 * tripling n + 2 * 2 ^ n = tripling (n + 1) := by
  have hnow := tripling_add n
  have hnext := tripling_add (n + 1)
  have htwo : 2 ^ (n + 1 + 1) = 2 * 2 ^ (n + 1) ∧ 2 ^ (n + 1) = 2 * 2 ^ n := by
    constructor <;> ring
  have hthree : 3 ^ (n + 1 + 1) = 3 * 3 ^ (n + 1) := by ring
  omega

theorem grows_sierpinski_regular : Grows [] "sierpinski_regular" fun n => 3 ^ (n + 1) := by
  have h : Spells [] "sierpinski_regular" "A-B-B".toList
      [('A', "A-B+A+B-A".toList), ('B', "BB".toList)] :=
    ⟨_, rfl, rfl, rfl, by decide, by decide⟩
  refine h.grows (v := fun n c => if c = 'A' then tripling n else 2 ^ n) ?_ ?_ ?_
  · simp [Word.stroke, Symbol.Draws, tripling]
  · intro n
    have hA : tripling n + (2 ^ n + (tripling n + (2 ^ n + tripling n))) = tripling (n + 1) := by
      rw [← tripling_succ]
      ring
    have hB : 2 ^ n + 2 ^ n = 2 ^ (n + 1) := by ring
    simpa [Grammar.worth, Table.findEntry, Word.stroke, Symbol.Draws] using ⟨hA, hB⟩
  · intro n
    have hsum : tripling n + (2 ^ n + 2 ^ n) = 3 ^ (n + 1) := by
      rw [← tripling_add]
      ring
    simpa [Grammar.worth, Table.findEntry, Word.stroke, Symbol.Draws] using hsum

theorem grows_sierpinski_arrowhead : Grows [] "sierpinski_arrowhead" fun n => 3 ^ n := by
  have h : Spells [] "sierpinski_arrowhead" ['A'] [('A', "B-A-B".toList), ('B', "A+B+A".toList)] :=
    ⟨_, rfl, rfl, rfl, by decide, by decide⟩
  exact h.grows_by (by decide) (by decide) fun n => Nat.one_mul _

theorem spells_dragon : Spells [] "dragon" ['A'] [('A', "A+B".toList), ('B', "A-B".toList)] :=
  ⟨_, rfl, rfl, rfl, by decide, by decide⟩

theorem grows_dragon : Grows [] "dragon" fun n => 2 ^ n :=
  spells_dragon.grows_by (by decide) (by decide) fun n => Nat.one_mul _

theorem length_dragon :
    ∃ s, resolve [] "dragon" = .ok s ∧ ∀ n, (s.expand n).length = 2 ^ (n + 1) - 1 := by
  refine spells_dragon.length_expand (v := fun n _ => 2 ^ (n + 1) - 1) ?_ ?_ ?_
  · simp
  · intro n
    have hstep : 2 ^ (n + 1) - 1 + (1 + (2 ^ (n + 1) - 1)) = 2 ^ (n + 1 + 1) - 1 := by
      have hpos := Nat.two_pow_pos (n + 1)
      have hpow : 2 ^ (n + 1 + 1) = 2 * 2 ^ (n + 1) := by ring
      omega
    simpa [Grammar.worth, Table.findEntry] using hstep
  · simp [Grammar.worth, Table.findEntry]

theorem grows_crystal : Grows [] "crystal" fun n => 5 ^ n := by
  have h : Spells [] "crystal" ['A'] [('A', "AA-A--A-A".toList)] :=
    ⟨_, rfl, rfl, rfl, by decide, by decide⟩
  exact h.grows_by (by decide) (by decide) fun n => Nat.one_mul _

theorem spells_snowflake : Spells [] "snowflake" ['A'] [('A', "A+A--A+A".toList)] :=
  ⟨_, rfl, rfl, rfl, by decide, by decide⟩

theorem grows_snowflake : Grows [] "snowflake" fun n => 4 ^ n :=
  spells_snowflake.grows_by (by decide) (by decide) fun n => Nat.one_mul _

theorem length_snowflake :
    ∃ s, resolve [] "snowflake" = .ok s ∧ ∀ n, (s.expand n).length = (7 * 4 ^ n - 4) / 3 := by
  have hthird : ∀ n, 3 * ((7 * 4 ^ n - 4) / 3) + 4 = 7 * 4 ^ n := by
    intro n
    have hmod : 4 ^ n % 3 = 1 := by simp [Nat.pow_mod]
    omega
  refine spells_snowflake.length_expand (v := fun n _ => (7 * 4 ^ n - 4) / 3) ?_ ?_ ?_
  · simp
  · intro n
    have hpow : 4 ^ (n + 1) = 4 * 4 ^ n := by ring
    have hstep : ∀ now next, 3 * now + 4 = 7 * 4 ^ n → 3 * next + 4 = 7 * 4 ^ (n + 1) →
        now + (1 + (now + (1 + (1 + (now + (1 + now)))))) = next := by
      intro now next hnow hnext
      omega
    simpa [Grammar.worth, Table.findEntry] using hstep _ _ (hthird n) (hthird (n + 1))
  · simp [Grammar.worth, Table.findEntry]

theorem grows_gosper : Grows [] "gosper" fun n => 7 ^ n := by
  have h : Spells [] "gosper" ['A']
      [('A', "A-B--B+A++AA+B-".toList), ('B', "+A-BB--B-A++A+B".toList)] :=
    ⟨_, rfl, rfl, rfl, by decide, by decide⟩
  exact h.grows_by (by decide) (by decide) fun n => Nat.one_mul _

/-! ## The bundled library -/

theorem grows_koch_island : bundled.Grows "koch_island" fun n => 4 * 8 ^ n := by
  have h : bundled.Spells "koch_island" "A-A-A-A".toList [('A', "A-A+A+AA-A-A+A".toList)] :=
    ⟨_, rfl, rfl, rfl, by decide, by decide⟩
  exact h.grows_by (by decide) (by decide) fun n => rfl

theorem grows_hilbert : bundled.Grows "hilbert" fun n => 4 ^ n - 1 := by
  have h : bundled.Spells "hilbert" ['X']
      [('X', "-YC+XCX+CY-".toList), ('Y', "+XC-YCY-CX+".toList)] :=
    ⟨_, rfl, rfl, rfl, by decide, by decide⟩
  refine h.grows (v := fun n _ => 4 ^ n - 1) ?_ ?_ ?_
  · simp [Word.stroke, Symbol.Draws]
  · intro n
    have hstep : 4 ^ n - 1 + (1 + (4 ^ n - 1 + (1 + (4 ^ n - 1 + (1 + (4 ^ n - 1)))))) =
        4 ^ (n + 1) - 1 := by
      have hpos : 0 < 4 ^ n := Nat.pow_pos (by decide)
      have hpow : 4 ^ (n + 1) = 4 * 4 ^ n := by ring
      omega
    simpa [Grammar.worth, Table.findEntry, Word.stroke, Symbol.Draws] using hstep
  · simp [Grammar.worth, Table.findEntry]

theorem grows_bush : bundled.Grows "bush" fun n => 3 ^ (n + 1) - 2 ^ (n + 1) := by
  have h : bundled.Spells "bush" ['A'] [('A', "B[+A][-A]BA".toList), ('B', "BB".toList)] :=
    ⟨_, rfl, rfl, rfl, by decide, by decide⟩
  refine h.grows (v := fun n c => if c = 'A' then tripling n else 2 ^ n) ?_ ?_ ?_
  · simp [Word.stroke, Symbol.Draws, tripling]
  · intro n
    have hA : 2 ^ n + (tripling n + (tripling n + (2 ^ n + tripling n))) = tripling (n + 1) := by
      rw [← tripling_succ]
      ring
    have hB : 2 ^ n + 2 ^ n = 2 ^ (n + 1) := by ring
    simpa [Grammar.worth, Table.findEntry, Word.stroke, Symbol.Draws] using ⟨hA, hB⟩
  · simp [Grammar.worth, Table.findEntry, tripling]

/-- The library file says what its definitions say. -/
theorem library?_bundledText : Yaml.library? bundledText = some bundled := by
  rw [Yaml.library?, Yaml.Node.ofText?, bundledText, String.toList_intercalate]
  decide +kernel

/-- **The growth of the systems that come with the program.** In every generation and at every angle the
    presets and the systems of the bundled library can be drawn with no bracket left open, and with a
    number of segments, and for two of them also of symbols, that is told in closed form. -/
theorem growth_law :
    (Grows [] "tree" (fun n => (n + 2) * 2 ^ n / 2) ∧
      Grows [] "sierpinski_regular" (fun n => 3 ^ (n + 1)) ∧
      Grows [] "sierpinski_arrowhead" (fun n => 3 ^ n) ∧
      Grows [] "dragon" (fun n => 2 ^ n) ∧
      Grows [] "crystal" (fun n => 5 ^ n) ∧
      Grows [] "snowflake" (fun n => 4 ^ n) ∧
      Grows [] "gosper" (fun n => 7 ^ n)) ∧
    (∃ library, Yaml.library? bundledText = some library ∧
      library.Grows "koch_island" (fun n => 4 * 8 ^ n) ∧
      library.Grows "hilbert" (fun n => 4 ^ n - 1) ∧
      library.Grows "bush" (fun n => 3 ^ (n + 1) - 2 ^ (n + 1))) ∧
    (∃ s, resolve [] "dragon" = .ok s ∧ ∀ n, (s.expand n).length = 2 ^ (n + 1) - 1) ∧
    ∃ s, resolve [] "snowflake" = .ok s ∧ ∀ n, (s.expand n).length = (7 * 4 ^ n - 4) / 3 := by
  refine ⟨⟨grows_tree, grows_sierpinski_regular, grows_sierpinski_arrowhead, grows_dragon,
    grows_crystal, grows_snowflake, grows_gosper⟩, ?_, length_dragon, length_snowflake⟩
  exact ⟨bundled, library?_bundledText, grows_koch_island, grows_hilbert, grows_bush⟩

end Library

end LSystem
