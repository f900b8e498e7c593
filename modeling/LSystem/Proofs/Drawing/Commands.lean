import LSystem.Proofs.Drawing.Brackets
set_option autoImplicit false

/-! # The commands in a word

Seven symbols mean something to the turtle, and three of them mean the same. A word says no more than its
*commands*, which are left of it when all other symbols are deleted and `B` and `C` are written as `A`: the
walk along the commands does what the walk along the word does, symbol for symbol, but for those that it
would pass over (`follow_commands`). Only the position of a failure tells the two apart, as what is passed
over is counted there. -/

namespace LSystem

/-! ## Commands -/

/-- The symbols that mean something to the turtle. -/
def Symbol.Commands (c : Symbol) : Prop := c ∈ ['A', 'B', 'C', '+', '-', '[', ']']

instance : DecidablePred Symbol.Commands := fun c =>
  inferInstanceAs (Decidable (c ∈ ['A', 'B', 'C', '+', '-', '[', ']']))

/-- The symbol that stands for all symbols of its meaning. -/
def Symbol.plain (c : Symbol) : Symbol := if c = 'B' ∨ c = 'C' then 'A' else c

namespace Word

/-- The commands in a word, each in plain form. -/
def commands (w : Word) : Word := (w.filter (Symbol.Commands ·)).map Symbol.plain

/-- How many commands stand in front of a position. -/
def commandsBefore (w : Word) (position : Nat) : Nat :=
  (w.take position).countP (Symbol.Commands ·)

@[simp] theorem commands_append (u v : Word) :
    commands (u ++ v) = u.commands ++ v.commands := by
  rw [commands, List.filter_append, List.map_append, commands, commands]

theorem commands_cons_of_commands {c : Symbol} (h : c.Commands) (w : Word) :
    commands (c :: w) = c.plain :: w.commands := by
  have hfilter := List.filter_cons_of_pos (p := fun d => decide (Symbol.Commands d)) (l := w)
    (decide_eq_true h)
  rw [commands, hfilter, List.map_cons, commands]

theorem commands_cons_of_not {c : Symbol} (h : ¬ c.Commands) (w : Word) :
    commands (c :: w) = w.commands := by
  rw [commands, List.filter_cons_of_neg (by simpa using h), commands]

theorem length_commands (w : Word) : w.commands.length = w.countP (Symbol.Commands ·) := by
  rw [commands, List.length_map, List.countP_eq_length_filter]

/-- Of two positions of commands the later one has more commands in front of it. -/
theorem commandsBefore_lt {w : Word} {p q : Nat} {c : Symbol} (hp : w[p]? = some c)
    (hc : c.Commands) (h : p < q) : w.commandsBefore p < w.commandsBefore q := by
  have hstep : w.commandsBefore (p + 1) = w.commandsBefore p + 1 := by
    rw [commandsBefore, List.take_add_one, hp, List.countP_append, commandsBefore]
    simp [hc]
  have hmono : w.commandsBefore (p + 1) ≤ w.commandsBefore q :=
    (List.take_prefix_take_left h).sublist.countP_le
  omega

end Word

/-! ## Their meaning -/

/-- A command means what it means in plain form. -/
theorem Action.ofSymbol_plain (c : Symbol) : ofSymbol c.plain = ofSymbol c := by
  unfold Symbol.plain
  split_ifs with h
  · rcases h with rfl | rfl <;> rfl
  · rfl

/-- A symbol that is no command is passed over. -/
theorem Action.ofSymbol_of_not_commands {c : Symbol} (h : ¬ c.Commands) : ofSymbol c = .pass := by
  have hc := ofSymbol_spec c
  cases ha : ofSymbol c <;> rw [ha] at hc
  case draw =>
    rcases hc with rfl | rfl | rfl <;> exact absurd (by decide) h
  all_goals
    subst hc
    exact absurd (by decide) h

namespace Walk

variable {α : Type} [Add α] [Sub α] [Mul α] [Extremes α] {left right : Rotation α}

/-! ## Walking along the commands -/

/-- Where a walk gets along a word, it gets along its commands to the same end. -/
theorem follow_commands {w w' : Walk α} {p : Nat} {v : Word}
    (h : follow left right w p v = .ok w') (q : Nat) :
    follow left right w q v.commands = .ok w' := by
  induction v generalizing w p q with
  | nil => exact h
  | cons c cs ih =>
    cases ha : w.act left right (.ofSymbol c) with
    | none =>
      rw [follow_cons_of_none ha] at h
      cases h
    | some next =>
      rw [follow_cons_of_some ha] at h
      by_cases hc : c.Commands
      · have hplain : w.act left right (.ofSymbol c.plain) = some next := by
          rw [Action.ofSymbol_plain, ha]
        rw [Word.commands_cons_of_commands hc, follow_cons_of_some hplain]
        exact ih h (q + 1)
      · -- the walk has passed over the symbol, so it has not moved
        rw [Action.ofSymbol_of_not_commands hc] at ha
        obtain rfl : w = next := Option.some.inj ha
        rw [Word.commands_cons_of_not hc]
        exact ih h q

/-- Where it fails, it fails at the same `]` among the commands. -/
theorem follow_commands_error {w : Walk α} {p : Nat} {v : Word} {e : Failure}
    (h : follow left right w p v = .error e) :
    ∃ i, v[i]? = some ']' ∧ e = .unmatchedBracket (p + i) ∧
      ∀ q, follow left right w q v.commands = .error (.unmatchedBracket (q + v.commandsBefore i)) := by
  obtain ⟨a, b, mid, rfl, hmid, hs, rfl⟩ := follow_eq_error h
  refine ⟨a.length, by simp, rfl, ?_⟩
  intro q
  have hbefore : Word.commandsBefore (a ++ ']' :: b) a.length = (Word.commands a).length := by
    rw [Word.commandsBefore, List.take_left, Word.length_commands]
  have hstop : mid.act left right (.ofSymbol ']') = none := by
    show mid.act left right .restore = none
    simp [act, hs]
  rw [hbefore, Word.commands_append, Word.commands_cons_of_commands (by decide), follow_append,
    follow_commands hmid q]
  exact follow_cons_of_none hstop _ _

end Walk

/-! ## Drawings -/

namespace Word

/-- A word and its commands are both drawn, alike, or both fail, at the same `]`. -/
theorem draw_commands_cases (word : Word) (angle : Float) :
    (∃ g, word.draw angle = .ok g ∧ word.commands.draw angle = .ok g) ∨
    ∃ p, word[p]? = some ']' ∧ word.draw angle = .error (.unmatchedBracket p) ∧
      word.commands.draw angle = .error (.unmatchedBracket (word.commandsBefore p)) := by
  cases h : word.draw angle with
  | ok g =>
    obtain ⟨w, hw, rfl⟩ := Walk.draw_eq_ok_iff.1 h
    exact .inl ⟨w.geometry, rfl, Walk.draw_eq_ok_iff.2 ⟨w, Walk.follow_commands hw 0, rfl⟩⟩
  | error e =>
    obtain ⟨p, hp, rfl, hcommands⟩ := Walk.follow_commands_error (Walk.draw_eq_error_iff.1 h)
    refine .inr ⟨p, hp, by rw [Nat.zero_add], Walk.draw_eq_error_iff.2 ?_⟩
    rw [hcommands, Nat.zero_add]

/-- Brackets that are closed at different positions have different numbers of commands in front of them. -/
theorem eq_of_commandsBefore_eq {w : Word} {p q : Nat} (hp : w[p]? = some ']') (hq : w[q]? = some ']')
    (h : w.commandsBefore p = w.commandsBefore q) : p = q := by
  have hclose : Symbol.Commands ']' := by decide
  rcases Nat.lt_trichotomy p q with hlt | heq | hgt
  · exact absurd h (commandsBefore_lt hp hclose hlt).ne
  · exact heq
  · exact absurd h (commandsBefore_lt hq hclose hgt).ne'

theorem draw_commands_ok_iff (word : Word) (angle : Float) (g : Geometry Float) :
    word.commands.draw angle = .ok g ↔ word.draw angle = .ok g := by
  rcases draw_commands_cases word angle with ⟨g', hword, hcommands⟩ | ⟨p, -, hword, hcommands⟩
  · rw [hword, hcommands]
  · rw [hword, hcommands]
    simp

/-- A failure among the commands is one in the word, behind as many commands. -/
theorem draw_commands_error_iff (word : Word) (angle : Float) (q : Nat) :
    word.commands.draw angle = .error (.unmatchedBracket q) ↔
      ∃ p, word.commandsBefore p = q ∧ word.draw angle = .error (.unmatchedBracket p) := by
  rcases draw_commands_cases word angle with ⟨g, hword, hcommands⟩ | ⟨p, -, hword, hcommands⟩
  · rw [hword, hcommands]
    simp
  · rw [hword, hcommands]
    simp [eq_comm]

/-- A failure in the word is at a `]`, and among the commands as far on as there are commands before. -/
theorem draw_error_iff_commands (word : Word) (angle : Float) (p : Nat) :
    word.draw angle = .error (.unmatchedBracket p) ↔ word[p]? = some ']' ∧
      word.commands.draw angle = .error (.unmatchedBracket (word.commandsBefore p)) := by
  rcases draw_commands_cases word angle with ⟨g, hword, hcommands⟩ | ⟨p', hp', hword, hcommands⟩
  · rw [hword, hcommands]
    simp
  · rw [hword, hcommands]
    constructor
    · intro h
      obtain rfl : p' = p := by simpa using h
      exact ⟨hp', rfl⟩
    · rintro ⟨hp, h⟩
      obtain rfl := eq_of_commandsBefore_eq hp' hp (by simpa using h)
      rfl

theorem draw_of_commands_eq {word word' : Word} (h : word'.commands = word.commands) (angle : Float) :
    (∃ g, word.draw angle = .ok g ∧ word'.draw angle = .ok g) ∨
    ∃ p p', word.draw angle = .error (.unmatchedBracket p) ∧
      word'.draw angle = .error (.unmatchedBracket p') := by
  rcases draw_commands_cases word angle with ⟨g, hword, hcommands⟩ | ⟨p, -, hword, hcommands⟩
  · refine .inl ⟨g, hword, ?_⟩
    rwa [← draw_commands_ok_iff, h]
  · rw [← h, draw_commands_error_iff] at hcommands
    obtain ⟨p', -, hword'⟩ := hcommands
    exact .inr ⟨p, p', hword, hword'⟩

/-- **Only the commands matter.** A word and its commands have the same drawing, or neither has one. A
    failure is at the same `]` in both, which stands in the one at position `p` and in the other behind as
    many commands as the word has in front of `p`. (A symbol that is passed over has as many commands in
    front of it as the next command has, but nothing can fail there.) So words with the same commands
    have the same drawing, or none of them has one. -/
theorem draw_commands (word : Word) (angle : Float) :
    (∀ g, word.draw angle = .ok g ↔ word.commands.draw angle = .ok g) ∧
    (∀ p, word.draw angle = .error (.unmatchedBracket p) ↔ word[p]? = some ']' ∧
      word.commands.draw angle = .error (.unmatchedBracket (word.commandsBefore p))) ∧
    (∀ q, word.commands.draw angle = .error (.unmatchedBracket q) ↔
      ∃ p, word.commandsBefore p = q ∧ word.draw angle = .error (.unmatchedBracket p)) ∧
    ∀ word' : Word, word'.commands = word.commands →
      (∃ g, word.draw angle = .ok g ∧ word'.draw angle = .ok g) ∨
      ∃ p p', word.draw angle = .error (.unmatchedBracket p) ∧
        word'.draw angle = .error (.unmatchedBracket p') :=
  ⟨fun g => (draw_commands_ok_iff word angle g).symm, draw_error_iff_commands word angle,
    draw_commands_error_iff word angle, fun _ h => draw_of_commands_eq h angle⟩

/-- Lower case letters and blanks are passed over, and counted. -/
theorem draw_commands_among_others :
    let word : Word := ['a', '[', 'B', ' ', ']', 'c', ']']
    let word' : Word := ['[', 'C', ']', ']']
    word'.commands = word.commands ∧
      (word.commandsBefore 6 = 3 ∧ word.commands.draw 1.0 = .error (.unmatchedBracket 3)) ∧
      ∃ p p', word.draw 1.0 = .error (.unmatchedBracket p) ∧
        word'.draw 1.0 = .error (.unmatchedBracket p') := by
  intro word word'
  have hsame : word'.commands = word.commands := by decide
  obtain ⟨-, hposition, -, hothers⟩ := draw_commands word 1.0
  have hword : word.draw 1.0 = .error (.unmatchedBracket 6) := rfl
  refine ⟨hsame, ⟨rfl, ((hposition 6).1 hword).2⟩, ?_⟩
  rcases hothers word' hsame with ⟨g, hg, -⟩ | hfail
  · rw [hword] at hg
    cases hg
  · exact hfail

/-- The position alone does not tell a failure: in front of the `x` that is passed over there are as many
    commands as in front of the `]`, but only the `]` fails. -/
theorem not_draw_error_iff_commandsBefore :
    let word : Word := ['x', ']']
    word.draw 1.0 = .error (.unmatchedBracket 1) ∧
      ¬ (word.draw 1.0 = .error (.unmatchedBracket 0) ↔
        word.commands.draw 1.0 = .error (.unmatchedBracket (word.commandsBefore 0))) := by
  intro word
  have hword : word.draw 1.0 = .error (.unmatchedBracket 1) := rfl
  have hcommands : word.commands.draw 1.0 = .error (.unmatchedBracket (word.commandsBefore 0)) := rfl
  refine ⟨hword, fun h => ?_⟩
  have hzero := h.mpr hcommands
  rw [hword] at hzero
  exact absurd hzero (by decide)

end Word

end LSystem
