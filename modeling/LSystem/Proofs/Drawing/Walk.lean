import LSystem.Drawing
set_option autoImplicit false

/-! # How a walk goes on, and where it ends

A walk reads its word once, from the left, and what it does at a symbol is decided by that symbol and
the walk so far. So there are three things to know about it: what one symbol does (`Reads`), that a
property kept at each symbol is kept along a word (`follow_invariant`), as is a relation to another walk
(`follow_related`), and that a failure names a `]` in front of which the walk got through with nothing
saved (`follow_eq_error`). -/

namespace LSystem

/-! ## Symbols -/

/-- The turtle draws a step at this symbol. -/
def Symbol.Draws (c : Symbol) : Prop := c = 'A' ∨ c = 'B' ∨ c = 'C'

instance : DecidablePred Symbol.Draws := fun c =>
  inferInstanceAs (Decidable (c = 'A' ∨ c = 'B' ∨ c = 'C'))

/-- The turtle passes over this symbol. -/
def Symbol.Idle (c : Symbol) : Prop := Action.ofSymbol c = .pass

instance : DecidablePred Symbol.Idle := fun c =>
  inferInstanceAs (Decidable (Action.ofSymbol c = .pass))

/-- Which symbols stand for an action. -/
theorem Action.ofSymbol_spec (c : Symbol) :
    match ofSymbol c with
    | .draw => Symbol.Draws c
    | .left => c = '+'
    | .right => c = '-'
    | .save => c = '['
    | .restore => c = ']'
    | .pass => Symbol.Idle c := by
  cases h : ofSymbol c
  case pass => exact h
  all_goals
    unfold ofSymbol at h
    split at h <;> simp_all [Symbol.Draws]

namespace Symbol

variable {c : Symbol}

theorem Draws.ne_open (h : Draws c) : c ≠ '[' := by
  rcases h with rfl | rfl | rfl <;> decide

theorem Draws.ne_close (h : Draws c) : c ≠ ']' := by
  rcases h with rfl | rfl | rfl <;> decide

theorem Idle.not_draws (h : Idle c) : ¬ Draws c := by
  rintro (rfl | rfl | rfl) <;> exact absurd h (by decide)

theorem Idle.ne_open (h : Idle c) : c ≠ '[' := by
  rintro rfl
  exact absurd h (by decide)

theorem Idle.ne_close (h : Idle c) : c ≠ ']' := by
  rintro rfl
  exact absurd h (by decide)

end Symbol

namespace Walk

theorem length_geometry_points {α : Type} (w : Walk α) :
    w.geometry.points.length = 2 * w.drawn.length := by
  have htwo : ∀ ss : List (Segment α),
      (ss.flatMap fun s => [s.start, s.stop]).length = 2 * ss.length := by
    intro ss
    induction ss with
    | nil => rfl
    | cons s ss ih =>
      simp only [List.flatMap_cons, List.length_append, ih, List.length_cons, List.length_nil]
      omega
  rw [geometry, htwo, List.length_reverse]

variable {α : Type} [Add α] [Sub α] [Mul α] [Extremes α]

/-! ## One symbol -/

/-- The walk `w` reads the symbol and becomes the walk after it. -/
inductive Reads (left right : Rotation α) : Symbol → Walk α → Walk α → Prop
  | draw {c : Symbol} {w : Walk α} (hc : Symbol.Draws c) :
      Reads left right c w
        { w with
          turtle := w.turtle.step
          bounds := w.bounds.enclose w.turtle.step.position
          drawn := ⟨w.turtle.position, w.turtle.step.position⟩ :: w.drawn }
  | left {w : Walk α} : Reads left right '+' w { w with turtle := w.turtle.turn left }
  | right {w : Walk α} : Reads left right '-' w { w with turtle := w.turtle.turn right }
  | save {w : Walk α} : Reads left right '[' w { w with saved := w.turtle :: w.saved }
  | restore {w : Walk α} {t : Turtle α} {ts : List (Turtle α)} (hs : w.saved = t :: ts) :
      Reads left right ']' w { w with turtle := t, saved := ts }
  | pass {c : Symbol} {w : Walk α} (hc : Symbol.Idle c) : Reads left right c w w

variable {left right : Rotation α}

/-- Where an action can be taken, its symbol is read. -/
theorem reads_of_act {c : Symbol} {w w' : Walk α}
    (h : w.act left right (.ofSymbol c) = some w') : Reads left right c w w' := by
  have hc := Action.ofSymbol_spec c
  cases ha : Action.ofSymbol c <;> rw [ha] at h hc
  case draw =>
    obtain rfl := Option.some.inj h
    exact .draw hc
  case left =>
    obtain rfl := Option.some.inj h
    exact hc ▸ .left
  case right =>
    obtain rfl := Option.some.inj h
    exact hc ▸ .right
  case save =>
    obtain rfl := Option.some.inj h
    exact hc ▸ .save
  case restore =>
    cases hs : w.saved with
    | nil => simp [act, hs] at h
    | cons t ts =>
      simp only [act, hs] at h
      obtain rfl := Option.some.inj h
      exact hc ▸ .restore hs
  case pass =>
    obtain rfl := Option.some.inj h
    exact .pass hc

/-- An action can be taken unless it is to go back where nothing is saved. -/
theorem eq_close_of_act_none {c : Symbol} {w : Walk α}
    (h : w.act left right (.ofSymbol c) = none) : c = ']' ∧ w.saved = [] := by
  have hc := Action.ofSymbol_spec c
  cases ha : Action.ofSymbol c <;> rw [ha] at h hc <;> simp only [act] at h <;> try cases h
  cases hs : w.saved with
  | nil => exact ⟨hc, rfl⟩
  | cons t ts => simp [hs] at h

/-! ## Words -/

theorem follow_cons_of_some {w next : Walk α} {c : Symbol}
    (h : w.act left right (.ofSymbol c) = some next) (p : Nat) (cs : Word) :
    follow left right w p (c :: cs) = follow left right next (p + 1) cs := by
  rw [follow, h]

theorem follow_cons_of_none {w : Walk α} {c : Symbol}
    (h : w.act left right (.ofSymbol c) = none) (p : Nat) (cs : Word) :
    follow left right w p (c :: cs) = .error (.unmatchedBracket p) := by
  rw [follow, h]

/-- A walk along two words goes along the second from where the first has led. -/
theorem follow_append (w : Walk α) (p : Nat) (u v : Word) :
    follow left right w p (u ++ v) =
      (follow left right w p u).bind fun mid => follow left right mid (p + u.length) v := by
  induction u generalizing w p with
  | nil => rfl
  | cons c cs ih =>
    rw [List.cons_append]
    cases h : w.act left right (.ofSymbol c) with
    | none =>
      rw [follow_cons_of_none h, follow_cons_of_none h]
      rfl
    | some next =>
      rw [follow_cons_of_some h, follow_cons_of_some h, ih, List.length_cons, Nat.add_right_comm,
        Nat.add_assoc]

/-- A walk that gets along a word gets along what the word begins with. -/
theorem follow_of_append {w w' : Walk α} {p : Nat} {u v : Word}
    (h : follow left right w p (u ++ v) = .ok w') : ∃ mid, follow left right w p u = .ok mid := by
  rw [follow_append] at h
  cases hu : follow left right w p u with
  | error e =>
    rw [hu] at h
    cases h
  | ok mid => exact ⟨mid, rfl⟩

/-- Of two walks that stay related at each action, the second gets along a word where the first does,
    and they are still related. The positions need not be the same. -/
theorem follow_related {left' right' : Rotation α} {R : Walk α → Walk α → Prop}
    (hact : ∀ {v w v' : Walk α} {a : Action}, R v w → v.act left right a = some v' →
      ∃ w', w.act left' right' a = some w' ∧ R v' w')
    {v w v' : Walk α} {p : Nat} {word : Word} (h : R v w)
    (hv : follow left right v p word = .ok v') (q : Nat) :
    ∃ w', follow left' right' w q word = .ok w' ∧ R v' w' := by
  induction word generalizing v w p q with
  | nil =>
    obtain rfl := Except.ok.inj hv
    exact ⟨w, rfl, h⟩
  | cons c cs ih =>
    cases ha : v.act left right (.ofSymbol c) with
    | none =>
      rw [follow_cons_of_none ha] at hv
      cases hv
    | some next =>
      rw [follow_cons_of_some ha] at hv
      obtain ⟨next', ha', hnext⟩ := hact h ha
      rw [follow_cons_of_some ha']
      exact ih hnext hv (q + 1)

/-- Where a walk gets to does not depend on the position at which its word is said to start. -/
theorem follow_ok_from {w w' : Walk α} {p : Nat} {v : Word}
    (h : follow left right w p v = .ok w') (q : Nat) : follow left right w q v = .ok w' := by
  have hact : ∀ {v w v' : Walk α} {a : Action}, v = w → v.act left right a = some v' →
      ∃ w', w.act left right a = some w' ∧ v' = w' := by
    rintro v _ v' a rfl ha
    exact ⟨v', ha, rfl⟩
  obtain ⟨_, hw, rfl⟩ := follow_related hact rfl h q
  exact hw

/-- What holds of a walk and the word it has read, and is kept at each further symbol, still holds
    when the walk has gone along a further word. -/
theorem follow_invariant {P : Word → Walk α → Prop}
    (step : ∀ u c w w', P u w → Reads left right c w w' → P (u ++ [c]) w')
    {u v : Word} {w w' : Walk α} {p : Nat} (h : P u w) (hv : follow left right w p v = .ok w') :
    P (u ++ v) w' := by
  induction v generalizing u w p with
  | nil =>
    obtain rfl : w = w' := by simpa [follow] using hv
    simpa using h
  | cons c cs ih =>
    cases ha : w.act left right (.ofSymbol c) with
    | none =>
      rw [follow_cons_of_none ha] at hv
      cases hv
    | some next =>
      rw [follow_cons_of_some ha] at hv
      rw [List.append_cons]
      exact ih (step u c w next h (reads_of_act ha)) hv

/-- A failure names the position of a `]` to which the walk has come with nothing saved. -/
theorem follow_eq_error {w : Walk α} {p : Nat} {v : Word} {e : Failure}
    (h : follow left right w p v = .error e) :
    ∃ a b mid, v = a ++ ']' :: b ∧ follow left right w p a = .ok mid ∧ mid.saved = []
      ∧ e = .unmatchedBracket (p + a.length) := by
  induction v generalizing w p with
  | nil => cases h
  | cons c cs ih =>
    cases ha : w.act left right (.ofSymbol c) with
    | none =>
      obtain ⟨rfl, hs⟩ := eq_close_of_act_none ha
      rw [follow_cons_of_none ha] at h
      cases h
      exact ⟨[], cs, w, rfl, rfl, hs, rfl⟩
    | some next =>
      rw [follow_cons_of_some ha] at h
      obtain ⟨a, b, mid, rfl, hmid, hs, rfl⟩ := ih h
      refine ⟨c :: a, b, mid, rfl, ?_, hs, ?_⟩
      · rw [follow_cons_of_some ha]
        exact hmid
      · rw [List.length_cons, Nat.add_right_comm, Nat.add_assoc]

/-! ## Drawings -/

variable [OfNat α 0] [OfNat α 1]

/-- The outcome of a drawing is that of its walk. -/
theorem draw_eq_ok_iff {word : Word} {g : Geometry α} :
    Walk.draw left right word = .ok g ↔
      ∃ w, follow left right start 0 word = .ok w ∧ w.geometry = g := by
  unfold draw
  cases follow left right start 0 word with
  | error e => simp [Except.map]
  | ok w => simp [Except.map]

theorem draw_eq_error_iff {word : Word} {e : Failure} :
    Walk.draw left right word = .error e ↔ follow left right start 0 word = .error e := by
  unfold draw
  cases follow left right start 0 word with
  | error e => simp [Except.map]
  | ok w => simp [Except.map]

end Walk

end LSystem
