import LSystem.Proofs.Drawing.Guarded
import LSystem.Proofs.Drawing.Hull
set_option autoImplicit false

/-! # A closed branch leaves the rest of a drawing as it was

What a walk does next is decided by its turtle and the turtles it has saved; what it has drawn so far, and
the box around that, are never looked at. So a walk can be carried out on top of another one (`onto`), and
reads and draws there what it would by itself. A branch that closes all it opens, and nothing else, is
such a walk on top of what was saved in front of it, and leads back to where it set out with nothing but
more segments. The rest of the word is then read once with and once without these. -/

namespace LSystem

namespace Walk

section

variable {α : Type} [Extremes α]

/-- The walk with some segments drawn behind its own, newest first. -/
def adding (w : Walk α) (segments : List (Segment α)) : Walk α :=
  { w with
    bounds := (segments.map (·.stop)).foldr (fun p b => b.enclose p) w.bounds
    drawn := segments ++ w.drawn }

/-- The walk on top of what another one has saved and drawn. -/
def onto (w base : Walk α) : Walk α :=
  { base.adding w.drawn with
    turtle := w.turtle
    saved := w.saved ++ base.saved }

/-- A walk that has drawn nothing yet. -/
def fresh [OfNat α 0] (t : Turtle α) (saved : List (Turtle α)) : Walk α := ⟨t, saved, .atOrigin, []⟩

theorem adding_adding (w : Walk α) (earlier later : List (Segment α)) :
    (w.adding earlier).adding later = w.adding (later ++ earlier) := by
  simp [adding]

theorem points_adding (w : Walk α) (segments : List (Segment α)) :
    (w.adding segments).geometry.points =
      w.geometry.points ++ segments.reverse.flatMap fun s => [s.start, s.stop] := by
  simp [geometry, adding]

/-- The box of a walk, and of segments drawn behind it, has grown from the origin. -/
theorem bounds_adding [OfNat α 0] {mid : Walk α} (hmid : Trodden mid) (segments : List (Segment α)) :
    (mid.adding segments).bounds =
      ((segments ++ mid.drawn).reverse.map (·.stop)).foldl Bounds.enclose .atOrigin := by
  show (segments.map (·.stop)).foldr (fun p b => b.enclose p) mid.bounds = _
  rw [hmid.bounds, ← List.foldr_append, ← List.map_append, List.foldr_eq_foldl_reverse,
    ← List.map_reverse]

variable [Add α] [Sub α] [Mul α] {left right : Rotation α}

/-! ## On top of another walk -/

theorem act_onto {w w' : Walk α} {a : Action} (h : w.act left right a = some w') (base : Walk α) :
    (w.onto base).act left right a = some (w'.onto base) := by
  cases a with
  | restore =>
    cases hs : w.saved with
    | nil => simp [act, hs] at h
    | cons t ts =>
      simp only [act, hs, Option.some.injEq] at h
      subst h
      simp [act, onto, adding, hs]
  | _ =>
    simp only [act, Option.some.injEq] at h
    subst h
    rfl

/-- A walk gets along a word on top of another walk as it does by itself, from any position. -/
theorem follow_onto {w w' : Walk α} {p : Nat} {v : Word} (h : follow left right w p v = .ok w')
    (base : Walk α) (q : Nat) : follow left right (w.onto base) q v = .ok (w'.onto base) := by
  have hact : ∀ {v u v' : Walk α} {a : Action}, u = v.onto base → v.act left right a = some v' →
      ∃ u', u.act left right a = some u' ∧ u' = v'.onto base := by
    rintro v _ v' a rfl ha
    exact ⟨v'.onto base, act_onto ha base, rfl⟩
  obtain ⟨_, hw, rfl⟩ := follow_related hact rfl h q
  exact hw

/-- It fails at the same symbol, too, unless there is something below that it could go back to. -/
theorem follow_onto_error {w : Walk α} {p : Nat} {v : Word} {e : Failure}
    (h : follow left right w p v = .error e) (base : Walk α) (hbase : base.saved = []) :
    ∃ i, e = .unmatchedBracket (p + i) ∧
      ∀ q, follow left right (w.onto base) q v = .error (.unmatchedBracket (q + i)) := by
  obtain ⟨a, b, mid, rfl, hmid, hs, rfl⟩ := follow_eq_error h
  refine ⟨a.length, rfl, ?_⟩
  intro q
  have hstop : (mid.onto base).act left right (.ofSymbol ']') = none := by
    have hnone : (mid.onto base).saved = [] := by simp [onto, hs, hbase]
    show (mid.onto base).act left right .restore = none
    simp [act, hnone]
  rw [follow_append, follow_onto hmid base q]
  exact follow_cons_of_none hstop _ b

end

variable {α : Type} [OfNat α 0] [Add α] [Sub α] [Mul α] [Extremes α] {left right : Rotation α}

/-! ## A branch -/

variable (left right) in
/-- A branch that closes no more than it opens can be walked from any turtle. It saves as many turtles as
    it leaves open, and draws a segment at each of its symbols that draw. -/
theorem follow_guarded {w : Word} (hw : w.Guarded) (t : Turtle α) :
    ∃ w', follow left right (fresh t []) 0 w = .ok w' ∧ Counts w w' := by
  have hfresh : Counts [] (fresh t [] : Walk α) := ⟨rfl, rfl⟩
  have hcounts : ∀ (a : Word) (mid : Walk α), follow left right (fresh t []) 0 a = .ok mid →
      Counts a mid := by
    intro a mid hmid
    refine follow_invariant ?_ hfresh hmid
    intro u c v v' hu hr
    exact hu.reads hr
  cases hfollow : follow left right (fresh t [] : Walk α) 0 w with
  | ok w' => exact ⟨w', rfl, hcounts w w' hfollow⟩
  | error e =>
    -- at the `]` of a failure one more bracket would be closed than are open
    obtain ⟨a, b, mid, rfl, hmid, hs, -⟩ := follow_eq_error hfollow
    have hsaved := (hcounts a mid hmid).saved
    refine absurd ?_ (hw (a ++ [']']) ⟨b, by simp⟩)
    simp [Word.Overclosed, hs] at hsaved ⊢
    omega

variable (left right) in
/-- A closed branch only adds segments. -/
theorem follow_branch {w : Word} (hw : w.Guarded) (hb : w.Balanced) (mid : Walk α) (p : Nat) :
    ∃ branch, branch.length = w.strokes ∧
      follow left right mid p ('[' :: (w ++ [']'])) = .ok (mid.adding branch) := by
  obtain ⟨w', hw', hcounts⟩ := follow_guarded left right hw mid.turtle
  have hsaved : w'.saved = [] := by
    have hlength := hcounts.saved
    unfold Word.Balanced at hb
    exact List.eq_nil_of_length_eq_zero (by omega)
  let base : Walk α := { mid with saved := mid.turtle :: mid.saved }
  have hbranch : follow left right base (p + 1) w = .ok (w'.onto base) := follow_onto hw' base (p + 1)
  have hback : (w'.onto base).act left right (.ofSymbol ']') = some (mid.adding w'.drawn) := by
    have htop : (w'.onto base).saved = mid.turtle :: mid.saved := by simp [onto, hsaved, base]
    show (w'.onto base).act left right .restore = _
    simp only [act, htop]
    rfl
  refine ⟨w'.drawn, hcounts.drawn, ?_⟩
  have hopen : mid.act left right (.ofSymbol '[') = some base := rfl
  rw [follow_cons_of_some hopen, follow_append, hbranch]
  exact follow_cons_of_some hback _ []

/-! ## The rest -/

variable (left right) in
/-- What follows is read alike whatever has been drawn before. -/
theorem follow_resume (mid : Walk α) (v : Word) :
    (∃ rest : Walk α, ∀ (branch : List (Segment α)) (q : Nat),
      follow left right (mid.adding branch) q v =
        .ok (rest.onto { mid.adding branch with saved := [] })) ∨
    ∃ i, ∀ (branch : List (Segment α)) (q : Nat),
      follow left right (mid.adding branch) q v = .error (.unmatchedBracket (q + i)) := by
  have hsplit : ∀ branch, mid.adding branch =
      (fresh mid.turtle mid.saved).onto { mid.adding branch with saved := [] } := by
    intro branch
    simp [fresh, onto, adding]
  cases hrest : follow left right (fresh mid.turtle mid.saved) 0 v with
  | ok rest =>
    refine .inl ⟨rest, ?_⟩
    intro branch q
    rw [hsplit branch]
    exact follow_onto hrest _ q
  | error e =>
    obtain ⟨i, rfl, -⟩ := follow_onto_error hrest { mid with saved := [] } rfl
    refine .inr ⟨i, ?_⟩
    intro branch q
    obtain ⟨j, hj, herror⟩ := follow_onto_error hrest { mid.adding branch with saved := [] } rfl
    obtain rfl : i = j := by simpa using hj
    rw [hsplit branch]
    exact herror q

variable (left right) in
/-- A branch put in behind `u` adds its segments there, or moves the failure if there is one behind it. -/
theorem follow_insert_branch [OfNat α 1] {w : Word} (hw : w.Guarded) (hb : w.Balanced) (u v : Word) :
    (∃ (mid fin fin' : Walk α) (branch rest : List (Segment α)), branch.length = w.strokes ∧
      follow left right start 0 u = .ok mid ∧
      follow left right start 0 (u ++ v) = .ok fin ∧
      follow left right start 0 (u ++ '[' :: (w ++ ']' :: v)) = .ok fin' ∧
      fin.geometry = (mid.adding rest).geometry ∧
      fin'.geometry = (mid.adding (rest ++ branch)).geometry) ∨
    ∃ p, follow left right (start : Walk α) 0 (u ++ v) = .error (.unmatchedBracket p) ∧
      follow left right (start : Walk α) 0 (u ++ '[' :: (w ++ ']' :: v)) =
        .error (.unmatchedBracket (if p < u.length then p else p + w.length + 2)) := by
  have hword : u ++ '[' :: (w ++ ']' :: v) = u ++ ('[' :: (w ++ [']']) ++ v) := by simp
  rw [hword]
  cases hu : follow left right (start : Walk α) 0 u with
  | error e =>
    obtain ⟨a, b, mid, rfl, -, -, rfl⟩ := follow_eq_error hu
    refine .inr ⟨0 + a.length, ?_, ?_⟩
    · rw [follow_append, hu]
      rfl
    · rw [follow_append, hu, if_pos (by simp)]
      rfl
  | ok mid =>
    obtain ⟨branch, hlength, hbranch⟩ := follow_branch left right hw hb mid
      (0 + u.length)
    have hplain : follow left right start 0 (u ++ v) =
        follow left right (mid.adding []) (0 + u.length) v := by
      rw [follow_append, hu]
      rfl
    have hlong : follow left right start 0 (u ++ ('[' :: (w ++ [']']) ++ v)) =
        follow left right (mid.adding branch) (0 + u.length + ('[' :: (w ++ [']'])).length) v := by
      rw [follow_append, hu]
      show follow left right mid (0 + u.length) ('[' :: (w ++ [']']) ++ v) = _
      rw [follow_append, hbranch]
      rfl
    rcases follow_resume left right mid v with ⟨rest, hrest⟩ | ⟨i, hi⟩
    · refine .inl ⟨mid, _, _, branch, rest.drawn, hlength, rfl, hplain.trans (hrest [] _),
        hlong.trans (hrest branch _), rfl, ?_⟩
      rw [← adding_adding]
      rfl
    · refine .inr ⟨0 + u.length + i, hplain.trans (hi [] _), ?_⟩
      rw [hlong, hi branch, if_neg (by omega)]
      congr 2
      simp
      omega

end Walk

/-! ## Drawings -/

/-- **A closed branch influences nothing outside itself.** Put into a word, it adds its own segments at its
    place, two points for each of its symbols that draw, and grows the box by where these end; all other
    points stay. It neither causes a failure nor prevents one: a failure in front of it stays where it was,
    and one behind it moves on by the length of the branch and its brackets. -/
theorem Word.draw_branch {w : Word} (hw : w.Guarded) (hb : w.Balanced) (u v : Word) (angle : Float) :
    let branched : Word := u ++ '[' :: (w ++ ']' :: v)
    (∀ g, Word.draw (u ++ v) angle = .ok g →
      ∃ (stem h : Geometry Float) (branch : List (Segment Float)) (rest : List Point),
        u.draw angle = .ok stem ∧ branched.draw angle = .ok h ∧ branch.length = w.strokes ∧
        g.points = stem.points ++ rest ∧
        h.points = stem.points ++ (branch.flatMap fun s => [s.start, s.stop]) ++ rest ∧
        h.bounds.same ((branch.map (·.stop)).foldl Bounds.enclose g.bounds) = true) ∧
    ∀ p, Word.draw (u ++ v) angle = .error (.unmatchedBracket p) →
      branched.draw angle =
        .error (.unmatchedBracket (if p < u.length then p else p + w.length + 2)) := by
  intro branched
  rcases Walk.follow_insert_branch (Rotation.ofAngle angle)
    (Rotation.ofAngle (-angle)) hw hb u v with
    ⟨mid, fin, fin', branch, rest, hlength, hu, hplain, hlong, hfin, hfin'⟩ | ⟨p, hplain, hlong⟩
  · refine ⟨?_, ?_⟩
    · intro g hg
      have hg' : Word.draw (u ++ v) angle = .ok fin.geometry := Walk.draw_eq_ok_iff.2 ⟨fin, hplain, rfl⟩
      rw [hg] at hg'
      obtain rfl := Except.ok.inj hg'
      refine ⟨mid.geometry, fin'.geometry, branch.reverse,
        rest.reverse.flatMap fun s => [s.start, s.stop], Walk.draw_eq_ok_iff.2 ⟨mid, hu, rfl⟩,
        Walk.draw_eq_ok_iff.2 ⟨fin', hlong, rfl⟩, ?_, ?_, ?_, ?_⟩
      · rw [List.length_reverse, hlength]
      · rw [hfin, Walk.points_adding]
      · rw [hfin', Walk.points_adding, List.reverse_append, List.flatMap_append, List.append_assoc]
      · have hmid := Walk.trodden_of_follow hu
        have hgrown : (branch.reverse.map (·.stop)).foldl Bounds.enclose fin.geometry.bounds =
            (mid.adding (branch ++ rest)).bounds := by
          rw [hfin, ← Walk.adding_adding, List.map_reverse, List.foldl_reverse]
          rfl
        have hbranched : fin'.geometry.bounds = (mid.adding (rest ++ branch)).bounds := by
          rw [hfin']
          rfl
        rw [hgrown, hbranched, Walk.bounds_adding hmid, Walk.bounds_adding hmid]
        refine Bounds.Alike.same (Bounds.alike_foldl_enclose _ ?_)
        intro p
        simp only [List.mem_map, List.mem_reverse, List.mem_append, or_comm]
    · intro p hp
      have hg : Word.draw (u ++ v) angle = .ok fin.geometry := Walk.draw_eq_ok_iff.2 ⟨fin, hplain, rfl⟩
      rw [hg] at hp
      cases hp
  · refine ⟨?_, ?_⟩
    · intro g hg
      have herror : Word.draw (u ++ v) angle = .error (.unmatchedBracket p) :=
        Walk.draw_eq_error_iff.2 hplain
      rw [hg] at herror
      cases herror
    · intro p' hp'
      have herror : Word.draw (u ++ v) angle = .error (.unmatchedBracket p) :=
        Walk.draw_eq_error_iff.2 hplain
      rw [hp'] at herror
      cases herror
      exact Walk.draw_eq_error_iff.2 hlong

/-- A bracket without partner stays without, behind a branch that has a branch of its own. -/
theorem Word.draw_branch_before_failure :
    let w : Word := ['+', 'A', '[', 'A', ']']
    w.Guarded ∧ w.Balanced ∧
      Word.draw ['[', 'A', ']', 'A', ']', 'B'] 1.0 = .error (.unmatchedBracket 4) ∧
      Word.draw ['[', 'A', '[', '+', 'A', '[', 'A', ']', ']', ']', 'A', ']', 'B'] 1.0 =
        .error (.unmatchedBracket 11) := by
  intro w
  have hw : w.Guarded := by decide
  have hb : w.Balanced := by decide
  have hplain : Word.draw (['[', 'A'] ++ [']', 'A', ']', 'B']) 1.0 = .error (.unmatchedBracket 4) := rfl
  exact ⟨hw, hb, hplain, (draw_branch hw hb ['[', 'A'] [']', 'A', ']', 'B'] 1.0).2 4 hplain⟩

end LSystem
