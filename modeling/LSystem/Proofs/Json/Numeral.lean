import LSystem.Json.Reader
import LSystem.Proofs.Decimal.Shortest
set_option autoImplicit false

/-! # Numerals are read as they are written

A numeral is read in four stages: a sign, the digits in front of the point, those behind it, and a power of
ten. Each takes off the text what was written for it and stops at the next character, as long as that one
cannot belong to the stage; so a well-formed numeral is read back whole (`numeral?_append`). The numeral
of a float stands for a number to which that float is nearest (`exists_ofFloat?`), and this is all that a
reader of numbers needs which rounds correctly. -/

namespace LSystem.Json

open Binary64

/-! ## Digits -/

namespace Reader

/-- A text that does not go on with a digit. -/
def NoDigit (s : List Char) : Prop := ∀ c ∈ s.head?, c.isDigit = false

theorem digits?_append {ds rest : List Char} (hne : ds ≠ []) (hds : ∀ c ∈ ds, c.isDigit = true)
    (hrest : NoDigit rest) : digits? (ds ++ rest) = some (ds, rest) := by
  have hstop : rest.takeWhile Char.isDigit = [] ∧ rest.dropWhile Char.isDigit = rest := by
    cases rest with
    | nil => exact ⟨rfl, rfl⟩
    | cons c cs =>
      have hc : c.isDigit = false := hrest c rfl
      simp [hc]
  unfold digits?
  rw [List.takeWhile_append_of_pos hds, List.dropWhile_append_of_pos hds, hstop.1, hstop.2,
    List.append_nil]
  simp [hne]

end Reader

theorem head?_toDigits {n : Nat} (hn : n ≠ 0) : (Nat.toDigits 10 n).head? ≠ some '0' := by
  induction n using Nat.strongRecOn with
  | _ n ih =>
    rcases Nat.lt_or_ge n 10 with hlt | hge
    · rw [Nat.toDigits_of_lt_base hlt]
      interval_cases n <;> simp_all
    · rw [Nat.toDigits_of_base_le (by norm_num) hge, List.head?_append_of_ne_nil _ Nat.toDigits_ne_nil]
      exact ih (n / 10) (by omega) (by omega)

theorem toDigits_isDigit (n : Nat) : ∀ c ∈ Nat.toDigits 10 n, c.isDigit = true :=
  fun _ hc => Nat.isDigit_of_mem_toDigits (by norm_num) (by norm_num) hc

namespace Numeral

/-! ## Well-formed numerals -/

/-- A numeral as the grammar has it: digits on both sides of the point, the first of them no zero unless
    it stands alone. -/
structure IsWellFormed (n : Numeral) : Prop where
  whole_ne_nil : n.whole ≠ []
  whole_isDigit : ∀ c ∈ n.whole, c.isDigit = true
  whole_head : n.whole.head? = some '0' → n.whole = ['0']
  fraction_isDigit : ∀ c ∈ n.fraction, c.isDigit = true

theorem isWellFormed_ofNat (n : Nat) : (ofNat n).IsWellFormed := by
  refine ⟨Nat.toDigits_ne_nil, toDigits_isDigit n, fun h => ?_, fun c hc => absurd hc List.not_mem_nil⟩
  rcases eq_or_ne n 0 with rfl | hne
  · rfl
  · exact absurd h (head?_toDigits hne)

/-- A numeral whose first digit is no zero. -/
theorem isWellFormed_of_head {negative : Bool} {d : Char} {ds fraction : List Char}
    {exponent : Option Int} (hd : d ≠ '0') (hds : ∀ c ∈ d :: ds, c.isDigit = true)
    (hfraction : ∀ c ∈ fraction, c.isDigit = true) :
    IsWellFormed ⟨negative, d :: ds, fraction, exponent⟩ :=
  ⟨List.cons_ne_nil d ds, hds, fun h => absurd (Option.some.inj h) hd, hfraction⟩

theorem isWellFormed_layOut (negative : Bool) {m : Nat} (hm : m ≠ 0) (e : Int) :
    (layOut negative (Nat.toDigits 10 m) e).IsWellFormed := by
  have hdigit := toDigits_isDigit m
  have hhead := head?_toDigits hm
  obtain ⟨d, ds, hds⟩ := List.exists_cons_of_ne_nil (Nat.toDigits_ne_nil (n := m) (b := 10))
  rw [hds] at hdigit hhead ⊢
  have hd : d ≠ '0' := fun h => hhead (congrArg some h)
  have hzero (n : Nat) : ∀ c ∈ List.replicate n '0', c.isDigit = true := by
    intro c hc
    rw [List.eq_of_mem_replicate hc]
    rfl
  unfold layOut
  extract_lets lead
  split_ifs with hplain hwhole hmixed
  · refine isWellFormed_of_head hd (fun c hc => ?_) (hzero 1)
    have hc' : c ∈ (d :: ds) ++ List.replicate e.toNat '0' := hc
    rcases List.mem_append.1 hc' with h | h
    · exact hdigit c h
    · exact hzero _ c h
  · obtain ⟨k, hk⟩ : ∃ k, (lead + 1).toNat = k + 1 := ⟨lead.toNat, by omega⟩
    rw [hk, List.take_succ_cons]
    exact isWellFormed_of_head hd (fun c hc => hdigit c (List.mem_of_mem_take (i := k + 1) hc))
      fun c hc => hdigit c (List.mem_of_mem_drop hc)
  · refine ⟨List.cons_ne_nil _ _, hzero 1, fun _ => rfl, fun c hc => ?_⟩
    rcases List.mem_append.1 hc with h | h
    · exact hzero _ c h
    · exact hdigit c h
  · exact isWellFormed_of_head hd (fun c hc => hdigit c (List.mem_of_mem_take (i := 1) hc))
      fun c hc => hdigit c (List.mem_of_mem_drop (i := 1) hc)

end Numeral

/-! ## Reading back -/

namespace Reader

/-- A text that does not go on with anything that could belong to a numeral. -/
def EndsNumeral (s : List Char) : Prop :=
  ∀ c ∈ s.head?, c.isDigit = false ∧ c ≠ '.' ∧ c ≠ 'e' ∧ c ≠ 'E'

theorem sign_append (negative : Bool) {s : List Char} (hs : ∀ c ∈ s.head?, c ≠ '-') :
    sign ((if negative then ['-'] else []) ++ s) = (negative, s) := by
  cases negative with
  | true => rfl
  | false =>
    unfold sign
    split
    · next heq => exact absurd rfl (hs '-' (by simp_all))
    · rfl

theorem whole?_append {whole rest : List Char} (hne : whole ≠ [])
    (hdigit : ∀ c ∈ whole, c.isDigit = true) (hhead : whole.head? = some '0' → whole = ['0'])
    (hrest : NoDigit rest) : whole? (whole ++ rest) = some (whole, rest) := by
  by_cases hzero : whole.head? = some '0'
  · rw [hhead hzero]
    have hstop : (rest.head?.map Char.isDigit).getD false = false := by
      cases rest with
      | nil => rfl
      | cons c cs => exact hrest c rfl
    simp [whole?, hstop]
  · unfold whole?
    split
    · next heq =>
      obtain ⟨c, cs, rfl⟩ := List.exists_cons_of_ne_nil hne
      obtain ⟨rfl, -⟩ := List.cons.inj heq
      exact absurd rfl hzero
    · exact digits?_append hne hdigit hrest

theorem fraction?_append {fraction rest : List Char} (hdigit : ∀ c ∈ fraction, c.isDigit = true)
    (hrest : NoDigit rest) (hpoint : ∀ c ∈ rest.head?, c ≠ '.') :
    fraction? ((if fraction.isEmpty then [] else '.' :: fraction) ++ rest) = some (fraction, rest) := by
  cases fraction with
  | nil =>
    unfold fraction?
    split
    · next heq => exact absurd rfl (hpoint '.' (by simp_all))
    · rfl
  | cons c cs => exact digits?_append (List.cons_ne_nil c cs) hdigit hrest

theorem exponent?_append (e : Int) {rest : List Char} (hrest : NoDigit rest) :
    exponent? ((if e < 0 then '-' else '+') :: Nat.toDigits 10 e.natAbs ++ rest) = some (e, rest) := by
  have hsign : exponentSign ((if e < 0 then '-' else '+') :: Nat.toDigits 10 e.natAbs ++ rest)
      = (decide (e < 0), Nat.toDigits 10 e.natAbs ++ rest) := by
    by_cases he : e < 0
    · simp [he, exponentSign, sign]
    · simp [he, exponentSign]
  unfold exponent?
  rw [hsign]
  dsimp only
  rw [digits?_append Nat.toDigits_ne_nil (toDigits_isDigit _) hrest]
  simp only [Option.bind_eq_bind, Option.bind_some, Nat.ofDigitChars_ten_toDigits, decide_eq_true_eq]
  split_ifs with he <;> congr 2 <;> omega

/-- What is written of a power of ten, if there is one. -/
def powerChars : Option Int → List Char
  | none => []
  | some e => 'e' :: (if e < 0 then '-' else '+') :: Nat.toDigits 10 e.natAbs

theorem power?_append (exponent : Option Int) {rest : List Char} (hrest : EndsNumeral rest) :
    power? (powerChars exponent ++ rest) = some (exponent, rest) := by
  cases exponent with
  | none =>
    unfold power? powerChars
    split
    · next heq => exact absurd rfl (hrest 'e' (by simp_all)).2.2.1
    · next heq => exact absurd rfl (hrest 'E' (by simp_all)).2.2.2
    · rfl
  | some e =>
    have hdigit : NoDigit rest := fun c hc => (hrest c hc).1
    exact congrArg (Option.map fun p => (some p.1, p.2)) (exponent?_append e hdigit)

/-- **A well-formed numeral is read back.** -/
theorem numeral?_append {n : Numeral} (hn : n.IsWellFormed) {rest : List Char}
    (hrest : EndsNumeral rest) : numeral? (n.chars ++ rest) = some (n, rest) := by
  obtain ⟨negative, whole, fraction, exponent⟩ := n
  have hpower : ∀ c ∈ (powerChars exponent ++ rest).head?, c.isDigit = false ∧ c ≠ '.' := by
    cases exponent with
    | none => exact fun c hc => ⟨(hrest c hc).1, (hrest c hc).2.1⟩
    | some e =>
      rintro c ⟨⟩
      decide
  have hfraction : NoDigit ((if fraction.isEmpty then [] else '.' :: fraction)
      ++ (powerChars exponent ++ rest)) := by
    cases fraction with
    | nil => exact fun c hc => (hpower c hc).1
    | cons d ds =>
      rintro c ⟨⟩
      rfl
  have hwhole : ∀ c ∈ (whole ++ ((if fraction.isEmpty then [] else '.' :: fraction)
      ++ (powerChars exponent ++ rest))).head?, c ≠ '-' := by
    obtain ⟨d, ds, rfl⟩ := List.exists_cons_of_ne_nil hn.whole_ne_nil
    rintro c ⟨⟩ rfl
    exact absurd (hn.whole_isDigit '-' List.mem_cons_self) (by decide)
  have hchars : Numeral.chars ⟨negative, whole, fraction, exponent⟩ ++ rest =
      (if negative then ['-'] else []) ++ (whole ++ ((if fraction.isEmpty then [] else '.' :: fraction)
        ++ (powerChars exponent ++ rest))) := by
    simp only [Numeral.chars, List.append_assoc]
    cases exponent <;> rfl
  unfold numeral?
  rw [hchars, sign_append negative hwhole]
  dsimp only
  rw [whole?_append hn.whole_ne_nil hn.whole_isDigit hn.whole_head hfraction]
  dsimp only [Option.bind_eq_bind, Option.bind_some]
  rw [fraction?_append hn.fraction_isDigit (fun c hc => (hpower c hc).1) fun c hc => (hpower c hc).2]
  dsimp only [Option.bind_some]
  rw [power?_append exponent hrest]
  rfl

end Reader

/-! ## Values -/

namespace Numeral

/-- The decimal that a numeral writes, its sign apart. -/
def toDecimal (n : Numeral) : Decimal :=
  ⟨Nat.ofDigitChars 10 (n.whole ++ n.fraction) 0, n.exponent.getD 0 - n.fraction.length⟩

/-- However digits are laid out, they stay as they are, but for the zeros up to the point and the one behind
    it in a whole number. -/
theorem toDecimal_layOut (negative : Bool) (m : Nat) (e : Int) :
    (layOut negative (Nat.toDigits 10 m) e).toDecimal =
      if 0 ≤ e ∧ (Nat.toDigits 10 m).length + e ≤ 16 then ⟨m * 10 ^ (e.toNat + 1), -1⟩ else ⟨m, e⟩ := by
  have hds : Nat.ofDigitChars 10 (Nat.toDigits 10 m) 0 = m := Nat.ofDigitChars_ten_toDigits
  have hpos : 0 < (Nat.toDigits 10 m).length := Nat.length_toDigits_pos
  generalize Nat.toDigits 10 m = ds at *
  unfold layOut toDecimal
  extract_lets lead
  split_ifs with hplain hwhole hmixed <;> try omega
  · -- zeros up to the point and one behind it
    have hdigits : Nat.ofDigitChars 10 (ds ++ List.replicate e.toNat '0' ++ ['0']) 0 =
        m * 10 ^ (e.toNat + 1) := by
      rw [Nat.ofDigitChars_append, Nat.ofDigitChars_append, hds, Nat.ofDigitChars_replicate_zero]
      simp [Nat.ofDigitChars_cons]
      ring
    rw [hdigits]
    rfl
  · -- the point among the digits
    have hexponent : (0 : Int) - (ds.drop (lead + 1).toNat).length = e := by
      rw [List.length_drop]
      omega
    rw [List.take_append_drop, hds, Option.getD_none, hexponent]
  · -- zeros behind the point
    have hexponent : (0 : Int) - (List.replicate (-lead - 1).toNat '0' ++ ds).length = e := by
      rw [List.length_append, List.length_replicate]
      omega
    have hdigits : Nat.ofDigitChars 10 (['0'] ++ (List.replicate (-lead - 1).toNat '0' ++ ds)) 0 = m := by
      rw [Nat.ofDigitChars_append, Nat.ofDigitChars_append, Nat.ofDigitChars_replicate_zero]
      simp [Nat.ofDigitChars_cons, hds]
    rw [hdigits, Option.getD_none, hexponent]
  · -- one digit in front of the point and a power of ten
    have hexponent : lead - (ds.drop 1).length = e := by
      rw [List.length_drop]
      omega
    rw [List.take_append_drop, hds, Option.getD_some, hexponent]

theorem value_layOut (negative : Bool) (m : Nat) (e : Int) :
    (layOut negative (Nat.toDigits 10 m) e).toDecimal.value = m * 10 ^ e := by
  rw [toDecimal_layOut]
  split_ifs with hwhole
  · obtain ⟨k, rfl⟩ := Int.eq_ofNat_of_zero_le hwhole.1
    rw [Decimal.value, Int.toNat_natCast, pow_succ, zpow_natCast, zpow_neg_one]
    push_cast
    field_simp
  · rfl

/-- The numeral of a finite float: a well-formed one with its sign, of a number that it is nearest to. -/
theorem exists_ofFloat? {x : Float} (hx : isFinite x = true) :
    ∃ n, ofFloat? x = some n ∧ n.IsWellFormed ∧ n.negative = isNegative x ∧
      IsNearest n.toDecimal.value (unsignedBits x) := by
  unfold isFinite at hx
  unfold ofFloat?
  split at hx
  · next negative m e hparts =>
    obtain ⟨hsign, hlt, hvalue⟩ := parts_of_decode hparts
    rw [hparts]
    have hself := isNearest_magnitude hlt.le
    cases m with
    | zero =>
      refine ⟨_, rfl, ?_, hsign, ?_⟩
      · exact ⟨by simp, by simp, fun _ => rfl, by simp⟩
      · simpa [hvalue, toDecimal, Decimal.value, Nat.ofDigitChars_cons] using hself
    | succ k =>
      have hnear := Decimal.isNearest_shortest hlt.le hvalue
      have hne : (Decimal.shortest (k + 1) e).digits ≠ 0 := by
        refine Decimal.digits_ne_zero hnear ?_
        intro hzero
        rw [hzero, magnitude_zero] at hvalue
        have : (0 : ℚ) < (k + 1 : Nat) * 2 ^ e := by positivity
        exact this.ne hvalue
      refine ⟨_, rfl, isWellFormed_layOut negative hne _, ?_, ?_⟩
      · rw [← hsign]
        unfold layOut
        extract_lets lead
        split_ifs <;> rfl
      · rw [value_layOut]
        exact hnear
  · cases hx

/-- What is not finite has none. -/
theorem ofFloat?_eq_none {x : Float} (hx : isFinite x = false) : ofFloat? x = none := by
  unfold isFinite at hx
  unfold ofFloat?
  split at hx
  · cases hx
  · next hnot =>
    split
    · next hparts => exact absurd hparts (hnot _ _ _)
    · next hparts => exact absurd hparts (hnot _ _ _)
    · rfl

/-! ## Readers of numbers -/

/-- A reader of numbers rounds correctly when it reads every well-formed numeral as the float of the same
    sign that is nearest to it, if there is one. What it makes of numerals too large for a float is left
    to it. -/
def CorrectlyRounded (toFloat? : Numeral → Option Float) : Prop :=
  ∀ (n : Numeral) (x : Float), n.IsWellFormed → isFinite x = true → isNegative x = n.negative →
    IsNearest n.toDecimal.value (unsignedBits x) → toFloat? n = some x

/-- Reading a numeral as a decimal. -/
def nearest? (n : Numeral) : Option Float := some (n.toDecimal.toFloat n.negative)

theorem correctlyRounded_nearest? : CorrectlyRounded nearest? := by
  intro n x _ _ hsign hnear
  rw [nearest?, ← hsign, Decimal.toFloat_eq hnear]

end Numeral

end LSystem.Json
