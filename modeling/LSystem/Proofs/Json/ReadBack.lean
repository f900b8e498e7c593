import LSystem.Proofs.Json.Numeral
import LSystem.Proofs.Json.Strings
import LSystem.Proofs.Json.Text
set_option autoImplicit false

/-! # JSON is read as it is written

Between the parts of a value the printer puts white space, which the reader passes over, and behind a value
a comma, a bracket or nothing, none of which a numeral goes on with. A step of the reader takes at least one
character, so twice the length of the text is count enough. From the texts of its parts it follows that
the text of a value is read back (`readsBack`), and a whole text is in either layout (`read?_spread`,
`read?_compact`). -/

namespace LSystem.Json

namespace Reader

/-! ## White space -/

/-- Nothing but white space. -/
def Blank (s : List Char) : Prop := ∀ c ∈ s, isBlank c = true

theorem blank_nil : Blank [] := fun _ h => absurd h List.not_mem_nil

theorem mem_of_isBlank {c : Char} (hc : isBlank c = true) : c ∈ [' ', '\n', '\t', '\r'] := by
  simpa [isBlank, or_assoc] using hc

theorem skip_append {bs : List Char} (hbs : Blank bs) (s : List Char) : skip (bs ++ s) = skip s :=
  List.dropWhile_append_of_pos hbs

theorem skip_cons {c : Char} (hc : isBlank c = false) (s : List Char) : skip (c :: s) = c :: s := by
  simp [skip, hc]

section Blank

variable {bs : List Char} (hbs : Blank bs) (fuel : Nat) (half : Option Char) (s : List Char)
include hbs

theorem value?_blank : value? fuel (bs ++ s) = value? fuel s := by
  cases fuel <;> simp only [value?, skip_append hbs]

theorem items?_blank : items? fuel (bs ++ s) = items? fuel s := by
  cases fuel <;> simp only [items?, skip_append hbs]

theorem moreItems?_blank : moreItems? fuel (bs ++ s) = moreItems? fuel s := by
  cases fuel <;> simp only [moreItems?, skip_append hbs]

theorem member?_blank : member? fuel half (bs ++ s) = member? fuel half s := by
  cases fuel <;> simp only [member?, skip_append hbs]

theorem members?_blank : members? fuel half (bs ++ s) = members? fuel half s := by
  cases fuel <;> simp only [members?, skip_append hbs]

theorem moreMembers?_blank : moreMembers? fuel half (bs ++ s) = moreMembers? fuel half s := by
  cases fuel <;> simp only [moreMembers?, skip_append hbs]

end Blank

/-- A layout that puts nothing but white space between what it lays out. -/
structure Spaces (l : Layout) : Prop where
  gap : ∀ depth, Blank (l.gap depth).toList
  colon : ∃ bs, Blank bs ∧ l.colon.toList = ':' :: bs

theorem spaces_spread : Spaces .spread := by
  refine ⟨fun depth c hc => ?_, [' '], by simp [Blank, isBlank], rfl⟩
  rw [Layout.spread, String.toList_ofList] at hc
  rcases List.mem_cons.1 hc with rfl | h
  · rfl
  · rw [List.eq_of_mem_replicate h]
    rfl

theorem spaces_compact : Spaces .compact :=
  ⟨fun _ _ hc => absurd hc List.not_mem_nil, [], fun _ hc => absurd hc List.not_mem_nil, rfl⟩

/-- Behind white space comes a comma or a bracket, which a numeral does not go on with. -/
theorem endsNumeral_append {bs : List Char} (hbs : Blank bs) {c : Char} (hc : c ∈ [',', ']', '\x7d'])
    (s : List Char) : EndsNumeral (bs ++ c :: s) := by
  cases bs with
  | nil =>
    rintro d ⟨⟩
    fin_cases hc <;> decide
  | cons b bs =>
    rintro d ⟨⟩
    have hb := mem_of_isBlank (hbs b List.mem_cons_self)
    fin_cases hb <;> decide

/-! ## Steps

What the reader does with the first character that is not white space. -/

section Steps

variable (fuel : Nat) (s : List Char)

theorem value?_quote : value? (fuel + 1) ('"' :: s) =
    (string? (some '\ufffd') s).map fun (t, s) => (.string t, s) := by
  rw [value?, skip_cons rfl]
  rfl

theorem value?_bracket : value? (fuel + 1) ('[' :: s) =
    (items? fuel s).map fun (js, s) => (.array js, s) := by
  rw [value?, skip_cons rfl]
  rfl

theorem value?_brace : value? (fuel + 1) ('\x7b' :: s) =
    (members? fuel (some '\ufffd') s).map fun (ms, s) => (.object ms, s) := by
  rw [value?, skip_cons rfl]
  rfl

theorem isBlank_of_head {c : Char} (hc : c = '-' ∨ c.isDigit = true) : isBlank c = false := by
  by_contra h
  have hmem := mem_of_isBlank (eq_true_of_ne_false h)
  fin_cases hmem <;> exact absurd hc (by decide)

/-- A sign or a digit can only start a number. -/
theorem value?_of_head {c : Char} (hc : c = '-' ∨ c.isDigit = true) :
    value? (fuel + 1) (c :: s) = (numeral? (c :: s)).map fun (n, s) => (.number n, s) := by
  rw [value?, skip_cons (isBlank_of_head hc)]
  split
  case h_7 => rfl
  all_goals
    obtain ⟨rfl, -⟩ := List.cons.inj ‹_›
    exact absurd hc (by decide)

/-- An array that does not end at once has a first item. -/
theorem items?_of_head {c : Char} (hblank : isBlank c = false) (hc : c ≠ ']') :
    items? (fuel + 1) (c :: s) = do
      let (j, s) ← value? fuel (c :: s)
      let (js, s) ← moreItems? fuel s
      return (j :: js, s) := by
  rw [items?, skip_cons hblank]
  split
  · next heq => exact absurd (List.cons.inj heq).1 hc
  · rfl

theorem moreItems?_close : moreItems? (fuel + 1) (']' :: s) = some ([], s) := by
  rw [moreItems?, skip_cons rfl]
  rfl

theorem moreItems?_comma : moreItems? (fuel + 1) (',' :: s) = do
    let (j, s) ← value? fuel s
    let (js, s) ← moreItems? fuel s
    return (j :: js, s) := by
  rw [moreItems?, skip_cons rfl]
  rfl

variable (half : Option Char)

theorem member?_quoted {l : Layout} (hl : Spaces l) (t : String) :
    member? (fuel + 1) half ((quote t).toList ++ (l.colon.toList ++ s)) =
      (value? fuel s).map fun (j, s) => ((t, j), s) := by
  obtain ⟨bs, hbs, hcolon⟩ := hl.colon
  have hquote : (quote t).toList ++ (l.colon.toList ++ s) =
      '"' :: (t.toList.flatMap escape ++ '"' :: ':' :: (bs ++ s)) := by
    simp [quote, hcolon]
  rw [hquote, member?, skip_cons rfl]
  change Option.bind (string? half _) _ = _
  rw [string?_quoted, Option.bind_some]
  dsimp only
  rw [skip_cons rfl]
  change Option.bind (value? fuel (bs ++ s)) _ = _
  rw [value?_blank hbs]
  cases value? fuel s <;> rfl

theorem members?_quote : members? (fuel + 1) half ('"' :: s) = do
    let (m, s) ← member? fuel half ('"' :: s)
    let (ms, s) ← moreMembers? fuel half s
    return (m :: ms, s) := by
  rw [members?, skip_cons rfl]
  rfl

theorem moreMembers?_close : moreMembers? (fuel + 1) half ('\x7d' :: s) = some ([], s) := by
  rw [moreMembers?, skip_cons rfl]
  rfl

theorem moreMembers?_comma : moreMembers? (fuel + 1) half (',' :: s) = do
    let (m, s) ← member? fuel half s
    let (ms, s) ← moreMembers? fuel half s
    return (m :: ms, s) := by
  rw [moreMembers?, skip_cons rfl]
  rfl

end Steps

/-! ## Values -/

/-- The text of the value is read back, whatever follows it that a numeral would not go on with. It starts
    with something else than white space or the end of an array. -/
structure ReadsBack (l : Layout) (j : Json) : Prop where
  starts : ∀ depth, ∃ c cs, chars l depth j = c :: cs ∧ isBlank c = false ∧ c ≠ ']'
  reads : ∀ (depth fuel : Nat) (rest : List Char), 2 * (chars l depth j).length ≤ fuel →
    EndsNumeral rest → value? fuel (chars l depth j ++ rest) = some (j, rest)

variable {l : Layout}

theorem readsBack_null : ReadsBack l .null := by
  have hchars (depth : Nat) : chars l depth .null = ['n', 'u', 'l', 'l'] := by simp [chars, write]
  refine ⟨fun depth => ⟨'n', _, hchars depth, rfl, by decide⟩, fun depth fuel rest hfuel hrest => ?_⟩
  rw [hchars] at hfuel ⊢
  simp only [List.length_cons] at hfuel
  obtain ⟨fuel, rfl⟩ := Nat.exists_eq_add_of_le' (show 1 ≤ fuel by omega)
  rw [List.cons_append, value?, skip_cons rfl]
  rfl

theorem readsBack_bool (b : Bool) : ReadsBack l (.bool b) := by
  have htrue (depth : Nat) : chars l depth (.bool true) = ['t', 'r', 'u', 'e'] := by
    simp [chars, write]
  have hfalse (depth : Nat) : chars l depth (.bool false) = ['f', 'a', 'l', 's', 'e'] := by
    simp [chars, write]
  cases b with
  | true =>
    refine ⟨fun depth => ⟨'t', _, htrue depth, rfl, by decide⟩, fun depth fuel rest hfuel hrest => ?_⟩
    rw [htrue] at hfuel ⊢
    simp only [List.length_cons] at hfuel
    obtain ⟨fuel, rfl⟩ := Nat.exists_eq_add_of_le' (show 1 ≤ fuel by omega)
    rw [List.cons_append, value?, skip_cons rfl]
    rfl
  | false =>
    refine ⟨fun depth => ⟨'f', _, hfalse depth, rfl, by decide⟩, fun depth fuel rest hfuel hrest => ?_⟩
    rw [hfalse] at hfuel ⊢
    simp only [List.length_cons] at hfuel
    obtain ⟨fuel, rfl⟩ := Nat.exists_eq_add_of_le' (show 1 ≤ fuel by omega)
    rw [List.cons_append, value?, skip_cons rfl]
    rfl

theorem readsBack_number {n : Numeral} (hn : n.IsWellFormed) : ReadsBack l (.number n) := by
  have hchars (depth : Nat) : chars l depth (.number n) = n.chars := by simp [chars, write]
  obtain ⟨c, cs, hhead, hc⟩ : ∃ c cs, n.chars = c :: cs ∧ (c = '-' ∨ c.isDigit = true) := by
    obtain ⟨d, ds, hds⟩ := List.exists_cons_of_ne_nil hn.whole_ne_nil
    have hd : d.isDigit = true := hn.whole_isDigit d (hds ▸ List.mem_cons_self)
    unfold Numeral.chars
    rw [hds]
    cases n.negative with
    | true => exact ⟨'-', _, rfl, .inl rfl⟩
    | false => exact ⟨d, _, rfl, .inr hd⟩
  constructor
  · intro depth
    refine ⟨c, cs, (hchars depth).trans hhead, isBlank_of_head hc, ?_⟩
    rintro rfl
    exact absurd hc (by decide)
  · intro depth fuel rest hfuel hrest
    have hread := numeral?_append hn hrest
    rw [hchars, hhead] at hfuel ⊢
    rw [hhead, List.cons_append] at hread
    simp only [List.length_cons] at hfuel
    obtain ⟨fuel, rfl⟩ := Nat.exists_eq_add_of_le' (show 1 ≤ fuel by omega)
    rw [List.cons_append, value?_of_head _ _ hc, hread]
    rfl

theorem readsBack_string (t : String) : ReadsBack l (.string t) := by
  have hchars (depth : Nat) :
      chars l depth (.string t) = '"' :: (t.toList.flatMap escape ++ ['"']) := by
    simp [chars, write, quote]
  refine ⟨fun depth => ⟨'"', _, hchars depth, rfl, by decide⟩, fun depth fuel rest hfuel hrest => ?_⟩
  rw [hchars] at hfuel ⊢
  simp only [List.length_cons] at hfuel
  obtain ⟨fuel, rfl⟩ := Nat.exists_eq_add_of_le' (show 1 ≤ fuel by omega)
  rw [List.cons_append, List.append_assoc, List.cons_append, List.nil_append, value?_quote,
    string?_quoted]
  rfl

/-! ## Arrays -/

/-- What follows an item of an array. -/
theorem endsNumeral_itemChars {bs : List Char} (hbs : Blank bs) (depth : Nat) (js : List Json)
    (rest : List Char) : EndsNumeral (itemChars l depth js ++ (bs ++ ']' :: rest)) := by
  cases js with
  | nil => exact endsNumeral_append hbs (by simp) rest
  | cons j js => exact endsNumeral_append blank_nil (by simp) _

theorem moreItems?_append (hl : Spaces l) (depth : Nat) {js : List Json}
    (hjs : ∀ j ∈ js, ReadsBack l j) {bs : List Char} (hbs : Blank bs) (fuel : Nat) (rest : List Char)
    (hfuel : 2 * ((itemChars l depth js).length + bs.length + 1) ≤ fuel) :
    moreItems? fuel (itemChars l depth js ++ (bs ++ ']' :: rest)) = some (js, rest) := by
  induction js generalizing fuel with
  | nil =>
    obtain ⟨fuel, rfl⟩ := Nat.exists_eq_add_of_le' (show 1 ≤ fuel by omega)
    show moreItems? (fuel + 1) (bs ++ ']' :: rest) = _
    rw [moreItems?_blank hbs, moreItems?_close]
  | cons j js ih =>
    obtain ⟨fuel, rfl⟩ := Nat.exists_eq_add_of_le' (show 1 ≤ fuel by omega)
    have hsplit : itemChars l depth (j :: js) ++ (bs ++ ']' :: rest) = ',' :: ((l.gap depth).toList
        ++ (chars l depth j ++ (itemChars l depth js ++ (bs ++ ']' :: rest)))) := by
      simp [itemChars]
    have hlength : (itemChars l depth (j :: js)).length =
        1 + (l.gap depth).toList.length + (chars l depth j).length + (itemChars l depth js).length := by
      simp [itemChars]
      omega
    have hj := (hjs j List.mem_cons_self).reads depth fuel
      (itemChars l depth js ++ (bs ++ ']' :: rest)) (by omega) (endsNumeral_itemChars hbs depth js rest)
    have hmore := ih (fun i hi => hjs i (List.mem_cons_of_mem j hi)) fuel (by omega)
    rw [hsplit, moreItems?_comma, value?_blank (hl.gap depth), hj]
    dsimp only [Option.bind_eq_bind, Option.bind_some]
    rw [hmore]
    rfl

theorem readsBack_array (hl : Spaces l) {js : List Json} (hjs : ∀ j ∈ js, ReadsBack l j) :
    ReadsBack l (.array js) := by
  cases js with
  | nil =>
    have hchars (depth : Nat) : chars l depth (.array []) = ['[', ']'] := by simp [chars, write]
    refine ⟨fun depth => ⟨'[', _, hchars depth, rfl, by decide⟩, fun depth fuel rest hfuel hrest => ?_⟩
    rw [hchars] at hfuel ⊢
    simp only [List.length_cons] at hfuel
    obtain ⟨fuel, rfl⟩ := Nat.exists_eq_add_of_le' (show 2 ≤ fuel by omega)
    rw [List.cons_append, value?_bracket, List.cons_append, items?, skip_cons rfl]
    rfl
  | cons j js =>
    have hj := hjs j List.mem_cons_self
    refine ⟨fun depth => ⟨'[', _, chars_array l depth j js, rfl, by decide⟩,
      fun depth fuel rest hfuel hrest => ?_⟩
    obtain ⟨c, cs, hc, hblank, hne⟩ := hj.starts (depth + 1)
    rw [chars_array] at hfuel ⊢
    simp only [List.length_cons, List.length_append, List.length_nil] at hfuel
    obtain ⟨fuel, rfl⟩ := Nat.exists_eq_add_of_le' (show 2 ≤ fuel by omega)
    have hfirst := hj.reads (depth + 1) fuel
      (itemChars l (depth + 1) js ++ ((l.gap depth).toList ++ ']' :: rest)) (by omega)
      (endsNumeral_itemChars (hl.gap depth) (depth + 1) js rest)
    have hmore := moreItems?_append hl (depth + 1) (fun i hi => hjs i (List.mem_cons_of_mem j hi))
      (hl.gap depth) fuel rest (by omega)
    simp only [List.cons_append, List.append_assoc, List.nil_append]
    rw [value?_bracket, items?_blank (hl.gap (depth + 1))]
    rw [hc, List.cons_append] at hfirst ⊢
    rw [items?_of_head _ _ hblank hne, hfirst]
    dsimp only [Option.bind_eq_bind, Option.bind_some]
    rw [hmore]
    rfl

/-! ## Objects -/

/-- What follows a member of an object. -/
theorem endsNumeral_membersChars {bs : List Char} (hbs : Blank bs) (depth : Nat)
    (ms : List (String × Json)) (rest : List Char) :
    EndsNumeral (membersChars l depth ms ++ (bs ++ '\x7d' :: rest)) := by
  cases ms with
  | nil => exact endsNumeral_append hbs (by simp) rest
  | cons m ms => exact endsNumeral_append blank_nil (by simp) _

theorem length_memberChars (hl : Spaces l) (depth : Nat) (m : String × Json) :
    (chars l depth m.2).length + 3 ≤ (memberChars l depth m).length := by
  obtain ⟨bs, -, hcolon⟩ := hl.colon
  simp [memberChars, quote, hcolon]
  omega

theorem member?_append (hl : Spaces l) (depth : Nat) (half : Option Char) {m : String × Json}
    (hm : ReadsBack l m.2) (fuel : Nat) (rest : List Char)
    (hfuel : 2 * (memberChars l depth m).length ≤ fuel) (hrest : EndsNumeral rest) :
    member? fuel half (memberChars l depth m ++ rest) = some (m, rest) := by
  have hlength := length_memberChars hl depth m
  obtain ⟨fuel, rfl⟩ := Nat.exists_eq_add_of_le' (show 1 ≤ fuel by omega)
  rw [memberChars, List.append_assoc, List.append_assoc, member?_quoted _ _ _ hl,
    hm.reads depth fuel rest (by omega) hrest]
  rfl

theorem moreMembers?_append (hl : Spaces l) (depth : Nat) (half : Option Char)
    {ms : List (String × Json)} (hms : ∀ m ∈ ms, ReadsBack l m.2) {bs : List Char} (hbs : Blank bs)
    (fuel : Nat) (rest : List Char)
    (hfuel : 2 * ((membersChars l depth ms).length + bs.length + 1) ≤ fuel) :
    moreMembers? fuel half (membersChars l depth ms ++ (bs ++ '\x7d' :: rest)) = some (ms, rest) := by
  induction ms generalizing fuel with
  | nil =>
    obtain ⟨fuel, rfl⟩ := Nat.exists_eq_add_of_le' (show 1 ≤ fuel by omega)
    show moreMembers? (fuel + 1) half (bs ++ '\x7d' :: rest) = _
    rw [moreMembers?_blank hbs, moreMembers?_close]
  | cons m ms ih =>
    obtain ⟨fuel, rfl⟩ := Nat.exists_eq_add_of_le' (show 1 ≤ fuel by omega)
    have hsplit : membersChars l depth (m :: ms) ++ (bs ++ '\x7d' :: rest) = ','
        :: ((l.gap depth).toList
          ++ (memberChars l depth m ++ (membersChars l depth ms ++ (bs ++ '\x7d' :: rest)))) := by
      simp [membersChars]
    have hlength : (membersChars l depth (m :: ms)).length = 1 + (l.gap depth).toList.length
        + (memberChars l depth m).length + (membersChars l depth ms).length := by
      simp [membersChars]
      omega
    have hm := member?_append hl depth half (hms m List.mem_cons_self) fuel
      (membersChars l depth ms ++ (bs ++ '\x7d' :: rest)) (by omega)
      (endsNumeral_membersChars hbs depth ms rest)
    have hmore := ih (fun i hi => hms i (List.mem_cons_of_mem m hi)) fuel (by omega)
    rw [hsplit, moreMembers?_comma, member?_blank (hl.gap depth), hm]
    dsimp only [Option.bind_eq_bind, Option.bind_some]
    rw [hmore]
    rfl

/-- Behind its brace an object is read back member by member, whatever a lone half of a character is
    read as in keys. -/
theorem exists_members? (hl : Spaces l) (depth : Nat) (half : Option Char) {ms : List (String × Json)}
    (hms : ∀ m ∈ ms, ReadsBack l m.2) :
    ∃ body, chars l depth (.object ms) = '\x7b' :: body ∧
      ∀ (fuel : Nat) (rest : List Char), 2 * body.length ≤ fuel →
        members? fuel half (body ++ rest) = some (ms, rest) := by
  cases ms with
  | nil =>
    refine ⟨['\x7d'], by simp [chars, write], ?_⟩
    intro fuel rest hfuel
    simp only [List.length_singleton] at hfuel
    obtain ⟨fuel, rfl⟩ := Nat.exists_eq_add_of_le' (show 1 ≤ fuel by omega)
    rw [List.cons_append, members?, skip_cons rfl]
    rfl
  | cons m ms =>
    refine ⟨_, chars_object l depth m ms, ?_⟩
    intro fuel rest hfuel
    simp only [List.length_cons, List.length_append, List.length_nil] at hfuel
    obtain ⟨fuel, rfl⟩ := Nat.exists_eq_add_of_le' (show 1 ≤ fuel by omega)
    have hfirst := member?_append hl (depth + 1) half (hms m List.mem_cons_self) fuel
      (membersChars l (depth + 1) ms ++ ((l.gap depth).toList ++ '\x7d' :: rest)) (by omega)
      (endsNumeral_membersChars (hl.gap depth) (depth + 1) ms rest)
    have hlength := length_memberChars hl (depth + 1) m
    have hmore := moreMembers?_append hl (depth + 1) half
      (fun i hi => hms i (List.mem_cons_of_mem m hi)) (hl.gap depth) fuel rest (by omega)
    have hquote : ∃ cs, memberChars l (depth + 1) m = '"' :: cs := by
      simp [memberChars, quote]
    obtain ⟨cs, hquote⟩ := hquote
    simp only [List.append_assoc, List.cons_append, List.nil_append]
    rw [members?_blank (hl.gap (depth + 1))]
    rw [hquote, List.cons_append] at hfirst ⊢
    rw [members?_quote, hfirst]
    dsimp only [Option.bind_eq_bind, Option.bind_some]
    rw [hmore]
    rfl

theorem readsBack_object (hl : Spaces l) {ms : List (String × Json)}
    (hms : ∀ m ∈ ms, ReadsBack l m.2) : ReadsBack l (.object ms) := by
  constructor
  · intro depth
    obtain ⟨body, hbody, -⟩ := exists_members? hl depth none hms
    exact ⟨'\x7b', body, hbody, rfl, by decide⟩
  · intro depth fuel rest hfuel hrest
    obtain ⟨body, hbody, hread⟩ := exists_members? hl depth (some '\ufffd') hms
    rw [hbody, List.length_cons] at hfuel
    obtain ⟨fuel, rfl⟩ := Nat.exists_eq_add_of_le' (show 1 ≤ fuel by omega)
    rw [hbody, List.cons_append, value?_brace, hread fuel rest (by omega)]
    rfl

/-! ## Whole texts -/

end Reader

/-- A value all of whose numerals are well-formed. -/
inductive IsWellFormed : Json → Prop where
  | null : IsWellFormed .null
  | bool (b : Bool) : IsWellFormed (.bool b)
  | number {n : Numeral} (h : n.IsWellFormed) : IsWellFormed (.number n)
  | string (s : String) : IsWellFormed (.string s)
  | array {js : List Json} (h : ∀ j ∈ js, IsWellFormed j) : IsWellFormed (.array js)
  | object {ms : List (String × Json)} (h : ∀ m ∈ ms, IsWellFormed m.2) : IsWellFormed (.object ms)

namespace Reader

theorem readsBack {l : Layout} (hl : Spaces l) {j : Json} (hj : j.IsWellFormed) : ReadsBack l j := by
  induction hj with
  | null => exact readsBack_null
  | bool b => exact readsBack_bool b
  | number h => exact readsBack_number h
  | string s => exact readsBack_string s
  | array h ih => exact readsBack_array hl ih
  | object h ih => exact readsBack_object hl ih

theorem read?_write {l : Layout} (hl : Spaces l) {j : Json} (hj : j.IsWellFormed) :
    read? (write l 0 "" j) = some j := by
  have hread := (readsBack hl hj).reads 0 (2 * (chars l 0 j).length + 2) [] (by omega)
    (by rintro c ⟨⟩)
  rw [List.append_nil] at hread
  rw [read?, ← chars]
  simp only [hread]
  rfl

/-- **What is written over lines reads back.** -/
theorem read?_spread {j : Json} (hj : j.IsWellFormed) : read? j.spread = some j :=
  read?_write spaces_spread hj

/-- **What is written on one line reads back.** -/
theorem read?_compact {j : Json} (hj : j.IsWellFormed) : read? j.compact = some j :=
  read?_write spaces_compact hj

end Reader

end LSystem.Json
