import LSystem.Definition
import Mathlib.Data.String.Basic
import Mathlib.Order.Bounds.Basic
set_option autoImplicit false

/-! # What a name stands for

A name that a library defines stands for what its first definition says, even where that says nothing
sensible; only a name that is not defined at all is looked up in the catalogue. A definition says something
sensible when each of its keys is one character. The keys are tried in the order of the table, which is that
of the code points, so the key that is reported is the least one that is no character (`strayKeys`); and as
different keys are different symbols, no rule is lost on the way to the grammar (`StandsFor`). -/

namespace LSystem

namespace Definition

/-! ## Keys -/

theorem keySymbol?_eq_some_iff {key : String} {c : Symbol} :
    keySymbol? key = some c ↔ key = String.singleton c := by
  unfold keySymbol?
  constructor
  · intro h
    split at h
    · next heq =>
      obtain rfl := Option.some.inj h
      apply String.toList_injective
      simpa using heq
    · cases h
  · rintro rfl
    simp

/-- The keys of a definition that are not one character. -/
def strayKeys (d : Definition) : Set String :=
  {key | (d.rules.get? key).isSome ∧ ∀ c, key ≠ String.singleton c}

theorem mem_strayKeys_iff {d : Definition} {key : String} :
    key ∈ d.strayKeys ↔ (∃ replacement, (key, replacement) ∈ d.rules.entries) ∧
      keySymbol? key = none := by
  have hnone : keySymbol? key = none ↔ ∀ c, key ≠ String.singleton c := by
    rw [Option.eq_none_iff_forall_ne_some]
    exact forall_congr' fun c => not_congr keySymbol?_eq_some_iff
  rw [hnone]
  simp only [Table.mem_entries_iff]
  rw [← Option.isSome_iff_exists]
  rfl

/-! ## Rules -/

/-- Rules whose keys are symbols all become productions. None takes the place of another, and what was
    there before stays. -/
theorem addRules_of_symbols (name : String) {rules : List (String × String)} (g : Grammar)
    (hkeys : ∀ r ∈ rules, ∃ c, keySymbol? r.1 = some c)
    (hincreasing : rules.Pairwise fun a b => compare a.1 b.1 = .lt)
    (hnew : ∀ r ∈ rules, ∀ c, keySymbol? r.1 = some c → g.get? c = none) :
    ∃ g', addRules name g rules = .ok g' ∧ g'.size = g.size + rules.length ∧ ∀ c, g'.get? c =
      ((Table.findEntry (String.singleton c) rules).map String.toList).or (g.get? c) := by
  induction rules generalizing g with
  | nil => exact ⟨g, rfl, rfl, fun c => by simp [Table.findEntry]⟩
  | cons r rules ih =>
    obtain ⟨key, replacement⟩ := r
    obtain ⟨c, hc⟩ := hkeys _ List.mem_cons_self
    obtain ⟨hfirst, hrest⟩ := List.pairwise_cons.1 hincreasing
    obtain rfl := keySymbol?_eq_some_iff.1 hc
    have hlater : Table.findEntry (String.singleton c) rules = none := Table.findEntry_eq_none hfirst
    have hfresh : ∀ r ∈ rules, ∀ x, keySymbol? r.1 = some x →
        (g.insert c replacement.toList).get? x = none := by
      intro r hr x hx
      have hne : x ≠ c := by
        rintro rfl
        have hlt := hfirst r hr
        rw [keySymbol?_eq_some_iff.1 hx] at hlt
        simp at hlt
      rw [Table.get?_insert, if_neg (by simpa using hne)]
      exact hnew r (List.mem_cons_of_mem _ hr) x hx
    obtain ⟨g', hg', hsize, hget⟩ := ih (g.insert c replacement.toList)
      (fun r hr => hkeys r (List.mem_cons_of_mem _ hr)) hrest hfresh
    refine ⟨g', ?_, ?_, ?_⟩
    · rw [addRules, hc]
      exact hg'
    · have hnone : g.get? c = none := hnew _ List.mem_cons_self c hc
      rw [hsize, Table.size_insert, hnone, List.length_cons]
      simp
      omega
    · intro x
      rw [hget, Table.get?_insert, Table.findEntry]
      by_cases hx : x = c
      · subst hx
        simp [hlater]
      · have hne : String.singleton x ≠ String.singleton c := by
          intro heq
          exact hx (String.singleton_inj.1 heq)
        simp [hx, hne]

/-- Rules are refused for the first of them whose key is no symbol. -/
theorem addRules_of_stray (name : String) {earlier later : List (String × String)} (g : Grammar)
    {key replacement : String} (hkeys : ∀ r ∈ earlier, ∃ c, keySymbol? r.1 = some c)
    (hstray : keySymbol? key = none) :
    addRules name g (earlier ++ (key, replacement) :: later) = .error (.invalidKey name key) := by
  induction earlier generalizing g with
  | nil => rw [List.nil_append, addRules, hstray]
  | cons r earlier ih =>
    obtain ⟨c, hc⟩ := hkeys r List.mem_cons_self
    rw [List.cons_append, addRules, hc]
    exact ih _ fun e he => hkeys e (List.mem_cons_of_mem r he)

/-! ## Systems -/

/-- A definition stands for a system: rule for rule its productions, and the same initiator and angle. -/
structure StandsFor (d : Definition) (s : System) : Prop where
  initiator : s.initiator = d.initiator.toList
  angle : s.angle = Binary64.radians d.degrees
  production (c : Symbol) :
    s.grammar.get? c = (d.rules.get? (String.singleton c)).map String.toList
  size : s.grammar.size = d.rules.size

theorem system_of_strayKeys_eq_empty {d : Definition} (h : d.strayKeys = ∅) :
    ∃ s, d.system = .ok s ∧ d.StandsFor s := by
  have hkeys : ∀ r ∈ d.rules.entries, ∃ c, keySymbol? r.1 = some c := by
    intro r hr
    rw [← Option.ne_none_iff_exists']
    intro hstray
    have hmem : r.1 ∈ d.strayKeys := mem_strayKeys_iff.2 ⟨⟨r.2, hr⟩, hstray⟩
    rw [h] at hmem
    exact hmem
  obtain ⟨g, hg, hsize, hget⟩ := addRules_of_symbols d.name .empty hkeys d.rules.increasing
    fun _ _ _ _ => rfl
  refine ⟨⟨d.initiator.toList, g, Binary64.radians d.degrees⟩, ?_, ⟨rfl, rfl, ?_, ?_⟩⟩
  · have hg' : addRules d.name .empty d.rules.toList = .ok g := hg
    rw [system, hg']
    rfl
  · intro c
    rw [hget, Table.get?_empty, Option.or_none]
    rfl
  · exact hsize.trans (Nat.zero_add _)

/-- Of the keys that are no symbols the least one is reported, as it comes first in the table. -/
theorem system_of_strayKeys_nonempty {d : Definition} (h : d.strayKeys.Nonempty) :
    ∃ key, IsLeast d.strayKeys key ∧ d.system = .error (.invalidKey d.name key) := by
  obtain ⟨stray, hstray⟩ := h
  obtain ⟨⟨value, hvalue⟩, hnone⟩ := mem_strayKeys_iff.1 hstray
  cases hfind : d.rules.entries.find? fun r => (keySymbol? r.1).isNone with
  | none =>
    have hsymbol := List.find?_eq_none.1 hfind _ hvalue
    simp [hnone] at hsymbol
  | some r =>
    obtain ⟨key, replacement⟩ := r
    obtain ⟨hkey, earlier, later, hsplit, hearlier⟩ := List.find?_eq_some_iff_append.1 hfind
    have hkey : keySymbol? key = none := by simpa using hkey
    have hkeys : ∀ r ∈ earlier, ∃ c, keySymbol? r.1 = some c := by
      intro r hr
      simpa [Option.isSome_iff_exists] using hearlier r hr
    have hincreasing := d.rules.increasing
    rw [hsplit, List.pairwise_append, List.pairwise_cons] at hincreasing
    obtain ⟨-, ⟨hlater, -⟩, -⟩ := hincreasing
    refine ⟨key, ⟨mem_strayKeys_iff.2 ⟨⟨replacement, by simp [hsplit]⟩, hkey⟩, ?_⟩, ?_⟩
    · intro other hother
      obtain ⟨⟨value, hmem⟩, hnone⟩ := mem_strayKeys_iff.1 hother
      rw [hsplit, List.mem_append, List.mem_cons] at hmem
      rcases hmem with hmem | heq | hmem
      · obtain ⟨c, hc⟩ := hkeys _ hmem
        rw [hnone] at hc
        cases hc
      · exact (congrArg Prod.fst heq).ge
      · exact (compare_lt_iff_lt.1 (hlater _ hmem)).le
    · have hrules : addRules d.name .empty d.rules.toList = .error (.invalidKey d.name key) := by
        show addRules d.name .empty d.rules.entries = _
        rw [hsplit]
        exact addRules_of_stray d.name .empty hkeys hkey
      rw [system, hrules]
      rfl

end Definition

namespace Library

/-! ## Names -/

/-- The definition is the first one of the name. -/
def First (library : Library) (name : String) (d : Definition) : Prop :=
  ∃ earlier later, library = earlier ++ d :: later ∧ d.name = name ∧ ∀ e ∈ earlier, e.name ≠ name

theorem first_iff {library : Library} {name : String} {d : Definition} :
    library.First name d ↔ library.named? name = some d := by
  unfold First named?
  rw [List.find?_eq_some_iff_append]
  simp only [beq_iff_eq, Bool.not_eq_true', beq_eq_false_iff_ne]
  constructor
  · rintro ⟨earlier, later, hsplit, hname, hearlier⟩
    exact ⟨hname, earlier, later, hsplit, hearlier⟩
  · rintro ⟨hname, earlier, later, hsplit, hearlier⟩
    exact ⟨earlier, later, hsplit, hname, hearlier⟩

theorem resolve_of_first {library : Library} {name : String} {d : Definition}
    (h : library.First name d) : library.resolve name = d.system := by
  rw [resolve, first_iff.1 h]

theorem named?_eq_none {library : Library} {name : String} (h : ∀ d ∈ library, d.name ≠ name) :
    library.named? name = none := by
  unfold named?
  rw [List.find?_eq_none]
  intro d hd
  simpa using h d hd

/-- A preset is found by its name, which no other preset has. -/
theorem named?_preset {p : Preset} (h : p ∈ catalogue) : Preset.named? p.name = some p := by
  simp only [catalogue, List.mem_cons, List.not_mem_nil, or_false] at h
  rcases h with rfl | rfl | rfl | rfl | rfl | rfl | rfl <;> rfl

/-- What a library makes of a name depends on nothing but its definitions of that name. -/
theorem resolve_filter (library : Library) (name : String) :
    resolve (library.filter (·.name == name)) name = library.resolve name := by
  have hfind : named? (library.filter (·.name == name)) name = library.named? name := by
    unfold named?
    rw [List.find?_filter]
    congr 1
    funext d
    by_cases hd : d.name = name <;> simp [hd]
  rw [resolve, hfind, resolve]

/-- **What a name stands for.** The first definition of the name decides alone: it stands for a system or
    is refused for the least of its keys that are not one character. Without a definition the preset of the
    name counts, if there is one. Definitions of other names have no part in this. -/
theorem resolve_law (library : Library) (name : String) :
    ((∃ d ∈ library, d.name = name) → ∃ d, library.First name d) ∧
    (∀ d, library.First name d →
      ((∃ s, library.resolve name = .ok s) ↔ d.strayKeys = ∅) ∧
      (∀ s, library.resolve name = .ok s → d.StandsFor s) ∧
      (d.strayKeys.Nonempty →
        ∃ key, IsLeast d.strayKeys key ∧ library.resolve name = .error (.invalidKey name key))) ∧
    ((∀ d ∈ library, d.name ≠ name) →
      (∀ p ∈ catalogue, p.name = name → library.resolve name = .ok p.system) ∧
      ((∀ p ∈ catalogue, p.name ≠ name) → library.resolve name = .error (.unknownSystem name))) ∧
    ∀ library' : Library, library'.filter (·.name == name) = library.filter (·.name == name) →
      library'.resolve name = library.resolve name := by
  refine ⟨?_, ?_, ?_, ?_⟩
  · rintro ⟨d, hd, hname⟩
    cases hfirst : library.named? name with
    | some first => exact ⟨first, first_iff.2 hfirst⟩
    | none =>
      unfold named? at hfirst
      have hother := List.find?_eq_none.1 hfirst d hd
      simp [hname] at hother
  · intro d hd
    have hresolve := resolve_of_first hd
    obtain ⟨-, -, -, rfl, -⟩ := id hd
    rw [hresolve]
    rcases d.strayKeys.eq_empty_or_nonempty with hempty | hstray
    · obtain ⟨s, hs, hstands⟩ := Definition.system_of_strayKeys_eq_empty hempty
      refine ⟨⟨fun _ => hempty, fun _ => ⟨s, hs⟩⟩, ?_, ?_⟩
      · intro s' hs'
        rw [hs] at hs'
        obtain rfl := Except.ok.inj hs'
        exact hstands
      · rintro ⟨key, hkey⟩
        rw [hempty] at hkey
        exact absurd hkey id
    · obtain ⟨key, hleast, herror⟩ := Definition.system_of_strayKeys_nonempty hstray
      refine ⟨⟨?_, ?_⟩, ?_, fun _ => ⟨key, hleast, herror⟩⟩
      · rintro ⟨s, hs⟩
        rw [herror] at hs
        cases hs
      · intro hempty
        exact absurd hempty hstray.ne_empty
      · intro s hs
        rw [herror] at hs
        cases hs
  · intro hother
    rw [resolve, named?_eq_none hother]
    refine ⟨?_, ?_⟩
    · rintro p hp rfl
      rw [named?_preset hp]
    · intro hnone
      have hpreset : Preset.named? name = none := by
        unfold Preset.named?
        rw [List.find?_eq_none]
        intro p hp
        simpa using hnone p hp
      rw [hpreset]
  · intro library' h
    rw [← resolve_filter library', h, resolve_filter]

example :
    resolve [⟨"dragon", "A", .ofList [("BA", "A"), ("AB", "B"), ("A", "B")], 90⟩] "dragon" =
      .error (.invalidKey "dragon" "AB") := by
  rfl

end Library

end LSystem
