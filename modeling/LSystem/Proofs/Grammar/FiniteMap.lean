import LSystem.Proofs.Run.History
import Mathlib.Data.List.Dedup
import Mathlib.Data.List.Induction
set_option autoImplicit false

/-! # A grammar is a finite map, however it is made

A table holds nothing but what its look-ups show, so tables that show the same are the same
(`ext_get?`). What a table made of pairs shows under a key is the value of the last pair with that key
(`lastValue?`). So it does not matter whether the pairs are stored one after the other, or are sorted
first and thinned out then (`collect`), nor in which order pairs with different keys come. -/

namespace LSystem

namespace Table

variable {κ β : Type}

/-! ## Lists of pairs -/

section Pairs

variable [DecidableEq κ]

/-- The value of the last pair with a key. -/
def lastValue? (pairs : List (κ × β)) (k : κ) : Option β :=
  ((pairs.filter (·.1 = k)).getLast?).map (·.2)

theorem lastValue?_append (pairs : List (κ × β)) (p : κ × β) (k : κ) :
    lastValue? (pairs ++ [p]) k = if p.1 = k then some p.2 else lastValue? pairs k := by
  by_cases hk : p.1 = k <;> simp [lastValue?, hk]

theorem lastValue?_cons (p : κ × β) (pairs : List (κ × β)) (k : κ) :
    lastValue? (p :: pairs) k =
      (lastValue? pairs k).or (if p.1 = k then some p.2 else none) := by
  by_cases hk : p.1 = k
  · cases hlast : (pairs.filter (·.1 = k)).getLast? <;>
      simp [lastValue?, hk, List.getLast?_cons, hlast]
  · simp [lastValue?, hk]

theorem isSome_lastValue?_iff {pairs : List (κ × β)} {k : κ} :
    (lastValue? pairs k).isSome ↔ k ∈ pairs.map (·.1) := by
  simp [lastValue?]

/-- Of neighbours with the same key the last one. -/
def lastOfEach : List (κ × β) → List (κ × β)
  | [] => []
  | [e] => [e]
  | e :: d :: es => if e.1 = d.1 then lastOfEach (d :: es) else e :: lastOfEach (d :: es)

theorem lastOfEach_subset (es : List (κ × β)) : lastOfEach es ⊆ es := by
  induction es using lastOfEach.induct with
  | case1 => exact List.Subset.refl _
  | case2 e => exact List.Subset.refl _
  | case3 e d es heq ih =>
    rw [lastOfEach, if_pos heq]
    exact List.subset_cons_of_subset e ih
  | case4 e d es hne ih =>
    rw [lastOfEach, if_neg hne]
    exact List.cons_subset_cons e ih

/-- To keep the last of neighbours with the same key loses no last value. -/
theorem lastValue?_lastOfEach (es : List (κ × β)) (k : κ) :
    lastValue? (lastOfEach es) k = lastValue? es k := by
  induction es using lastOfEach.induct with
  | case1 => rfl
  | case2 e => rfl
  | case3 e d es heq ih =>
    rw [lastOfEach, if_pos heq, ih, lastValue?_cons e, lastValue?_cons d, heq]
    by_cases hk : d.1 = k <;> cases lastValue? es k <;> simp [hk]
  | case4 e d es hne ih => rw [lastOfEach, if_neg hne, lastValue?_cons, ih, lastValue?_cons e]

end Pairs

variable [Ord κ]

/-! ## Sorting pairs -/

section Sorting

/-- Whether a pair may stand in front of another one. -/
def precedes (a b : κ × β) : Bool := (compare a.1 b.1).isLE

/-- The pairs in the order of their keys; those with the same key stay in their order. -/
def inOrder (pairs : List (κ × β)) : List (κ × β) := pairs.mergeSort precedes

variable [Std.TransOrd κ]

theorem precedes_trans (a b c : κ × β) (hab : precedes a b = true) (hbc : precedes b c = true) :
    precedes a c = true :=
  Std.TransCmp.isLE_trans hab hbc

theorem precedes_total (a b : κ × β) : (precedes a b || precedes b a) = true := by
  have hswap : compare a.1 b.1 = (compare b.1 a.1).swap := Std.OrientedCmp.eq_swap
  rw [precedes, precedes, hswap]
  cases compare b.1 a.1 <;> rfl

theorem inOrder_sorted (pairs : List (κ × β)) :
    (inOrder pairs).Pairwise fun a b => precedes a b = true :=
  List.pairwise_mergeSort precedes_trans precedes_total pairs

variable [DecidableEq κ]

/-- Sorting keeps the pairs with one key in their order. -/
theorem filter_inOrder (pairs : List (κ × β)) (k : κ) :
    (inOrder pairs).filter (·.1 = k) = pairs.filter (·.1 = k) := by
  have hsorted : (pairs.filter (·.1 = k)).Pairwise fun a b => precedes a b = true := by
    refine List.pairwise_of_forall_mem_list ?_
    intro a ha b hb
    have ha : a.1 = k := by simpa using (List.mem_filter.1 ha).2
    have hb : b.1 = k := by simpa using (List.mem_filter.1 hb).2
    rw [precedes, ha, hb, Std.ReflOrd.compare_self]
    rfl
  have hsub : (pairs.filter (·.1 = k)).Sublist (inOrder pairs) :=
    List.sublist_mergeSort precedes_trans precedes_total hsorted List.filter_sublist
  have hfilter := hsub.filter (·.1 = k)
  rw [List.filter_filter] at hfilter
  simp only [Bool.and_self] at hfilter
  exact (hfilter.eq_of_length ((List.mergeSort_perm pairs _).filter _).length_eq.symm).symm

theorem lastValue?_inOrder (pairs : List (κ × β)) (k : κ) :
    lastValue? (inOrder pairs) k = lastValue? pairs k := by
  rw [lastValue?, filter_inOrder, lastValue?]

/-- Of sorted pairs, the last ones of each key have increasing keys. -/
theorem lastOfEach_increasing [Std.LawfulEqOrd κ] {es : List (κ × β)}
    (h : es.Pairwise fun a b => precedes a b = true) :
    (lastOfEach es).Pairwise fun a b => compare a.1 b.1 = .lt := by
  induction es using lastOfEach.induct with
  | case1 => exact .nil
  | case2 e => exact List.pairwise_singleton _ _
  | case3 e d es heq ih =>
    rw [lastOfEach, if_pos heq]
    exact ih h.tail
  | case4 e d es hne ih =>
    rw [lastOfEach, if_neg hne]
    obtain ⟨hfirst, hrest⟩ := List.pairwise_cons.1 h
    refine List.pairwise_cons.2 ⟨?_, ih hrest⟩
    intro c hc
    -- the next key is greater, and no later one is less than that
    have hlt : compare e.1 d.1 = .lt := by
      have hle := Ordering.isLE_iff_eq_lt_or_eq_eq.1 (hfirst d List.mem_cons_self)
      exact hle.resolve_right fun heq => hne (Std.LawfulEqOrd.eq_of_compare heq)
    rcases List.mem_cons.1 (lastOfEach_subset _ hc) with rfl | hc
    · exact hlt
    · exact Std.TransCmp.lt_of_lt_of_isLE hlt ((List.pairwise_cons.1 hrest).1 c hc)

end Sorting

/-! ## What a table shows -/

variable [Std.TransOrd κ]

/-- Keys that increase are different. -/
theorem nodup_keys (t : Table κ β) : (t.entries.map (·.1)).Nodup := by
  rw [List.Nodup, List.pairwise_map]
  refine t.increasing.imp ?_
  intro a b hlt heq
  rw [heq, Std.ReflOrd.compare_self] at hlt
  cases hlt

variable [Std.LawfulEqOrd κ]

/-- Tables that show the same under every key are the same. -/
theorem ext_get? {s t : Table κ β} (h : ∀ k, s.get? k = t.get? k) : s = t := by
  have hmem : ∀ e, e ∈ s.entries ↔ e ∈ t.entries := by
    rintro ⟨k, v⟩
    rw [mem_entries_iff, mem_entries_iff, h]
  have hperm : s.entries.Perm t.entries :=
    (List.perm_ext_iff_of_nodup (.of_map _ s.nodup_keys) (.of_map _ t.nodup_keys)).2 hmem
  have hentries : s.entries = t.entries := by
    refine hperm.eq_of_pairwise ?_ s.increasing t.increasing
    intro a b _ _ hab hba
    have hgt : compare a.1 b.1 = .gt := Std.OrientedCmp.gt_of_lt hba
    rw [hab] at hgt
    cases hgt
  obtain ⟨entries, increasing⟩ := s
  obtain rfl : entries = t.entries := hentries
  rfl

/-- Tables are told apart by their look-ups. -/
theorem beq_iff_get? [BEq κ] [LawfulBEq κ] [BEq β] [LawfulBEq β] {s t : Table κ β} :
    (s == t) = true ↔ ∀ k, s.get? k = t.get? k := by
  have hentries : (s == t) = true ↔ s.entries = t.entries :=
    beq_iff_eq (a := s.entries) (b := t.entries)
  rw [hentries]
  constructor
  · intro h k
    rw [get?, h, get?]
  · intro h
    rw [ext_get? h]

variable [DecidableEq κ]

omit [Std.TransOrd κ] in
theorem get?_eq_lastValue? (t : Table κ β) (k : κ) : t.get? k = lastValue? t.entries k := by
  obtain ⟨entries, increasing⟩ := t
  show findEntry k entries = _
  induction entries with
  | nil => rfl
  | cons e es ih =>
    obtain ⟨hfirst, hes⟩ := List.pairwise_cons.1 increasing
    rw [findEntry, lastValue?_cons, ih hes]
    by_cases hk : k = e.1
    · subst hk
      -- no later entry has the key of this one
      have hnone : lastValue? es e.1 = none := by
        rw [← Option.not_isSome_iff_eq_none, isSome_lastValue?_iff, List.mem_map]
        rintro ⟨d, hd, hkey⟩
        have hlt := hfirst d hd
        rw [hkey, Std.ReflOrd.compare_self] at hlt
        cases hlt
      simp [hnone, Std.ReflOrd.compare_self]
    · have hne : compare k e.1 ≠ .eq := fun heq => hk (Std.LawfulEqOrd.eq_of_compare heq)
      simp [hne, Ne.symm hk]

/-! ## Pairs stored one after the other -/

omit [Std.LawfulEqOrd κ] [DecidableEq κ] in
theorem ofList_append (pairs : List (κ × β)) (p : κ × β) :
    ofList (pairs ++ [p]) = (ofList pairs).insert p.1 p.2 := by
  simp only [ofList, List.foldl_append, List.foldl_cons, List.foldl_nil]

/-- A table made of pairs shows the value of the last pair with the key. -/
theorem get?_ofList (pairs : List (κ × β)) (k : κ) : (ofList pairs).get? k = lastValue? pairs k := by
  induction pairs using List.reverseRecOn with
  | nil => rfl
  | append_singleton pairs p ih =>
    rw [ofList_append, get?_insert, lastValue?_append, ih]
    by_cases hk : p.1 = k
    · rw [hk, Std.ReflOrd.compare_self, if_pos rfl, if_pos rfl]
    · have hne : compare k p.1 ≠ .eq := fun heq => hk (Std.LawfulEqOrd.eq_of_compare heq).symm
      rw [if_neg hne, if_neg hk]

/-- Its keys are the keys of the pairs. -/
theorem mem_keys_ofList {pairs : List (κ × β)} {k : κ} :
    k ∈ (ofList pairs).entries.map (·.1) ↔ k ∈ pairs.map (·.1) := by
  rw [← isSome_lastValue?_iff, ← isSome_lastValue?_iff, ← get?_eq_lastValue?, get?_ofList]

/-- It has one entry for each different key. -/
theorem size_ofList (pairs : List (κ × β)) :
    (ofList pairs).size = (pairs.map (·.1)).dedup.length := by
  have hperm : ((ofList pairs).entries.map (·.1)).Perm (pairs.map (·.1)).dedup := by
    refine (List.perm_ext_iff_of_nodup (nodup_keys _) (List.nodup_dedup _)).2 ?_
    intro k
    rw [List.mem_dedup, mem_keys_ofList]
  rw [size, ← hperm.length_eq, List.length_map]

theorem isEmpty_ofList {pairs : List (κ × β)} : (ofList pairs).isEmpty = true ↔ pairs = [] := by
  rw [isEmpty, List.isEmpty_iff]
  constructor
  · intro hnil
    rw [List.eq_nil_iff_forall_not_mem]
    intro p hp
    have hkey := mem_keys_ofList.2 (List.mem_map_of_mem (f := (·.1)) hp)
    rw [hnil] at hkey
    cases hkey
  · rintro rfl
    rfl

/-- The order of pairs matters only among those with the same key. -/
theorem ofList_eq_of_filter_eq {pairs pairs' : List (κ × β)}
    (h : ∀ k, pairs'.filter (·.1 = k) = pairs.filter (·.1 = k)) : ofList pairs' = ofList pairs := by
  refine ext_get? ?_
  intro k
  rw [get?_ofList, get?_ofList, lastValue?, h, lastValue?]

/-! ## Pairs sorted first -/

/-- The table made of pairs at once: they are sorted, and of those with the same key the last is kept. -/
def collect (pairs : List (κ × β)) : Table κ β :=
  ⟨lastOfEach (inOrder pairs), lastOfEach_increasing (inOrder_sorted pairs)⟩

/-- A table is the same whether it is made pair by pair or at once. -/
theorem collect_eq_ofList (pairs : List (κ × β)) : collect pairs = ofList pairs := by
  refine ext_get? ?_
  intro k
  rw [get?_eq_lastValue?, get?_ofList, collect, lastValue?_lastOfEach, lastValue?_inOrder]

end Table

/-! ## Grammars -/

/-- **A grammar is a finite map, however it is made.** Storing productions one after the other and
    collecting them at once give the same grammar. It shows the last production of each symbol and has an
    entry for each symbol that has one, in the order of the symbols; grammars are equal when they show the
    same. So the productions may be given in any order that keeps the order among those of one symbol:
    neither the grammar nor what is rewritten nor any run depends on it. -/
theorem Grammar.finite_map_law (productions : List (Symbol × Word)) :
    let stored : Grammar := productions.foldl (fun g p => g.insert p.1 p.2) .empty
    Table.collect productions = stored ∧ Table.ofList productions = stored ∧
    (∀ c, stored.get? c = Table.lastValue? productions c) ∧
    stored.size = (productions.map (·.1)).dedup.length ∧
    (stored.isEmpty = true ↔ productions = []) ∧
    stored.toList.Pairwise (fun a b => a.1 < b.1) ∧
    (∀ c w, (c, w) ∈ stored.toList ↔ Table.lastValue? productions c = some w) ∧
    (∀ g h : Grammar, (g == h) = true ↔ ∀ c, g.get? c = h.get? c) ∧
    ∀ others : List (Symbol × Word),
      (∀ c, others.filter (·.1 = c) = productions.filter (·.1 = c)) →
      Table.ofList others = stored ∧
      (∀ w, Grammar.rewrite (.ofList others) w = stored.rewrite w) ∧
      ∀ (initiator : Word) (angle : Float) (ops : List Operation),
        (Run.start ⟨initiator, .ofList others, angle⟩).afterAll ops =
          (Run.start ⟨initiator, stored, angle⟩).afterAll ops := by
  intro stored
  have hstored : Table.ofList productions = stored := rfl
  refine ⟨Table.collect_eq_ofList productions, hstored, ?_, ?_, ?_, ?_, ?_, ?_, ?_⟩
  · exact Table.get?_ofList productions
  · exact Table.size_ofList productions
  · exact Table.isEmpty_ofList
  · refine stored.increasing.imp ?_
    intro a b hlt
    exact compareOfLessAndEq_eq_lt.1 hlt
  · intro c w
    rw [← Table.get?_ofList]
    exact Table.mem_entries_iff stored c w
  · intro g h
    exact Table.beq_iff_get?
  · intro others hothers
    have heq : Table.ofList others = stored := Table.ofList_eq_of_filter_eq hothers
    refine ⟨heq, ?_, ?_⟩
    · intro w
      rw [heq]
    · intro initiator angle ops
      rw [heq]

example : (Table.collect [('B', "x".toList), ('A', "y".toList), ('B', "z".toList)]).toList =
    [('A', ['y']), ('B', ['z'])] := by
  rw [Table.collect_eq_ofList]
  rfl

end LSystem
