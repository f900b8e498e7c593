set_option autoImplicit false

/-! # Tables: finite maps kept in the order of their keys

A table is a list of entries whose keys strictly increase. The order is part of the type, so a key
has at most one entry, the entries of a table are already sorted when they are printed, and a table
holds nothing but what its look-ups show. `insert` either overwrites the entry of a key or opens a
place for it; `get?_insert` is the one equation about it that later modules use. -/

namespace LSystem

/-- A finite map as a list of entries with strictly increasing keys. -/
structure Table (κ β : Type) [Ord κ] where
  entries : List (κ × β)
  increasing : entries.Pairwise fun a b => compare a.1 b.1 = .lt
  deriving DecidableEq

namespace Table

variable {κ β : Type} [Ord κ]

/-! ## Entries -/

/-- Write `v` under `k`, keeping the entries in order. -/
def insertEntry (k : κ) (v : β) : List (κ × β) → List (κ × β)
  | [] => [(k, v)]
  | e :: es =>
    match compare k e.1 with
    | .lt => (k, v) :: e :: es
    | .eq => (k, v) :: es
    | .gt => e :: insertEntry k v es

/-- The value of the first entry whose key compares equal to `k`. -/
def findEntry (k : κ) : List (κ × β) → Option β
  | [] => none
  | e :: es => if compare k e.1 = .eq then some e.2 else findEntry k es

theorem mem_insertEntry {k : κ} {v : β} {es : List (κ × β)} {e : κ × β}
    (h : e ∈ insertEntry k v es) : e = (k, v) ∨ e ∈ es := by
  induction es with
  | nil => simpa [insertEntry] using h
  | cons d ds ih =>
    unfold insertEntry at h
    cases hc : compare k d.1 <;> simp only [hc, List.mem_cons] at h
    · simpa [List.mem_cons] using h
    · rcases h with h | h
      · exact .inl h
      · exact .inr (List.mem_cons_of_mem _ h)
    · rcases h with h | h
      · exact .inr (h ▸ List.mem_cons_self)
      · exact (ih h).imp_right (List.mem_cons_of_mem _)

theorem insertEntry_increasing [Std.TransOrd κ] (k : κ) (v : β) (es : List (κ × β))
    (h : es.Pairwise fun a b => compare a.1 b.1 = .lt) :
    (insertEntry k v es).Pairwise fun a b => compare a.1 b.1 = .lt := by
  induction es with
  | nil => simp [insertEntry]
  | cons d ds ih =>
    obtain ⟨hd, hds⟩ := List.pairwise_cons.1 h
    unfold insertEntry
    cases hc : compare k d.1 with
    | lt =>
      refine List.pairwise_cons.2 ⟨fun e he => ?_, h⟩
      rcases List.mem_cons.1 he with rfl | he
      · exact hc
      · exact Std.TransCmp.lt_trans hc (hd e he)
    | eq =>
      exact List.pairwise_cons.2 ⟨fun e he => Std.TransCmp.lt_of_eq_of_lt hc (hd e he), hds⟩
    | gt =>
      refine List.pairwise_cons.2 ⟨fun e he => ?_, ih hds⟩
      rcases mem_insertEntry he with rfl | he
      · exact Std.OrientedCmp.lt_of_gt hc
      · exact hd e he

theorem findEntry_insertEntry [Std.TransOrd κ] (j k : κ) (v : β) (es : List (κ × β)) :
    findEntry j (insertEntry k v es)
      = if compare j k = .eq then some v else findEntry j es := by
  induction es with
  | nil => simp [insertEntry, findEntry]
  | cons d ds ih =>
    unfold insertEntry
    cases hc : compare k d.1 with
    | lt => simp [findEntry]
    | eq =>
      simp only [findEntry]
      by_cases hj : compare j k = .eq
      · simp [hj]
      · rw [Std.TransCmp.congr_right hc] at hj
        simp [hj, Std.TransCmp.congr_right hc]
    | gt =>
      simp only [findEntry, ih]
      by_cases hj : compare j d.1 = .eq
      · have hk : compare j k ≠ .eq := by
          intro h
          rw [Std.TransCmp.congr_left (Std.OrientedCmp.eq_symm h), hj] at hc
          cases hc
        simp [hj, hk]
      · simp [hj]

/-- A key in front of all others has no entry. -/
theorem findEntry_eq_none {k : κ} {es : List (κ × β)} (h : ∀ e ∈ es, compare k e.1 = .lt) :
    findEntry k es = none := by
  induction es with
  | nil => rfl
  | cons d ds ih =>
    have hd := h d List.mem_cons_self
    rw [findEntry, if_neg (by simp [hd])]
    exact ih fun e he => h e (List.mem_cons_of_mem d he)

theorem length_insertEntry [Std.TransOrd κ] (k : κ) (v : β) (es : List (κ × β))
    (h : es.Pairwise fun a b => compare a.1 b.1 = .lt) :
    (insertEntry k v es).length
      = if (findEntry k es).isSome then es.length else es.length + 1 := by
  induction es with
  | nil => simp [insertEntry, findEntry]
  | cons d ds ih =>
    obtain ⟨hd, hds⟩ := List.pairwise_cons.1 h
    unfold insertEntry
    cases hc : compare k d.1 with
    | lt =>
      have hlater : findEntry k ds = none := by
        refine findEntry_eq_none ?_
        intro e he
        exact Std.TransCmp.lt_trans hc (hd e he)
      simp [findEntry, hc, hlater]
    | eq => simp [findEntry, hc]
    | gt =>
      simp only [List.length_cons, ih hds, findEntry, hc]
      by_cases hk : (findEntry k ds).isSome <;> simp [hk]

/-! ## Operations -/

/-- The table without entries. -/
def empty : Table κ β := ⟨[], .nil⟩

instance : Inhabited (Table κ β) := ⟨empty⟩

/-- The value stored under a key. -/
def get? (t : Table κ β) (k : κ) : Option β := findEntry k t.entries

/-- Store a value under a key, in place of an earlier one. -/
def insert [Std.TransOrd κ] (t : Table κ β) (k : κ) (v : β) : Table κ β :=
  ⟨insertEntry k v t.entries, insertEntry_increasing k v t.entries t.increasing⟩

/-- The table of a list of pairs, of which the last one with a key counts. -/
def ofList [Std.TransOrd κ] (pairs : List (κ × β)) : Table κ β :=
  pairs.foldl (fun t p => t.insert p.1 p.2) empty

/-- The entries, in the order of their keys. -/
def toList (t : Table κ β) : List (κ × β) := t.entries

/-- The number of keys. -/
def size (t : Table κ β) : Nat := t.entries.length

/-- Whether there is no key. -/
def isEmpty (t : Table κ β) : Bool := t.entries.isEmpty

instance [BEq κ] [BEq β] : BEq (Table κ β) := ⟨fun s t => s.entries == t.entries⟩

@[simp] theorem get?_empty (k : κ) : (empty : Table κ β).get? k = none := rfl

/-- Look-up after `insert`: the new value under its key, the old values elsewhere. -/
theorem get?_insert [Std.TransOrd κ] (t : Table κ β) (j k : κ) (v : β) :
    (t.insert k v).get? j = if compare j k = .eq then some v else t.get? j :=
  findEntry_insertEntry j k v t.entries

/-- A key that had no entry adds one. -/
theorem size_insert [Std.TransOrd κ] (t : Table κ β) (k : κ) (v : β) :
    (t.insert k v).size = if (t.get? k).isSome then t.size else t.size + 1 :=
  length_insertEntry k v t.entries t.increasing

/-- The entries of a table are what its look-ups show. -/
theorem mem_entries_iff [Std.TransOrd κ] [Std.LawfulEqOrd κ] (t : Table κ β) (k : κ) (v : β) :
    (k, v) ∈ t.entries ↔ t.get? k = some v := by
  obtain ⟨entries, increasing⟩ := t
  show _ ↔ findEntry k entries = some v
  induction entries with
  | nil => simp [findEntry]
  | cons e es ih =>
    obtain ⟨hfirst, hes⟩ := List.pairwise_cons.1 increasing
    rw [findEntry, List.mem_cons]
    by_cases hk : compare k e.1 = .eq
    · obtain rfl : k = e.1 := Std.LawfulEqOrd.eq_of_compare hk
      rw [if_pos hk]
      constructor
      · rintro (heq | hmem)
        · rw [← heq]
        · -- no later entry has the key of this one
          have hlt := hfirst _ hmem
          rw [hk] at hlt
          cases hlt
      · intro hv
        exact .inl (Prod.ext rfl (Option.some.inj hv).symm)
    · rw [if_neg hk, ← ih hes]
      refine or_iff_right ?_
      intro heq
      rw [← heq] at hk
      exact hk Std.ReflOrd.compare_self

end Table

end LSystem
