import LSystem.Proofs.Workspace.Writing
import Mathlib.Data.List.Basic
set_option autoImplicit false

/-! # Where paths lead

A path that leads somewhere leads to a place that can be read off the path, whatever else the workspace
holds (`location_of_find?`). A path behind a folder leads on from there, and what it may run into is the
way up: as long as it does not go further up than it has come down, it stays under the folder
(`foldl_go_append`). A path that is absolute or goes further up has that as its last name for good
(`getLast?_foldl_go`). So there is one condition for all folders: a path stays under the folder that it is
put behind, be it any, exactly if it stays under the working directory (`isInside_iff_forall_isUnder`). -/

namespace LSystem

/-! ## Segments -/

namespace Path

/-- A slash ends a segment. -/
theorem split_append_slash (as bs : List Char) : split (as ++ '/' :: bs) = split as ++ split bs := by
  induction as with
  | nil =>
    obtain ⟨part, parts, hbs⟩ := List.exists_cons_of_ne_nil (split_ne_nil bs)
    simp [split, hbs]
  | cons c as ih =>
    obtain ⟨part, parts, has⟩ := List.exists_cons_of_ne_nil (split_ne_nil as)
    rw [List.cons_append, split, split, ih, has]
    by_cases hc : c = '/'
    · simp [hc]
    · simp [hc]

/-- What has no slash goes to the last segment. -/
theorem exists_split_append (as : List Char) {bs : List Char} (h : '/' ∉ bs) :
    ∃ parts last, split as = parts ++ [last] ∧ split (as ++ bs) = parts ++ [last ++ bs] := by
  induction as with
  | nil =>
    refine ⟨[], [], rfl, ?_⟩
    induction bs with
    | nil => rfl
    | cons b bs ih =>
      rw [List.mem_cons, not_or] at h
      have hbs : split bs = [bs] := by simpa using ih h.2
      simp [split, hbs, Ne.symm h.1]
  | cons c as ih =>
    obtain ⟨parts, last, has, hboth⟩ := ih
    rw [List.cons_append, split, split, has, hboth]
    cases parts with
    | nil =>
      by_cases hc : c = '/'
      · exact ⟨[[]], last, by simp [hc], by simp [hc]⟩
      · exact ⟨[], c :: last, by simp [hc], by simp [hc]⟩
    | cons part parts =>
      by_cases hc : c = '/'
      · exact ⟨[] :: part :: parts, last, by simp [hc], by simp [hc]⟩
      · exact ⟨(c :: part) :: parts, last, by simp [hc], by simp [hc]⟩

theorem split_of_no_slash {cs : List Char} (h : '/' ∉ cs) : split cs = [cs] := by
  obtain ⟨parts, last, hnil, hcs⟩ := exists_split_append [] h
  obtain ⟨rfl, rfl⟩ : parts = [] ∧ last = [] := by
    simpa using List.append_eq_singleton_iff.1 hnil.symm
  exact hcs

theorem no_slash_of_mem_split {cs part : List Char} (h : part ∈ split cs) : '/' ∉ part := by
  induction cs generalizing part with
  | nil =>
    obtain rfl : part = [] := by simpa [split] using h
    exact List.not_mem_nil
  | cons c cs ih =>
    obtain ⟨first, parts, hcs⟩ := List.exists_cons_of_ne_nil (split_ne_nil cs)
    have hfirst : '/' ∉ first := ih (hcs ▸ List.mem_cons_self)
    have hparts : ∀ q ∈ parts, '/' ∉ q := fun q hq => ih (hcs ▸ List.mem_cons_of_mem _ hq)
    rw [split, hcs] at h
    by_cases hc : c = '/'
    · simp only [hc, if_true, List.mem_cons] at h
      rcases h with rfl | rfl | h
      · exact List.not_mem_nil
      · exact hfirst
      · exact hparts _ h
    · simp only [hc, if_false, List.mem_cons] at h
      rcases h with rfl | h
      · simp [Ne.symm hc, hfirst]
      · exact hparts _ h

/-- The root is no segment. -/
theorem root_not_mem_segments (p : Path) : "/" ∉ p.segments := by
  intro h
  obtain ⟨part, hpart, heq⟩ := List.mem_map.1 h
  have hslash : part = ['/'] := by simpa using congrArg String.toList heq
  exact no_slash_of_mem_split hpart (by simp [hslash])

end Path

/-! ## Locations -/

namespace Location

variable {l names : Location} {segment top : String} {segments : List String}

/-- Where a segment leads to from a folder. -/
def go (l : Location) (segment : String) : Location :=
  if segment = "" ∨ segment = "." then l
  else if segment = ".." then l.above
  else segment :: l

/-- The names lead down. -/
structure Descends (names : List String) : Prop where
  no_up : ".." ∉ names
  no_root : "/" ∉ names

/-- A location lies under a folder. -/
def IsUnder (l folder : Location) : Prop :=
  ∃ names, names ≠ [] ∧ Descends names ∧ l = names ++ folder

theorem Descends.isInside (h : Descends l) : l.isInside = true := by
  rw [Location.isInside, Bool.and_eq_true, bne_iff_ne, bne_iff_ne]
  exact ⟨fun hlast => h.no_up (List.mem_of_getLast? hlast),
    fun hlast => h.no_root (List.mem_of_getLast? hlast)⟩

/-- Whatever lies under a folder lies where the folder does. -/
theorem IsUnder.getLast?_eq {folder : Location} (h : l.IsUnder folder) (hne : folder ≠ []) :
    l.getLast? = folder.getLast? := by
  obtain ⟨names, -, -, rfl⟩ := h
  exact List.getLast?_append_of_ne_nil names hne

/-- The way up undoes the last step down. -/
theorem above_cons_append {name : String} (h : Descends (name :: names)) (base : Location) :
    above (name :: names ++ base) = names ++ base := by
  have hup : name ≠ ".." := fun hname => h.no_up (hname ▸ List.mem_cons_self)
  have hroot : name ≠ "/" := fun hname => h.no_root (hname ▸ List.mem_cons_self)
  simp [above, hup, hroot]

/-- A step from below a folder: it goes above the folder, or it is the same wherever the folder is. -/
theorem go_append (h : Descends names) (hsegment : segment ≠ "/") :
    names = [] ∧ segment = ".." ∨
      Descends (names.go segment) ∧ ∀ base, go (names ++ base) segment = names.go segment ++ base := by
  unfold go
  split_ifs with hhere hup
  · exact .inr ⟨h, fun base => rfl⟩
  · cases names with
    | nil => exact .inl ⟨rfl, hup⟩
    | cons name names =>
      have habove : above (name :: names) = names := by simpa using above_cons_append h []
      rw [habove]
      refine .inr ⟨⟨fun hmem => h.no_up (List.mem_cons_of_mem _ hmem),
        fun hmem => h.no_root (List.mem_cons_of_mem _ hmem)⟩, above_cons_append h⟩
  · refine .inr ⟨⟨?_, ?_⟩, fun base => rfl⟩
    · simp [Ne.symm hup, h.no_up]
    · simp [Ne.symm hsegment, h.no_root]

/-- Whoever is above the working directory, or at the root, does not come back. -/
theorem getLast?_go (htop : top = ".." ∨ top = "/") (h : l.getLast? = some top) :
    (l.go segment).getLast? = some top := by
  cases l with
  | nil => cases h
  | cons name l =>
    unfold go
    split_ifs
    · exact h
    · unfold above
      split_ifs with hroot hup
      · exact h
      · exact List.getLast?_cons_cons.trans h
      · -- the last name is not the only one
        cases l with
        | nil =>
          obtain rfl : name = top := by simpa using h
          rcases htop with rfl | rfl
          · exact absurd rfl hup
          · exact absurd rfl hroot
        | cons next l => exact List.getLast?_cons_cons.symm.trans h
    · exact List.getLast?_cons_cons.trans h

theorem getLast?_foldl_go (htop : top = ".." ∨ top = "/") (h : l.getLast? = some top) :
    (segments.foldl go l).getLast? = some top := by
  induction segments generalizing l with
  | nil => exact h
  | cons segment segments ih => exact ih (getLast?_go htop h)

/-- Steps that do not go above their start are the same from every folder. -/
theorem foldl_go_append (h : Descends names) (hsegments : "/" ∉ segments)
    (hend : (segments.foldl go names).isInside = true) :
    Descends (segments.foldl go names) ∧
      ∀ base, segments.foldl go (names ++ base) = segments.foldl go names ++ base := by
  induction segments generalizing names with
  | nil => exact ⟨h, fun base => rfl⟩
  | cons segment segments ih =>
    rw [List.mem_cons, not_or] at hsegments
    simp only [List.foldl_cons] at hend ⊢
    rcases go_append h (Ne.symm hsegments.1) with ⟨rfl, rfl⟩ | ⟨hgo, hbase⟩
    · have hlast : (segments.foldl go (go [] "..")).getLast? = some ".." :=
        getLast?_foldl_go (.inl rfl) rfl
      rw [isInside, hlast] at hend
      exact absurd hend (by decide)
    · obtain ⟨hdown, happend⟩ := ih hgo hsegments.2 hend
      exact ⟨hdown, fun base => by rw [hbase, happend]⟩

end Location

/-! ## The location of a path -/

namespace Path

open Location

/-- The location that a path leads to if it leads anywhere. -/
def location (p : Path) : Location := p.segments.foldl go (origin p)

theorem location_empty : location "" = [] := rfl

theorem origin_of_relative {p : Path} (h : p.isAbsolute = false) : origin p = [] := by
  rw [origin, h]
  rfl

theorem not_isInside_of_isAbsolute {p : Path} (h : p.isAbsolute = true) :
    p.location.isInside = false := by
  have hlast : p.location.getLast? = some "/" := by
    rw [location, origin, h]
    exact getLast?_foldl_go (.inr rfl) rfl
  rw [isInside, hlast]
  rfl

/-- A path that is not absolute leads on from the folder that it is put behind. -/
theorem location_join (folder : Path) {p : Path} (h : p.isAbsolute = false) :
    (join folder p).location = p.segments.foldl go folder.location := by
  unfold join
  rw [if_neg (by simp [h])]
  rcases folder.toList.eq_nil_or_concat with hnil | ⟨front, last, hfront⟩
  · obtain rfl : folder = "" := String.toList_inj.1 hnil
    exact congrArg (p.segments.foldl go) (origin_of_relative h)
  · rw [List.concat_eq_append] at hfront
    have hne : folder.toList ≠ [] := by simp [hfront]
    have horigin (rest : Path) : origin (folder ++ rest) = origin folder := by
      rw [origin, origin, isAbsolute, isAbsolute, String.toList_append,
        List.head?_append_of_ne_nil _ hne]
    rw [hfront, List.getLast?_concat]
    by_cases hslash : last = '/'
    · subst hslash
      have hfolder : folder.segments = (split front).map String.ofList ++ [""] := by
        rw [segments, hfront, split_append_slash, List.map_append]
        rfl
      have hjoin : segments (folder ++ p) = (split front).map String.ofList ++ p.segments := by
        rw [segments, String.toList_append, hfront, List.append_assoc, List.singleton_append,
          split_append_slash, List.map_append]
        rfl
      simp only [location, horigin, hfolder, hjoin, List.foldl_append]
      rfl
    · have hjoin : segments (folder ++ "/" ++ p) = folder.segments ++ p.segments := by
        have htext : (folder ++ "/" ++ p).toList = folder.toList ++ '/' :: p.toList := by
          simp
        rw [segments, htext, split_append_slash, List.map_append]
        rfl
      have hstart : origin (folder ++ "/" ++ p) = origin folder := by
        rw [String.append_assoc, horigin]
      split
      · rename_i heq
        cases heq
      · rename_i heq
        exact absurd (Option.some.inj heq) hslash
      · rw [location, hjoin, hstart, List.foldl_append]
        rfl

/-- A path that stays under the working directory leads as far down from every folder. -/
theorem location_join_of_isInside (folder : Path) {p : Path} (h : p.location.isInside = true) :
    Descends p.location ∧ (join folder p).location = p.location ++ folder.location := by
  have hrelative : p.isAbsolute = false := by
    cases habsolute : p.isAbsolute with
    | false => rfl
    | true => rw [not_isInside_of_isAbsolute habsolute] at h; cases h
  have hlocation : p.location = p.segments.foldl go [] := by
    rw [location, origin_of_relative hrelative]
  rw [location_join folder hrelative, hlocation]
  rw [hlocation] at h
  obtain ⟨hdown, happend⟩ := foldl_go_append ⟨List.not_mem_nil, List.not_mem_nil⟩
    (root_not_mem_segments p) h
  exact ⟨hdown, happend folder.location⟩

/-- **Which paths stay under a folder whatever folder it is:** those that stay under the working
    directory, and lead further than to it. -/
theorem isInside_iff_forall_isUnder {p : Path} (hp : p.location ≠ []) :
    p.location.isInside = true ↔ ∀ folder : Path, (join folder p).location.IsUnder folder.location := by
  constructor
  · intro h folder
    obtain ⟨hdown, hjoin⟩ := location_join_of_isInside folder h
    exact ⟨p.location, hp, hdown, hjoin⟩
  · intro h
    obtain ⟨names, -, hdown, hjoin⟩ := h ""
    have hself : join "" p = p := by
      unfold join
      split <;> rfl
    rw [hself, location_empty, List.append_nil] at hjoin
    exact hjoin ▸ hdown.isInside

end Path

/-! ## Workspaces -/

namespace Workspace

variable {w : Workspace} {l l' : Location} {segment : String}

theorem go_of_step? (h : w.step? l segment = some l') : l.go segment = l' := by
  rw [step?_of_folder (folder_of_step? h)] at h
  rw [Location.go]
  split_ifs at h ⊢ <;> exact Option.some.inj h

theorem foldl_go_of_foldlM_step? {segments : List String}
    (h : segments.foldlM w.step? l = some l') : segments.foldl Location.go l = l' := by
  induction segments generalizing l with
  | nil => exact Option.some.inj h
  | cons segment segments ih =>
    obtain ⟨mid, hmid, hrest⟩ := Option.bind_eq_some_iff.1 h
    rw [List.foldl_cons, go_of_step? hmid]
    exact ih hrest

/-- **Where a path leads to is a matter of the path**, whatever the workspace holds. -/
theorem location_of_find? {path : Path} (h : w.find? path = some l) : path.location = l := by
  unfold find? at h
  split_ifs at h
  exact foldl_go_of_foldlM_step? h

end Workspace

end LSystem
