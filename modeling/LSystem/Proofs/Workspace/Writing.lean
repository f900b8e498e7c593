import LSystem.Workspace
import Mathlib.Tactic.SplitIfs
set_option autoImplicit false

/-! # What writing changes

To write a file is to follow the path to its folder, making what is missing on the way, and to put the
text there. The folders are made where there was nothing, so no file is touched by them (`AddsFolders`),
and the steps already taken lead to the same places afterwards (`Keeps`). Hence a text that is written
is found behind the path it was written to, and every other file is as before (`Writes`). Whether it can
be written depends on the path alone (`place?`). -/

namespace LSystem

/-- A text has parts. -/
theorem Path.split_ne_nil (cs : List Char) : split cs ≠ [] := by
  cases cs with
  | nil => simp [split]
  | cons c cs =>
    unfold split
    split
    · simp
    · split_ifs <;> simp

namespace Workspace

variable {w w' w'' : Workspace} {l l' : Location} {segment : String}

/-! ## Inserting -/

theorem at?_insert_of_ne (w : Workspace) (e : Entry) (h : l' ≠ l) :
    at? (w.insert l e) l' = w.at? l' := by
  have hne : compare l' l ≠ .eq := fun heq => h (Std.LawfulEqOrd.eq_of_compare heq)
  rw [at?, at?, Table.get?_insert, if_neg hne]

theorem at?_insert_self (e : Entry) (h : w.at? l ≠ some .folder) :
    at? (w.insert l e) l = some e := by
  unfold at? at h ⊢
  split at h
  · exact absurd rfl h
  · rename_i hground
    rw [if_neg hground, Table.get?_insert, if_pos Std.ReflOrd.compare_self]

/-! ## What is kept -/

/-- Folders stay folders, and nothing goes away. -/
structure Keeps (w w' : Workspace) : Prop where
  folder : ∀ l, w.at? l = some .folder → w'.at? l = some .folder
  something : ∀ l, (w.at? l).isSome → (w'.at? l).isSome

/-- The same files with the same texts. -/
def SameFiles (w w' : Workspace) : Prop :=
  ∀ l content, w'.at? l = some (.file content) ↔ w.at? l = some (.file content)

/-- Nothing but folders has been added. -/
structure AddsFolders (w w' : Workspace) : Prop where
  folder : ∀ l, w.at? l = some .folder → w'.at? l = some .folder
  files : w.SameFiles w'

namespace AddsFolders

theorem refl (w : Workspace) : w.AddsFolders w := ⟨fun _ h => h, fun _ _ => Iff.rfl⟩

theorem trans (h : w.AddsFolders w') (h' : w'.AddsFolders w'') : w.AddsFolders w'' :=
  ⟨fun l hl => h'.folder l (h.folder l hl), fun l c => (h'.files l c).trans (h.files l c)⟩

theorem keeps (h : w.AddsFolders w') : w.Keeps w' := by
  refine ⟨h.folder, fun l hl => ?_⟩
  obtain ⟨e, he⟩ := Option.isSome_iff_exists.1 hl
  cases e with
  | folder => rw [h.folder l he]; rfl
  | file c => rw [(h.files l c).2 he]; rfl

/-- A folder made where there was nothing. -/
theorem insert (h : w.at? l = none) : w.AddsFolders (w.insert l .folder) := by
  have hself : at? (w.insert l .folder) l = some .folder := at?_insert_self .folder (by simp [h])
  refine ⟨fun l' hl' => ?_, fun l' c => ?_⟩
  · by_cases hl : l' = l
    · rw [hl, hself]
    · rw [at?_insert_of_ne w _ hl, hl']
  · by_cases hl : l' = l
    · rw [hl, hself, h]
      simp
    · rw [at?_insert_of_ne w _ hl]

end AddsFolders

/-! ## Following a path -/

theorem step?_of_folder (h : w.at? l = some .folder) :
    w.step? l segment =
      if segment = "" ∨ segment = "." then some l
      else if segment = ".." then some l.above
      else if (w.at? (segment :: l)).isSome then some (segment :: l)
      else none := by
  rw [step?, if_neg (fun hne => hne h)]

theorem folder_of_step? (h : w.step? l segment = some l') : w.at? l = some .folder := by
  by_cases hl : w.at? l = some .folder
  · exact hl
  · rw [step?, if_pos hl] at h
    cases h

/-- A step that leads somewhere leads there still when more has been put into the workspace. -/
theorem Keeps.step? (h : w.Keeps w') (hs : w.step? l segment = some l') :
    w'.step? l segment = some l' := by
  have hl := folder_of_step? hs
  rw [step?_of_folder hl] at hs
  rw [step?_of_folder (h.folder l hl)]
  split_ifs at hs with hhere habove hthere
  · rw [if_pos hhere, hs]
  · rw [if_neg hhere, if_pos habove, hs]
  · rw [if_neg hhere, if_neg habove, if_pos (h.something _ hthere), hs]

theorem Keeps.foldlM_step? (h : w.Keeps w') {segments : List String}
    (hs : segments.foldlM w.step? l = some l') : segments.foldlM w'.step? l = some l' := by
  induction segments generalizing l with
  | nil => exact hs
  | cons segment segments ih =>
    obtain ⟨mid, hmid, hrest⟩ := Option.bind_eq_some_iff.1 hs
    exact Option.bind_eq_some_iff.2 ⟨mid, h.step? hmid, ih hrest⟩

/-- Where a name is entered that is not there, a folder of that name is made. -/
theorem addsFolders_of_step?_none (hl : w.at? l = some .folder) (hs : w.step? l segment = none) :
    let w' : Workspace := w.insert (segment :: l) .folder
    w.AddsFolders w' ∧ w'.step? l segment = some (segment :: l) := by
  intro w'
  rw [step?_of_folder hl] at hs
  split_ifs at hs with hhere habove hthere
  have hnone : w.at? (segment :: l) = none := Option.not_isSome_iff_eq_none.1 hthere
  have hadds : w.AddsFolders w' := .insert hnone
  have hself : w'.at? (segment :: l) = some .folder := at?_insert_self .folder (by simp [hnone])
  refine ⟨hadds, ?_⟩
  rw [step?_of_folder (hadds.folder l hl), if_neg hhere, if_neg habove, hself]
  rfl

theorem enter?_spec (h : enter? (w, l) segment = some (w', l')) :
    w.AddsFolders w' ∧ w'.step? l segment = some l' := by
  unfold enter? at h
  cases hs : w.step? l segment with
  | some next =>
    simp only [hs, Option.some.injEq, Prod.mk.injEq] at h
    obtain ⟨rfl, rfl⟩ := h
    exact ⟨.refl w, hs⟩
  | none =>
    simp only [hs] at h
    split_ifs at h with hfolder
    obtain ⟨rfl, rfl⟩ : w.insert (segment :: l) .folder = w' ∧ segment :: l = l' := by simpa using h
    exact addsFolders_of_step?_none hfolder.1 hs

theorem foldlM_enter?_spec {segments : List String}
    (h : segments.foldlM enter? (w, l) = some (w', l')) :
    w.AddsFolders w' ∧ segments.foldlM w'.step? l = some l' := by
  induction segments generalizing w l with
  | nil =>
    obtain ⟨rfl, rfl⟩ : w = w' ∧ l = l' := by simpa using h
    exact ⟨.refl w, rfl⟩
  | cons segment segments ih =>
    obtain ⟨⟨v, mid⟩, hmid, hrest⟩ := Option.bind_eq_some_iff.1 h
    obtain ⟨hadds, hstep⟩ := enter?_spec hmid
    obtain ⟨hadds', hsteps⟩ := ih hrest
    exact ⟨hadds.trans hadds', Option.bind_eq_some_iff.2 ⟨mid, hadds'.keeps.step? hstep, hsteps⟩⟩

/-! ## Making folders -/

theorem makeFolders?_spec {start : Location} {segments : List String}
    (h : w.makeFolders? start segments = some (w', l)) :
    w.AddsFolders w' ∧ segments.foldlM w'.step? start = some l ∧ w'.at? l = some .folder := by
  obtain ⟨⟨v, mid⟩, hmid, hrest⟩ := Option.bind_eq_some_iff.1 h
  simp only at hrest
  split_ifs at hrest with hfolder
  obtain ⟨rfl, rfl⟩ : v = w' ∧ mid = l := by simpa using hrest
  obtain ⟨hadds, hsteps⟩ := foldlM_enter?_spec hmid
  exact ⟨hadds, hsteps, hfolder⟩

theorem addsFolders_of_makeFolder? {path : Path} (h : w.makeFolder? path = some w') :
    w.AddsFolders w' := by
  by_cases hlong : pathLimit < path.utf8ByteSize
  · simp [makeFolder?, hlong] at h
  · simp only [makeFolder?, if_neg hlong] at h
    split_ifs at h with hdot
    · obtain ⟨⟨v, l⟩, hv, hrest⟩ := Option.bind_eq_some_iff.1 h
      simp only at hrest
      split_ifs at hrest with hfolder
      obtain rfl := Option.some.inj hrest
      exact (makeFolders?_spec hv).1
    · obtain ⟨⟨v, l⟩, hv, hrest⟩ := Option.bind_eq_some_iff.1 h
      obtain rfl := Option.some.inj hrest
      exact (makeFolders?_spec hv).1

/-! ## Writing -/

/-- The place that a text is written to: the workspace with the folders on the way made, and where in
    it. -/
def place? (w : Workspace) (path : Path) : Option (Workspace × Location) :=
  if pathLimit < path.utf8ByteSize then none
  else
    let name := path.segments.getLastD ""
    (w.makeFolders? (Location.origin path) path.segments.dropLast).bind fun (w, l) =>
      if name ∈ ["", ".", ".."] ∨ nameLimit < name.utf8ByteSize then none
      else if w.at? (name :: l) = some .folder then none
      else some (w, name :: l)

/-- To write is to find a place and to put the text there. -/
theorem write?_eq (w : Workspace) (path : Path) (text : String) :
    w.write? path text = (w.place? path).map fun (v, l) => v.insert l (.file text) := by
  by_cases hlong : pathLimit < path.utf8ByteSize
  · simp [write?, place?, hlong]
  · simp only [write?, place?, if_neg hlong]
    cases w.makeFolders? (Location.origin path) path.segments.dropLast with
    | none => rfl
    | some p =>
      obtain ⟨v, l⟩ := p
      simp only [Option.bind_some]
      split_ifs <;> simp_all

/-- A path has a last segment. -/
theorem exists_last_segment (path : Path) :
    ∃ folders name, path.segments = folders ++ [name] := by
  have hne : path.segments ≠ [] := by simpa [Path.segments] using Path.split_ne_nil path.toList
  exact ⟨_, _, (List.dropLast_concat_getLast hne).symm⟩

/-- The place of a text can be found by its path as soon as there is something. -/
theorem place?_spec {v : Workspace} {path : Path} (h : w.place? path = some (v, l)) :
    w.AddsFolders v ∧ v.at? l ≠ some .folder ∧
      ∀ v', v.Keeps v' → (v'.at? l).isSome → v'.find? path = some l := by
  obtain ⟨folders, name, hsegments⟩ := exists_last_segment path
  simp only [place?, hsegments, List.dropLast_concat, List.getLastD_concat] at h
  split_ifs at h with hlong hname
  · simp at h
  obtain ⟨⟨u, m⟩, hu, hrest⟩ := Option.bind_eq_some_iff.1 h
  split_ifs at hrest with hfile
  obtain ⟨rfl, rfl⟩ : u = v ∧ name :: m = l := by simpa using hrest
  obtain ⟨hadds, hsteps, hfolder⟩ := makeFolders?_spec hu
  refine ⟨hadds, hfile, fun v' hkeeps hsome => ?_⟩
  simp only [List.mem_cons, List.not_mem_nil, or_false, not_or] at hname
  obtain ⟨⟨hempty, hdot, habove⟩, -⟩ := hname
  have hpath : path ≠ "" := by
    rintro rfl
    have hone : folders ++ [name] = [] ++ [""] := hsegments.symm
    exact hempty (List.singleton_inj.1 (List.append_inj_right' hone rfl))
  -- the last segment is a name in the folder that the others lead to
  have hlast : v'.step? m name = some (name :: m) := by
    rw [step?_of_folder (hkeeps.folder _ hfolder), if_neg (by simp [hempty, hdot]), if_neg habove,
      if_pos hsome]
  rw [find?, if_neg (by simp [hpath, hlong]), hsegments, List.foldlM_append]
  refine Option.bind_eq_some_iff.2 ⟨m, hkeeps.foldlM_step? hsteps, ?_⟩
  exact Option.bind_eq_some_iff.2 ⟨name :: m, hlast, rfl⟩

/-- A text has been written to a path: the path leads to it, and all other files are as before. -/
def Writes (w : Workspace) (path : Path) (text : String) (w' : Workspace) : Prop :=
  ∃ l, w'.find? path = some l ∧ w'.at? l = some (.file text) ∧
    ∀ l' ≠ l, ∀ content, w'.at? l' = some (.file content) ↔ w.at? l' = some (.file content)

theorem writes_of_write? {path : Path} {text : String} (h : w.write? path text = some w') :
    w.Writes path text w' := by
  rw [write?_eq] at h
  obtain ⟨⟨v, l⟩, hplace, rfl⟩ := Option.map_eq_some_iff.1 h
  obtain ⟨hadds, hfile, hfind⟩ := place?_spec hplace
  have hself : at? (v.insert l (.file text)) l = some (.file text) := at?_insert_self _ hfile
  have hkeeps : v.Keeps (v.insert l (.file text)) := by
    refine ⟨fun l' hl' => ?_, fun l' hl' => ?_⟩
    · rw [at?_insert_of_ne v _ (by rintro rfl; exact hfile hl'), hl']
    · by_cases hl : l' = l
      · rw [hl, hself]
        rfl
      · rwa [at?_insert_of_ne v _ hl]
  refine ⟨l, hfind _ hkeeps (by rw [hself]; rfl), hself, fun l' hl c => ?_⟩
  rw [at?_insert_of_ne v _ hl]
  exact hadds.files l' c

/-- Whether a text can be written depends on the path alone. -/
theorem isSome_write? (w : Workspace) (path : Path) (text text' : String) :
    (w.write? path text).isSome = (w.write? path text').isSome := by
  rw [write?_eq, write?_eq, Option.isSome_map, Option.isSome_map]

end Workspace

end LSystem
