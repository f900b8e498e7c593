import LSystem.Proofs.Program.Export
import LSystem.Proofs.Workspace.Location
set_option autoImplicit false

/-! # Exports to the output directory

An export to no file in particular goes to one that is named for its system, in the output directory.
The name becomes part of the path as it is. As long as it does not lead up, the file is in the directory,
and names without a slash have each a file of their own (`default_output_law`). Other names do what paths
do: they leave the directory, or lead to where another name leads as well (`default_output_outside`). -/

namespace LSystem

/-! ## Names of files -/

/-- The path of the file of a system, as seen from the output directory. -/
def ownPath (name : String) : Path := name ++ ".json"

theorem ownPath_inj {name name' : String} : ownPath name' = ownPath name ↔ name' = name :=
  String.append_left_inj _

theorem ownPath_ne (name : String) {s : String} (hs : s.length < 5) : ownPath name ≠ s := by
  rintro rfl
  have hlength : (ownPath name).length = name.length + 5 := String.length_append _ _
  omega

/-- As a segment the path is a name, whatever stands in front of the extension. -/
theorem go_ownPath (l : Location) (name : String) : l.go (ownPath name) = ownPath name :: l := by
  rw [Location.go,
    if_neg (not_or.2 ⟨ownPath_ne name (by decide), ownPath_ne name (by decide)⟩),
    if_neg (ownPath_ne name (by decide))]

theorem toList_ownPath (name : String) : (ownPath name).toList = name.toList ++ ".json".toList :=
  String.toList_append

theorem location_ownPath_ne_nil (name : String) : (ownPath name).location ≠ [] := by
  obtain ⟨parts, last, -, hsplit⟩ :=
    Path.exists_split_append name.toList (show '/' ∉ ".json".toList by decide)
  have hsegments :
      (ownPath name).segments = parts.map String.ofList ++ [ownPath (String.ofList last)] := by
    rw [Path.segments, toList_ownPath, hsplit, List.map_append, List.map_singleton,
      String.ofList_append]
    rfl
  rw [Path.location, hsegments, List.foldl_append, List.foldl_cons, List.foldl_nil, go_ownPath]
  exact List.cons_ne_nil _ _

/-- Without a slash the name is that of a file in the directory. -/
theorem location_ownPath {name : String} (h : '/' ∉ name.toList) :
    (ownPath name).location = [ownPath name] := by
  have hslash : '/' ∉ (ownPath name).toList := by
    rw [toList_ownPath, List.mem_append, not_or]
    exact ⟨h, by decide⟩
  have hrelative : (ownPath name).isAbsolute = false := by
    rw [Path.isAbsolute, beq_eq_false_iff_ne]
    exact fun hhead => hslash (List.mem_of_head? hhead)
  rw [Path.location, Path.origin_of_relative hrelative, Path.segments, Path.split_of_no_slash hslash,
    List.map_singleton, String.ofList_toList, List.foldl_cons, List.foldl_nil, go_ownPath]

theorem isInside_ownPath {name : String} (h : '/' ∉ name.toList) :
    (ownPath name).location.isInside = true := by
  have hup : ".." ≠ ownPath name := (ownPath_ne name (by decide)).symm
  have hroot : "/" ≠ ownPath name := (ownPath_ne name (by decide)).symm
  rw [location_ownPath h]
  exact Location.Descends.isInside ⟨by simpa using hup, by simpa using hroot⟩

namespace Workspace

variable {w w' : Workspace} {reader : LibraryReader} {stamp : String} {vars : Variables}
  {arguments : List String} {name : String}

/-! ## Exports -/

/-- A path leads to a location where there is a text now, and all other files are as before. -/
structure WritesAt (w : Workspace) (path : Path) (l : Location) (w' : Workspace) : Prop where
  found : w'.find? path = some l
  written : ∃ text, w'.at? l = some (.file text)
  others : ∀ l' ≠ l, ∀ content, w'.at? l' = some (.file content) ↔ w.at? l' = some (.file content)

theorem Writes.writesAt {path : Path} {text : String} (h : w.Writes path text w') :
    w.WritesAt path path.location w' := by
  obtain ⟨l, hfind, hl, hothers⟩ := h
  obtain rfl := location_of_find? hfind
  exact ⟨hfind, ⟨text, hl⟩, hothers⟩

/-- The program exports a system without being told where to, and exits with 0. -/
structure ExportsByDefault (w : Workspace) (reader : LibraryReader) (stamp : String)
    (vars : Variables) (arguments : List String) (name : String) : Prop where
  invocation : ∃ library n limit? every,
    Invocation.ofArguments arguments = .ok ⟨library, .generate name n limit? none every⟩
  succeeds : (w.runWith reader stamp vars arguments).1.status = 0

/-- The file of a system in the output directory. -/
def defaultFile (w : Workspace) (vars : Variables) (name : String) : Location :=
  (w.outputFor vars name none).location

theorem ExportsByDefault.writesAt (h : w.ExportsByDefault reader stamp vars arguments name) :
    w.WritesAt (w.outputFor vars name none) (w.defaultFile vars name)
      (w.runWith reader stamp vars arguments).2 := by
  obtain ⟨⟨library, n, limit?, every, hcall⟩, hstatus⟩ := h
  obtain ⟨v, definitions, s, hexportable⟩ := exists_exportable hcall hstatus
  obtain ⟨-, d, -, hwrites⟩ := hexportable.exports stamp hcall
  exact hwrites.writesAt

theorem defaultFile_of_isInside (w : Workspace) (vars : Variables)
    (h : (ownPath name).location.isInside = true) :
    w.defaultFile vars name =
      (ownPath name).location ++ Path.location (w.settings vars).outputDirectory :=
  (Path.location_join_of_isInside _ h).2

/-- A name without a slash is put in front of the directory. -/
theorem defaultFile_of_no_slash (w : Workspace) (vars : Variables) (h : '/' ∉ name.toList) :
    w.defaultFile vars name = ownPath name :: Path.location (w.settings vars).outputDirectory := by
  rw [defaultFile_of_isInside w vars (isInside_ownPath h), location_ownPath h, List.singleton_append]

/-- **Where exports go that are not told where to.** One file is written and no other is touched. It lies
    in the output directory if the name of the system does not lead up from there, such as a name without
    a slash. Two such names lead to the same file of a directory only if they lead to the same place by
    themselves, and two names without a slash never lead to the same file. -/
theorem default_output_law (h : w.ExportsByDefault reader stamp vars arguments name) :
    let directory : Path := (w.settings vars).outputDirectory
    let own := (ownPath name).location
    let file := w.defaultFile vars name
    w.WritesAt (w.outputFor vars name none) file (w.runWith reader stamp vars arguments).2 ∧
    (own.isInside = true → file.IsUnder directory.location) ∧
    ('/' ∉ name.toList → own.isInside = true ∧ file = (name ++ ".json") :: directory.location) ∧
    ∀ w' reader' stamp' vars' arguments' name',
      ExportsByDefault w' reader' stamp' vars' arguments' name' →
      let own' := (ownPath name').location
      let file' := w'.defaultFile vars' name'
      w'.WritesAt (w'.outputFor vars' name' none) file'
        (w'.runWith reader' stamp' vars' arguments').2 ∧
      ((w'.settings vars').outputDirectory = directory →
        own.isInside = true → own'.isInside = true → (file' = file ↔ own' = own)) ∧
      ('/' ∉ name.toList → '/' ∉ name'.toList → name' ≠ name → file' ≠ file) := by
  intro directory own file
  refine ⟨h.writesAt, ?_, ?_, ?_⟩
  · intro hown
    exact (Path.isInside_iff_forall_isUnder (location_ownPath_ne_nil name)).1 hown directory
  · intro hname
    exact ⟨isInside_ownPath hname, defaultFile_of_no_slash w vars hname⟩
  · intro w' reader' stamp' vars' arguments' name' h' own' file'
    refine ⟨h'.writesAt, ?_, ?_⟩
    · intro hdirectory hown hown'
      have hfile : file = own ++ directory.location := defaultFile_of_isInside w vars hown
      have hfile' : file' = own' ++ directory.location :=
        hdirectory ▸ defaultFile_of_isInside w' vars' hown'
      rw [hfile, hfile', List.append_left_inj]
    · intro hname hname' hne hsame
      have hfile : file = ownPath name :: directory.location := defaultFile_of_no_slash w vars hname
      have hfile' : file' = ownPath name' :: Path.location (w'.settings vars').outputDirectory :=
        defaultFile_of_no_slash w' vars' hname'
      rw [hfile, hfile'] at hsame
      exact hne (ownPath_inj.1 (List.cons.inj hsame).1)

/-- The dragon curve and the tree in one workspace. -/
theorem default_output_of_presets :
    let dragon := ["generate", "--system", "dragon", "--iterations", "1"]
    let tree := ["generate", "--system", "tree", "--iterations", "1"]
    ExportsByDefault .empty Yaml.library? "" [] dragon "dragon" ∧
    ExportsByDefault .empty Yaml.library? "" [] tree "tree" ∧
    WritesAt .empty "out/dragon.json" ["dragon.json", "out"] (runProgram .empty "" [] dragon).2 ∧
    WritesAt .empty "out/tree.json" ["tree.json", "out"] (runProgram .empty "" [] tree).2 ∧
    defaultFile .empty [] "tree" ≠ defaultFile .empty [] "dragon" := by
  intro dragon tree
  have hdragon : ExportsByDefault .empty Yaml.library? "" [] dragon "dragon" :=
    ⟨⟨"systems.yaml", 1, none, false, rfl⟩, by decide +kernel⟩
  have htree : ExportsByDefault .empty Yaml.library? "" [] tree "tree" :=
    ⟨⟨"systems.yaml", 1, none, false, rfl⟩, by decide +kernel⟩
  obtain ⟨hwrites, -, -, hother⟩ := default_output_law hdragon
  obtain ⟨hwrites', -, hne⟩ := hother .empty Yaml.library? "" [] tree "tree" htree
  exact ⟨hdragon, htree, hwrites, hwrites', hne (by decide) (by decide) (by decide)⟩

/-- A name that leads up leaves the directory, one that starts at the root never gets there, and one that
    leads nowhere leads to the file of another system. -/
theorem default_output_outside :
    let w := ofFiles [("systems.yaml",
      "systems:\n  - name: ../dragon\n    axiom: A\n    angle_degrees: 90\n" ++
        "  - name: /dragon\n    axiom: A\n    angle_degrees: 90\n" ++
        "  - name: ./dragon\n    axiom: A\n    angle_degrees: 90\n")]
    let generate name := ["generate", "--system", name, "--iterations", "0"]
    let result name := (w.runProgram "" [] (generate name)).2
    (w.settings []).outputDirectory = "out" ∧
    (∀ name ∈ ["../dragon", "/dragon", "./dragon", "dragon"],
      ExportsByDefault w Yaml.library? "" [] (generate name) name) ∧
    (WritesAt w "out/../dragon.json" ["dragon.json"] (result "../dragon") ∧
      w.at? ["dragon.json"] = none ∧ ¬ Location.IsUnder ["dragon.json"] (Path.location "out")) ∧
    (WritesAt w "/dragon.json" ["dragon.json", "/"] (result "/dragon") ∧
      w.at? ["dragon.json", "/"] = none ∧
      ¬ Location.IsUnder ["dragon.json", "/"] (Path.location "out")) ∧
    WritesAt w "out/./dragon.json" ["dragon.json", "out"] (result "./dragon") ∧
    WritesAt w "out/dragon.json" ["dragon.json", "out"] (result "dragon") := by
  intro w generate result
  have hexports : ∀ name ∈ ["../dragon", "/dragon", "./dragon", "dragon"],
      ExportsByDefault w Yaml.library? "" [] (generate name) name := by
    intro name hname
    refine ⟨⟨"systems.yaml", 0, none, false, ?_⟩, ?_⟩
    · simp only [List.mem_cons, List.not_mem_nil, or_false] at hname
      rcases hname with rfl | rfl | rfl | rfl <;> rfl
    · revert name
      decide +kernel
  have hwrites {name : String} {path : Path} {l : Location}
      (hname : name ∈ ["../dragon", "/dragon", "./dragon", "dragon"])
      (hpath : w.outputFor [] name none = path) (hl : path.location = l) :
      WritesAt w path l (result name) := by
    subst hl hpath
    exact (hexports name hname).writesAt
  have houtside {l : Location} (hl : l.getLast? ≠ some "out") :
      ¬ Location.IsUnder l (Path.location "out") := fun h => hl (h.getLast?_eq (by decide))
  refine ⟨by decide +kernel, hexports, ⟨?_, by decide +kernel, houtside (by decide)⟩,
    ⟨?_, by decide +kernel, houtside (by decide)⟩, ?_, ?_⟩
  · exact hwrites (by decide) (by decide +kernel) (by decide)
  · exact hwrites (by decide) (by decide +kernel) (by decide)
  · exact hwrites (by decide) (by decide +kernel) (by decide)
  · exact hwrites (by decide) (by decide +kernel) (by decide)

end Workspace

end LSystem
