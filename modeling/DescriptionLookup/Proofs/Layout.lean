import DescriptionLookup.Proofs.Directories
import DescriptionLookup.Proofs.Enclosed
import DescriptionLookup.Proofs.LoadedCrates
import DescriptionLookup.Proofs.WrittenPaths

/-!
# Where the files of modules are

Without `path` attributes the place of a module's file is told by its module path: names in the
module path are directories, the last one is a file or a directory with a file `mod.rs`. It does not
matter how the modules around it are laid out themselves, be it in braces, in a file of their own
name or in a `mod.rs`: all of them put the files of their children into the same directory.

* `layoutPlaces`: the two places that a module path stands for;
* `Visit.IsLaidOut`: the invariant of visits, and `Visit.IsLaidOut.step`;
* `FileTree`: the files of a crate with those of child modules under them;
* `FileSystem.layout`: the places that are tried and the files that are loaded.
-/

namespace DescriptionLookup

open Location (IsFileName IsTrimmed join)
open Grammar (IsSegment)

/-! ### Names of modules -/

/-- A name without the characters that separate names in a path, or the parts of a name. -/
structure IsPlainName (name : String) : Prop where
  notEmpty : name ≠ ""
  plain : ∀ c ∈ name.toList, c ≠ '/' ∧ c ≠ '.'

namespace IsPlainName

variable {name : String}

theorem slash (h : IsPlainName name) : '/' ∉ name.toList := fun hmem => (h.plain _ hmem).1 rfl

theorem isFileName (h : IsPlainName name) : IsFileName name where
  slash := h.slash
  notEmpty := h.notEmpty
  notHere := by
    rintro rfl
    exact (h.plain '.' (by decide)).2 rfl
  notAbove := by
    rintro rfl
    exact (h.plain '.' (by decide)).2 rfl

theorem isFileName_rs (h : IsPlainName name) : IsFileName (name ++ ".rs") where
  slash hmem := by
    rcases List.mem_append.1 (String.toList_append ▸ hmem) with hmem | hmem
    · exact h.slash hmem
    · exact absurd hmem (by decide)
  notEmpty heq := by simpa using congrArg String.toList heq
  notHere heq := by simpa using congrArg (fun s => s.toList.getLast?) heq
  notAbove heq := by simpa using congrArg (fun s => s.toList.getLast?) heq

end IsPlainName

theorem le_toNat_of_isIdentifierPart {c : Char} (h : Text.isIdentifierPart c = true) :
    48 ≤ c.toNat := by
  rw [Text.isIdentifierPart,
    show Text.xidContinue = (48, 58) :: Text.xidContinue.tail from rfl,
    Text.Intervals.holds_cons] at h
  simp only [Bool.and_eq_true, decide_eq_true_eq] at h
  exact h.1

theorem isPlainName_ofList {cs : List Char} (h : Token.afterIdentifier? cs = some []) :
    IsPlainName (String.ofList cs) := by
  obtain ⟨c, more, rfl, hstart, hmore⟩ := Token.afterIdentifier?_eq_nil_iff.1 h
  refine ⟨by simp, fun d hd => ?_⟩
  -- Both characters come before the digits, and identifiers have none of these.
  have hlow : 48 ≤ d.toNat := by
    rw [String.toList_ofList] at hd
    rcases List.mem_cons.1 hd with rfl | hd
    · exact Nat.le_trans (by decide) (le_toNat_of_isIdentifierStart hstart)
    · exact le_toNat_of_isIdentifierPart (hmore d hd)
  constructor
  · rintro rfl
    exact absurd hlow (by decide)
  · rintro rfl
    exact absurd hlow (by decide)

/-- A name is written with `r#`, or it is the same without. -/
theorem unraw_cases (name : String) :
    (∃ rest, name.toList = 'r' :: '#' :: rest ∧ unraw name = String.ofList rest) ∨
    ((∀ rest, name.toList ≠ 'r' :: '#' :: rest) ∧ unraw name = name) := by
  unfold unraw
  split
  · next rest hname => exact .inl ⟨rest, hname, rfl⟩
  · next hraw => exact .inr ⟨hraw, rfl⟩

/-- Modules have plain names. -/
theorem isPlainName_unraw {name : String} (h : IsSegment name) : IsPlainName (unraw name) := by
  rcases h with h | rfl
  · have hword : Token.isWord name.toList = true := (Bool.and_eq_true_iff.1 h).2
    have hafter := (Token.isWord_iff.1 hword).2
    rcases unraw_cases name with ⟨rest, hname, hunraw⟩ | ⟨hraw, hunraw⟩
    · rw [hname, Token.afterWord?] at hafter
      obtain ⟨behind, hbehind, hafter⟩ := Option.bind_eq_some_iff.1 hafter
      split at hafter
      · cases hafter
      · cases hafter
        exact hunraw ▸ isPlainName_ofList hbehind
    · unfold Token.afterWord? at hafter
      split at hafter
      · next rest hname => exact absurd hname (hraw rest)
      · rw [hunraw, ← String.ofList_toList (s := name)]
        exact isPlainName_ofList hafter
  · have hafter : Token.afterIdentifier? "try".toList = some [] := by decide
    have hunraw : unraw "try" = String.ofList "try".toList := by decide
    exact hunraw ▸ isPlainName_ofList hafter

theorem unraw_ne_mod {name : String} (h : IsSegment name) (hmod : name ≠ "r#mod") :
    unraw name ≠ "mod" := by
  intro heq
  rcases unraw_cases name with ⟨rest, hname, hunraw⟩ | ⟨-, hunraw⟩
  · have hrest : rest = "mod".toList := by rw [← heq, hunraw, String.toList_ofList]
    exact hmod (String.toList_inj.1 (by rw [hname, hrest]; rfl))
  · rw [← hunraw, heq] at h
    exact Grammar.not_isSegment (by decide) (by decide) h

/-! ### Places -/

/-- Where the files of the children of a module are. -/
def layoutDirectory (rootDirectory : String) (module : ModulePath) : String :=
  (module.segments.map unraw).foldl join rootDirectory

/-- The places for the file of a module, in the order in which they are tried. -/
def layoutPlaces (rootDirectory : String) (module : ModulePath) : List String :=
  let base := join rootDirectory ("/".intercalate (module.segments.map unraw))
  [base ++ ".rs", base ++ "/mod.rs"]

section Directories

variable {rootDirectory : String} {names : List String}

theorem isTrimmed_foldl_join (hroot : IsTrimmed rootDirectory)
    (hnames : ∀ name ∈ names, IsPlainName name) : IsTrimmed (names.foldl join rootDirectory) := by
  induction names generalizing rootDirectory with
  | nil => exact hroot
  | cons name rest ih =>
    have hname := (hnames name List.mem_cons_self).isFileName
    exact ih (Location.isTrimmed_join hroot hname) fun other hother =>
      hnames other (List.mem_cons_of_mem _ hother)

/-- Going along names one by one is going along the path that they make. -/
theorem foldl_join_eq (hne : names ≠ []) (hnames : ∀ name ∈ names, IsPlainName name) :
    names.foldl join rootDirectory = join rootDirectory ("/".intercalate names) := by
  induction names generalizing rootDirectory with
  | nil => exact absurd rfl hne
  | cons name rest ih =>
    have hname := (hnames name List.mem_cons_self).isFileName
    -- Behind the last name there is no slash.
    cases rest with
    | nil => rw [List.foldl_cons, List.foldl_nil, String.intercalate_singleton]
    | cons next more =>
      have hmore : ∀ other ∈ next :: more, IsPlainName other := fun other hother =>
        hnames other (List.mem_cons_of_mem _ hother)
      have hnext := (hmore next List.mem_cons_self).isFileName
      have hpath : Location.isAbsolute ("/".intercalate (next :: more)) = false := by
        cases more with
        | nil => exact hnext.isAbsolute
        | cons other more =>
          rw [String.intercalate_cons_cons, String.append_assoc]
          exact hnext.isAbsolute_append _
      rw [List.foldl_cons, ih (List.cons_ne_nil _ _) hmore, Location.join_join _ hname hpath,
        String.intercalate_cons_cons, String.append_assoc, String.append_assoc,
        Location.join_append _ hname]

/-- The two places for the file of a module, seen from the directory of the module around it. -/
theorem layoutPlaces_child {module : ModulePath} {name : String}
    (hmodule : ∀ outer ∈ module.segments, IsPlainName (unraw outer))
    (hname : IsPlainName (unraw name)) :
    layoutPlaces rootDirectory (module.child name) =
      [join (layoutDirectory rootDirectory module) (unraw name ++ ".rs"),
        join (join (layoutDirectory rootDirectory module) (unraw name)) "mod.rs"] := by
  have hnames : ∀ other ∈ (module.child name).segments.map unraw, IsPlainName other := by
    intro other hother
    obtain ⟨segment, hsegment, rfl⟩ := List.mem_map.1 hother
    rcases List.mem_append.1 hsegment with hsegment | hsegment
    · exact hmodule segment hsegment
    · rwa [List.mem_singleton.1 hsegment]
  have hbase : join rootDirectory ("/".intercalate ((module.child name).segments.map unraw)) =
      join (layoutDirectory rootDirectory module) (unraw name) := by
    rw [← foldl_join_eq (by simp [ModulePath.child]) hnames]
    simp [ModulePath.child, layoutDirectory]
  have hmod : Location.isAbsolute "mod.rs" = false := by decide
  rw [layoutPlaces, hbase, Location.join_append _ hname.isFileName,
    Location.join_join _ hname.isFileName hmod, String.append_assoc]
  rfl

end Directories

/-! ### Items without places of their own -/

/-- No module among the items has a `path` attribute, and none is called `r#mod`. -/
def HasPlainModules (items : List Item) : Prop :=
  ∀ d ∈ modulesIn [] items,
    location? d.content.attributes = none ∧ d.content.name ≠ "r#mod"

mutual

theorem Item.wellNamed_of_mem_enclosed (around : List ModuleHead) {item : Item}
    (h : item.WellNamed) {e : Enclosed Item} (he : e ∈ item.enclosed around) :
    e.content.WellNamed := by
  cases item with
  | inlineModule head items =>
    rcases List.mem_cons.1 he with rfl | he
    · exact h
    · cases h with
      | inlineModule _ hitems => exact wellNamed_of_mem_enclosedItems (around ++ [head]) hitems he
  | _ =>
    cases List.mem_singleton.1 he
    exact h

theorem wellNamed_of_mem_enclosedItems (around : List ModuleHead) {items : List Item}
    (h : ∀ item ∈ items, item.WellNamed) {e : Enclosed Item} (he : e ∈ enclosedItems around items) :
    e.content.WellNamed := by
  cases items with
  | nil => cases he
  | cons item rest =>
    rcases List.mem_append.1 he with he | he
    · exact Item.wellNamed_of_mem_enclosed around (h item List.mem_cons_self) he
    · exact wellNamed_of_mem_enclosedItems around
        (fun other hother => h other (List.mem_cons_of_mem _ hother)) he

end

theorem isSegment_of_mem_modulesIn {items : List Item} (h : ∀ item ∈ items, item.WellNamed)
    {d : Enclosed ModuleHead} (hd : d ∈ modulesIn [] items) : IsSegment d.content.name := by
  obtain ⟨⟨around, item⟩, he, hmodule⟩ := List.mem_filterMap.1 hd
  have hnamed : item.WellNamed := wellNamed_of_mem_enclosedItems [] h he
  refine hnamed.of_moduleName? ?_
  cases item with
  | inlineModule head items =>
    cases hmodule
    rfl
  | fileModule head =>
    cases hmodule
    rfl
  | _ => cases hmodule

section Modules

variable {rootDirectory : String} {items : List Item} {d : Enclosed ModuleHead}

theorem isPlainName_of_mem_around (hnamed : ∀ item ∈ items, item.WellNamed)
    (hd : d ∈ modulesIn [] items) {head : ModuleHead} (hhead : head ∈ d.around) :
    IsPlainName (unraw head.name) := by
  obtain ⟨outer, houter⟩ := exists_mem_modulesIn_of_mem_around hd hhead
  exact isPlainName_unraw (isSegment_of_mem_modulesIn hnamed houter)

/-- Modules in braces put the files of their children where other modules would. -/
theorem directoryInside_layoutDirectory {module : ModulePath} {around : List ModuleHead}
    (h : ∀ head ∈ around, location? head.attributes = none) :
    directoryInside (layoutDirectory rootDirectory module) around =
      layoutDirectory rootDirectory (module.inside around) := by
  induction around generalizing module with
  | nil => rw [ModulePath.inside_nil]; rfl
  | cons head rest ih =>
    have hhead : innerDirectory (layoutDirectory rootDirectory module) head =
        layoutDirectory rootDirectory (module.child head.name) := by
      simp [innerDirectory, h head List.mem_cons_self, layoutDirectory, ModulePath.child]
    rw [ModulePath.inside_cons, ← ih fun other hother => h other (List.mem_cons_of_mem _ hother),
      ← hhead]
    rfl

end Modules

/-! ### Visits -/

/-- A visit leads to the files of the modules that its own file declares. -/
theorem FileSystem.mem_steps_iff {fs : FileSystem} {visit next : Visit} :
    next ∈ fs.steps visit ↔ ∃ source, fs.source visit.path = .ok source ∧
      ∃ d ∈ fileModulesIn [] source.items,
        fs.follow? (d.pending visit.module visit.directory (visit.file source).gates) =
          some next := by
  cases hsource : fs.source visit.path with
  | error failure =>
    rw [steps, hsource]
    constructor
    · intro hnext
      cases hnext
    · rintro ⟨source, hother, -⟩
      cases hother
  | ok source =>
    rw [steps_of_source hsource, Visit.pending, pendingModules_eq, List.filterMap_map,
      List.mem_filterMap]
    constructor
    · rintro ⟨d, hd, hfollow⟩
      exact ⟨source, rfl, d, hd, hfollow⟩
    · rintro ⟨other, hother, d, hd, hfollow⟩
      cases hother
      exact ⟨d, hd, hfollow⟩

/-- A visit of a module whose children have their files where the module path says. -/
structure Visit.IsLaidOut (rootDirectory : String) (visit : Visit) : Prop where
  names : ∀ name ∈ visit.module.segments, IsPlainName (unraw name)
  directory : visit.directory = layoutDirectory rootDirectory visit.module

namespace Visit.IsLaidOut

variable {rootDirectory : String} {visit : Visit} {items : List Item} {d : Enclosed ModuleHead}

theorem inside (h : visit.IsLaidOut rootDirectory) (hplain : HasPlainModules items)
    (hnamed : ∀ item ∈ items, item.WellNamed) (hd : d ∈ modulesIn [] items) :
    (∀ name ∈ (visit.module.inside d.around).segments, IsPlainName (unraw name)) ∧
      directoryInside visit.directory d.around =
        layoutDirectory rootDirectory (visit.module.inside d.around) := by
  have hlocation : ∀ head ∈ d.around, location? head.attributes = none := fun head hhead => by
    obtain ⟨outer, houter⟩ := exists_mem_modulesIn_of_mem_around hd hhead
    exact (hplain _ houter).1
  constructor
  · intro name hname
    rcases List.mem_append.1 hname with hname | hname
    · exact h.names name hname
    · obtain ⟨head, hhead, rfl⟩ := List.mem_map.1 hname
      exact isPlainName_of_mem_around hnamed hd hhead
  · rw [h.directory]
    exact directoryInside_layoutDirectory hlocation

/-- The places that are tried are those that the module path stands for. -/
theorem places_eq (h : visit.IsLaidOut rootDirectory) (hplain : HasPlainModules items)
    (hnamed : ∀ item ∈ items, item.WellNamed) (hd : d ∈ modulesIn [] items) (outer : List String) :
    (d.pending visit.module visit.directory outer).places =
      layoutPlaces rootDirectory ((visit.module.inside d.around).child d.content.name) := by
  obtain ⟨hnames, hdirectory⟩ := h.inside hplain hnamed hd
  have hname := isPlainName_unraw (isSegment_of_mem_modulesIn hnamed hd)
  rw [layoutPlaces_child hnames hname, ← hdirectory]
  simp only [Enclosed.pending, modulePlaces, (hplain d hd).1]

/-- Whichever of the two places has the file, the files of its children are in the same place. -/
theorem step (h : visit.IsLaidOut rootDirectory) (hroot : IsTrimmed rootDirectory)
    (hplain : HasPlainModules items) (hnamed : ∀ item ∈ items, item.WellNamed)
    (hd : d ∈ modulesIn [] items) {outer : List String} {found : String}
    (hfound : found ∈ (d.pending visit.module visit.directory outer).places) :
    ((d.pending visit.module visit.directory outer).visit found).IsLaidOut rootDirectory := by
  obtain ⟨hnames, hdirectory⟩ := h.inside hplain hnamed hd
  have hsegment := isSegment_of_mem_modulesIn hnamed hd
  have hname := isPlainName_unraw hsegment
  have htrimmed : IsTrimmed (layoutDirectory rootDirectory (visit.module.inside d.around)) := by
    refine isTrimmed_foldl_join hroot fun name hmem => ?_
    obtain ⟨segment, hsegment, rfl⟩ := List.mem_map.1 hmem
    exact hnames segment hsegment
  have hchild : layoutDirectory rootDirectory
      ((visit.module.inside d.around).child d.content.name) =
      join (layoutDirectory rootDirectory (visit.module.inside d.around))
        (unraw d.content.name) := by
    simp [layoutDirectory, ModulePath.child]
  rw [h.places_eq hplain hnamed hd, layoutPlaces_child hnames hname] at hfound
  constructor
  · intro name hmem
    rcases List.mem_append.1 hmem with hmem | hmem
    · exact hnames name hmem
    · rwa [List.mem_singleton.1 hmem]
  · show childDirectory found = layoutDirectory rootDirectory
      ((visit.module.inside d.around).child d.content.name)
    rw [hchild, childDirectory]
    rcases List.mem_cons.1 hfound with rfl | hfound
    · -- A file of the module's own name is not called `mod.rs`, as the module is not called `mod`.
      have hmod : unraw d.content.name ++ ".rs" ≠ "mod" ++ ".rs" := fun heq =>
        unraw_ne_mod hsegment (hplain d hd).2 ((String.append_left_inj _).1 heq)
      rw [Location.stem?, Location.name?_join _ hname.isFileName_rs,
        Location.parent_join htrimmed hname.isFileName_rs,
        if_neg (by simpa using hmod), Option.map_some,
        Location.stemOf_append_rs hname.notEmpty]
    · have hmod : IsFileName "mod.rs" := ⟨by decide, by decide, by decide, by decide⟩
      rw [List.mem_singleton.1 hfound, Location.name?_join _ hmod, if_pos rfl,
        Location.parent_join (Location.isTrimmed_join htrimmed hname.isFileName) hmod]

end Visit.IsLaidOut

/-! ### Trees of files -/

/-- A file of a crate, and under it the files of the modules that it declares. -/
inductive FileTree
  | node (file : SourceFile) (inner : List FileTree)

namespace FileTree

/-- The file at the top. -/
def file : FileTree → SourceFile
  | node file _ => file

mutual

/-- The files of a tree: the one at the top, and then those under it, each with all of its own. -/
def files : FileTree → List SourceFile
  | node file inner => file :: allFiles inner

/-- The files of several trees, one tree after the other. -/
def allFiles : List FileTree → List SourceFile
  | [] => []
  | tree :: rest => tree.files ++ allFiles rest

end

/-- Every file of the tree stands to the files right under it like this. -/
inductive Follows (R : SourceFile → List SourceFile → Prop) : FileTree → Prop
  | node {file : SourceFile} {inner : List FileTree} : R file (inner.map FileTree.file) →
    (∀ tree ∈ inner, Follows R tree) → Follows R (.node file inner)

end FileTree

namespace FileSystem

variable {fs : FileSystem} {root : String}

/-- The file is what a visit reads. -/
def IsFileOf (fs : FileSystem) (visit : Visit) (file : SourceFile) : Prop :=
  ∃ source, fs.source visit.path = .ok source ∧ file = visit.file source

theorem map_of_isFileOf {visits : List Visit} {files : List SourceFile}
    (h : List.Forall₂ fs.IsFileOf visits files) :
    files.map (fun file => (file.module, file.path)) =
      visits.map fun visit => (visit.module, visit.path) := by
  induction h with
  | nil => rfl
  | cons hof _ ih =>
    obtain ⟨_, _, rfl⟩ := hof
    rw [List.map_cons, List.map_cons, ih]
    rfl

/-- The files of a crate make a tree, in which the files under a file are those that its visit leads
to, in the same order. -/
theorem exists_tree {R : SourceFile → List SourceFile → Prop} {start : Visit}
    (hR : ∀ visit file inner, fs.Visits start visit → fs.IsFileOf visit file →
      List.Forall₂ fs.IsFileOf (fs.steps visit) inner → R file inner)
    {depth : Nat} {visit : Visit} {files : List SourceFile} (hvisit : fs.Visits start visit)
    (h : fs.filesFrom depth visit = .ok files) :
    ∃ tree : FileTree, fs.IsFileOf visit tree.file ∧ tree.Follows R ∧ tree.files = files := by
  induction depth generalizing visit files with
  | zero => cases h
  | succ depth ih =>
    obtain ⟨source, inner, hsource, hinner, rfl⟩ := filesFrom_eq_ok_iff.1 h
    -- One tree for each of the visits that follow.
    have htrees : ∀ {nexts : List Visit} {inner : List (List SourceFile)},
        List.Forall₂ (fun next files => fs.filesFrom depth next = .ok files) nexts inner →
        (∀ next ∈ nexts, fs.Visits start next) →
        ∃ trees : List FileTree, List.Forall₂ fs.IsFileOf nexts (trees.map FileTree.file) ∧
          (∀ tree ∈ trees, tree.Follows R) ∧ FileTree.allFiles trees = inner.flatten := by
      intro nexts inner hinner hvisits
      induction hinner with
      | nil => exact ⟨[], .nil, fun tree htree => absurd htree List.not_mem_nil, rfl⟩
      | @cons next files nexts inner hfiles _ ihrest =>
        obtain ⟨tree, hof, hfollows, rfl⟩ := ih (hvisits next List.mem_cons_self) hfiles
        obtain ⟨trees, hofs, hall, hflatten⟩ := ihrest fun other hother =>
          hvisits other (List.mem_cons_of_mem _ hother)
        refine ⟨tree :: trees, .cons hof hofs, List.forall_mem_cons.2 ⟨hfollows, hall⟩, ?_⟩
        rw [FileTree.allFiles, hflatten, List.flatten_cons]
    obtain ⟨trees, hofs, hall, hflatten⟩ := htrees hinner fun next hnext => hvisit.step hnext
    refine ⟨.node (visit.file source) trees, ⟨source, hsource, rfl⟩, ?_, ?_⟩
    · exact .node (hR visit _ _ hvisit ⟨source, hsource, rfl⟩ hofs) hall
    · rw [FileTree.files, hflatten]

/-- In a crate without places of its own every visit is laid out. -/
theorem isLaidOut_of_visits
    (hplain : ∀ visit source, fs.Visits (.root root) visit → fs.source visit.path = .ok source →
      HasPlainModules source.items) {visit : Visit} (h : fs.Visits (.root root) visit) :
    visit.IsLaidOut (Location.parent root) := by
  induction h with
  | start => exact ⟨fun name hname => absurd hname List.not_mem_nil, rfl⟩
  | @step visit next hvisit hnext ih =>
    obtain ⟨source, hsource, d, hd, hfollow⟩ := mem_steps_iff.1 hnext
    obtain ⟨found, hfind, rfl⟩ := Option.map_eq_some_iff.1 hfollow
    exact ih.step (Location.isTrimmed_parent root) (hplain visit source hvisit hsource)
      (wellNamed_of_source hsource) (fileModulesIn_subset _ hd) (List.mem_of_find?_eq_some hfind)

/-- The files under a file are those of the modules it declares without a body, in this order: each
has the module path of its declaration, and is the first that exists at the two places for it. -/
def LaidOut (fs : FileSystem) (rootDirectory : String) (file : SourceFile)
    (inner : List SourceFile) : Prop :=
  fs.source file.path = .ok file.source ∧
    inner.map (fun file => (file.module, file.path)) =
      (fileModulesIn [] file.source.items).filterMap fun d =>
        let module := (file.module.inside d.around).child d.content.name
        ((layoutPlaces rootDirectory module).find? fs.isFile).map fun place => (module, place)

theorem laidOut_of_isLaidOut {rootDirectory : String} {visit : Visit} {file : SourceFile}
    {inner : List SourceFile} (hvisit : visit.IsLaidOut rootDirectory)
    (hplain : HasPlainModules file.source.items) (hfile : fs.IsFileOf visit file)
    (hinner : List.Forall₂ fs.IsFileOf (fs.steps visit) inner) :
    fs.LaidOut rootDirectory file inner := by
  obtain ⟨source, hsource, rfl⟩ := hfile
  refine ⟨hsource, ?_⟩
  rw [map_of_isFileOf hinner, steps_of_source hsource, Visit.pending, pendingModules_eq,
    List.filterMap_map, List.map_filterMap]
  refine List.filterMap_congr fun d hd => ?_
  have hplaces := hvisit.places_eq hplain (wellNamed_of_source hsource)
    (fileModulesIn_subset _ hd) (visit.file source).gates
  show ((((d.pending visit.module visit.directory (visit.file source).gates).places).find?
    fs.isFile).map _).map _ = _
  rw [hplaces, Option.map_map]
  rfl

/-- In a crate without `path` attributes and modules called `r#mod`, the two places for the file of
a module are told by its module path, and loading yields the files that are found there, each before
those under it. -/
theorem layout
    (hplain : ∀ visit source, fs.Visits (.root root) visit → fs.source visit.path = .ok source →
      HasPlainModules source.items) :
    (∀ visit source, fs.Visits (.root root) visit → fs.source visit.path = .ok source →
      (visit.pending source).map (fun pending => (pending.module, pending.places)) =
        (fileModulesIn [] source.items).map fun d =>
          let module := (visit.module.inside d.around).child d.content.name
          (module, layoutPlaces (Location.parent root) module)) ∧
    ∀ depth crateName compilation fs',
      Compilation.runOn (Compilation.loadWithin disk depth crateName root) fs =
        (.ok compilation, fs') →
      ∃ tree : FileTree, tree.file.module = .root ∧ tree.file.path = root ∧
        tree.Follows (fs.LaidOut (Location.parent root)) ∧ compilation.files = tree.files := by
  constructor
  · intro visit source hvisit hsource
    rw [Visit.pending, pendingModules_eq, List.map_map]
    refine List.map_congr_left fun d hd => ?_
    exact Prod.ext rfl ((isLaidOut_of_visits hplain hvisit).places_eq
      (hplain visit source hvisit hsource) (wellNamed_of_source hsource)
      (fileModulesIn_subset _ hd) (visit.file source).gates)
  · intro depth crateName compilation fs' hload
    rw [Compilation.loadWithin_disk] at hload
    cases hfiles : fs.filesFrom depth (.root root) with
    | error failure => rw [hfiles] at hload; cases hload
    | ok files =>
      rw [hfiles] at hload
      cases hload
      obtain ⟨tree, ⟨source, -, hfile⟩, hfollows, rfl⟩ :=
        exists_tree (fun visit file inner hvisit hof hinner => by
          obtain ⟨source, hsource, rfl⟩ := hof
          exact laidOut_of_isLaidOut (isLaidOut_of_visits hplain hvisit)
            (hplain visit source hvisit hsource) ⟨source, hsource, rfl⟩ hinner) .start hfiles
      exact ⟨tree, by rw [hfile]; rfl, by rw [hfile]; rfl, hfollows, rfl⟩

end FileSystem

/-! ### A crate with files of all kinds -/

/-- A disk with a crate in which the module `a` has a file of its own name and `d` inside it a file
`mod.rs`, while `b` stands in braces. -/
def mixedDisk : FileSystem :=
  [(["work", "src"], Entry.directory), (["work", "src", "a"], .directory),
    (["work", "src", "a", "d"], .directory), (["work", "src", "b"], .directory),
    (["work", "src", "lib.rs"], .file "mod a; mod b \x7b mod c; \x7d".toUTF8),
    (["work", "src", "a.rs"], .file "mod d; mod gone;".toUTF8),
    (["work", "src", "a", "d", "mod.rs"], .file "mod e;".toUTF8),
    (["work", "src", "a", "d", "e.rs"], .file "".toUTF8),
    (["work", "src", "b", "c.rs"], .file "".toUTF8)].foldl
    (fun fs (place, entry) => fs.put place entry) (FileSystem.ofWorking "work")

/-- What is read of it, each file with its source. -/
def mixedReads : List (Visit × SourceText) :=
  let declared (name : String) : Item := .fileModule ⟨[], .inherited, name⟩
  [(.root "src/lib.rs",
      ⟨[], [declared "a", .inlineModule ⟨[], .inherited, "b"⟩ [declared "c"]]⟩),
    (⟨"src/a.rs", ⟨["a"]⟩, "src/a", []⟩, ⟨[], [declared "d", declared "gone"]⟩),
    (⟨"src/a/d/mod.rs", ⟨["a", "d"]⟩, "src/a/d", []⟩, ⟨[], [declared "e"]⟩),
    (⟨"src/a/d/e.rs", ⟨["a", "d", "e"]⟩, "src/a/d/e", []⟩, ⟨[], []⟩),
    (⟨"src/b/c.rs", ⟨["b", "c"]⟩, "src/b/c", []⟩, ⟨[], []⟩)]

instance (items : List Item) : Decidable (HasPlainModules items) :=
  inferInstanceAs (Decidable (∀ d ∈ _, _ ∧ _))

/-- What loading meets on the disk, and what comes of it. -/
theorem met_mixedDisk :
    (∀ read ∈ mixedReads, (mixedDisk.source read.1.path).toOption = some read.2 ∧
      HasPlainModules read.2.items ∧
      ∀ pending ∈ read.1.pending read.2, ∀ next ∈ mixedDisk.follow? pending,
        next ∈ mixedReads.map Prod.fst) ∧
    (Compilation.runOn (Compilation.loadWithin FileSystem.disk 4 "demo" "src/lib.rs")
      mixedDisk).1.toOption.map
        (fun compilation => compilation.files.map fun file => (file.module.text, file.path)) =
      some [("crate", "src/lib.rs"), ("crate::a", "src/a.rs"), ("crate::a::d", "src/a/d/mod.rs"),
        ("crate::a::d::e", "src/a/d/e.rs"), ("crate::b::c", "src/b/c.rs")] := by
  decide +kernel

theorem hasPlainModules_mixedDisk (visit : Visit) (source : SourceText)
    (hvisit : mixedDisk.Visits (.root "src/lib.rs") visit)
    (hsource : mixedDisk.source visit.path = .ok source) : HasPlainModules source.items := by
  have hreads : mixedDisk.Reads (.root "src/lib.rs") mixedReads := by
    refine ⟨List.mem_cons_self, fun read hread => ?_, fun read hread => ?_⟩
    · exact Except.toOption_eq_some.1 (met_mixedDisk.1 read hread).1
    · exact (met_mixedDisk.1 read hread).2.2
  obtain ⟨read, hread, rfl⟩ := hreads.exists_of_visits hvisit
  obtain rfl : read.2 = source := Except.ok.inj ((hreads.source read hread).symm.trans hsource)
  exact (met_mixedDisk.1 read hread).2.1

/-- Each file is where its module path says, and they come in the order of their declarations. -/
theorem layout_of_mixedDisk :
    ∃ tree : FileTree, tree.Follows (mixedDisk.LaidOut "src") ∧
      tree.files.map (fun file => (file.module.text, file.path)) =
        [("crate", "src/lib.rs"), ("crate::a", "src/a.rs"), ("crate::a::d", "src/a/d/mod.rs"),
          ("crate::a::d::e", "src/a/d/e.rs"), ("crate::b::c", "src/b/c.rs")] := by
  have hloaded := met_mixedDisk.2
  cases hload : Compilation.runOn
      (Compilation.loadWithin FileSystem.disk 4 "demo" "src/lib.rs") mixedDisk with
  | mk result fs =>
    rw [hload] at hloaded
    cases result with
    | error failure => cases hloaded
    | ok compilation =>
      obtain ⟨tree, -, -, hfollows, hfiles⟩ :=
        (FileSystem.layout hasPlainModules_mixedDisk).2 4 "demo" compilation fs hload
      refine ⟨tree, hfollows, ?_⟩
      rw [← hfiles]
      exact Option.some.inj hloaded

end DescriptionLookup
