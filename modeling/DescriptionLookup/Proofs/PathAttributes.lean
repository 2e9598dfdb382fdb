import DescriptionLookup.Proofs.Layout

/-!
# Where `path` attributes lead

The compiler has two directories for a file: the one the file is in, and the one for its children. A
`path` attribute starts from the first, unless it stands inside modules in braces, and a file that
was found through a `path` attribute has its children beside it. Loading knows the second directory
alone, and computes it from the name of the file.

* `Arrival`, `FileSystem.Arrives`: how loading got to a file;
* `ruledPlaces`: the places that the rules of the language give for the file of a module;
* `FileSystem.places_eq_ruled_iff`: when these are the places where loading looks.

`path_beside_ignored` is a crate for which they are not.
-/

namespace DescriptionLookup

open Location (isAbsolute join opening)
open Grammar (IsSegment)

/-! ### The rules -/

/-- What the file of a module was found by. -/
inductive Arrival
  /-- It is the root file. -/
  | root
  /-- By the name of the module. -/
  | named
  /-- By a `path` attribute of the module. -/
  | placed
deriving DecidableEq

/-- Where places for a module start from, but for the modules in braces around it. -/
def ruledBase (file : String) (arrival : Arrival) (d : Enclosed ModuleHead) : String :=
  if arrival ≠ .named ∨ (location? d.content.attributes ≠ none ∧ d.around = []) then
    Location.parent file
  else childDirectory file

/-- The places for a module that a file declares without a body. -/
def ruledPlaces (file : String) (arrival : Arrival) (d : Enclosed ModuleHead) : List String :=
  modulePlaces (directoryInside (ruledBase file arrival d) d.around) d.content

/-! ### What was found how -/

namespace FileSystem

variable {fs : FileSystem} {root : String} {visit : Visit} {arrival : Arrival}

/-- A visit of a crate, and how its file was found. -/
inductive Arrives (fs : FileSystem) (root : String) : Visit → Arrival → Prop
  | root : Arrives fs root (.root root) .root
  | step {visit next : Visit} {arrival : Arrival} {source : SourceText} {d : Enclosed ModuleHead} :
    Arrives fs root visit arrival → fs.source visit.path = .ok source →
    d ∈ fileModulesIn [] source.items →
    fs.follow? (d.pending visit.module visit.directory (visit.file source).gates) = some next →
    Arrives fs root next (if location? d.content.attributes = none then .named else .placed)

/-- The files that loading visits are those that were found somehow. -/
theorem visits_iff_exists_arrives :
    fs.Visits (.root root) visit ↔ ∃ arrival, fs.Arrives root visit arrival := by
  constructor
  · intro h
    induction h with
    | start => exact ⟨.root, .root⟩
    | @step visit next _ hnext ih =>
      obtain ⟨arrival, harrives⟩ := ih
      obtain ⟨source, hsource, d, hd, hfollow⟩ := mem_steps_iff.1 hnext
      exact ⟨_, harrives.step hsource hd hfollow⟩
  · rintro ⟨arrival, h⟩
    induction h with
    | root => exact .start
    | step _ hsource hd hfollow ih =>
      exact ih.step (mem_steps_iff.2 ⟨_, hsource, _, hd, hfollow⟩)

/-- Whatever a file was found by, its children are looked for by its name, unless it is the root. -/
theorem Arrives.directory_eq (h : fs.Arrives root visit arrival) :
    visit.directory =
      if arrival = .root then Location.parent visit.path else childDirectory visit.path := by
  cases h with
  | root => rfl
  | @step _ _ _ _ d _ _ _ hfollow =>
    obtain ⟨found, -, rfl⟩ := Option.map_eq_some_iff.1 hfollow
    by_cases hlocation : location? d.content.attributes = none
    · rw [if_pos hlocation]
      rfl
    · rw [if_neg hlocation]
      rfl

end FileSystem

/-! ### Directories and places -/

namespace Location

theorem stemOf_suffix (name : String) :
    stemOf name = name ∨ ∃ rest, rest ≠ [] ∧ rest <:+ name.toList.reverse ∧
      stemOf name = String.ofList rest.reverse := by
  cases hrest : (name.toList.reverse.dropWhile (· != '.')).drop 1 with
  | nil => exact .inl (by simp only [stemOf, hrest])
  | cons c rest =>
    refine .inr ⟨c :: rest, List.cons_ne_nil _ _, ?_, by simp only [stemOf, hrest]⟩
    rw [← hrest]
    exact (List.drop_suffix _ _).trans (List.dropWhile_suffix _)

/-- The name of a file without its extension is a name. -/
theorem stemOf_spec {name : String} (hne : name ≠ "") (hslash : '/' ∉ name.toList) :
    stemOf name ≠ "" ∧ '/' ∉ (stemOf name).toList := by
  rcases stemOf_suffix name with hstem | ⟨rest, hrest, hsuffix, hstem⟩
  · rw [hstem]
    exact ⟨hne, hslash⟩
  · rw [hstem]
    refine ⟨by simpa using hrest, fun hmem => hslash ?_⟩
    rw [String.toList_ofList, List.mem_reverse] at hmem
    exact List.mem_reverse.1 (hsuffix.mem hmem)

theorem spec_of_name? {path name : String} (h : name? path = some name) :
    name ≠ "" ∧ '/' ∉ name.toList := by
  rw [name?_eq] at h
  obtain ⟨piece, hpiece, hname⟩ := Option.bind_eq_some_iff.1 h
  split at hname
  · cases hname
  · cases hname
    obtain ⟨hmem, hvoid⟩ := List.mem_filter.1 (List.mem_of_getLast? hpiece)
    refine ⟨?_, by rw [String.toList_ofList]; exact slash_notMem_of_mem_pieces hmem⟩
    rintro hempty
    rw [← String.toList_inj, String.toList_ofList] at hempty
    rw [hempty] at hvoid
    cases hvoid

/-- The children of a file are beside it only if it is called `mod.rs`. -/
theorem opening_childDirectory_eq_iff (file : String) :
    opening (childDirectory file) = opening (parent file) ↔
      name? file = none ∨ name? file = some "mod.rs" := by
  unfold childDirectory stem?
  cases hname : name? file with
  | none => simp
  | some name =>
    by_cases hmod : name = "mod.rs"
    · simp [hmod]
    · obtain ⟨hne, hslash⟩ := spec_of_name? hname
      obtain ⟨hstem, hstemSlash⟩ := stemOf_spec hne hslash
      rw [if_neg (by simpa using hmod), Option.map_some]
      dsimp only
      rw [opening_join _ hstem hstemSlash]
      simp only [reduceCtorEq, Option.some.injEq, hmod, or_self, iff_false]
      -- there is at least one more slash
      intro heq
      have hlength := congrArg String.length heq
      simp only [String.length_append] at hlength
      have hslash : "/".length = 1 := rfl
      omega

end Location

/-- Plain modules in braces lead further by the same names, wherever one comes from. -/
theorem exists_opening_directoryInside {around : List ModuleHead}
    (h : ∀ head ∈ around, location? head.attributes = none ∧ IsPlainName (unraw head.name)) :
    ∃ rest, ∀ directory,
      opening (directoryInside directory around) = opening directory ++ rest := by
  induction around with
  | nil => exact ⟨"", fun directory => (String.append_empty).symm⟩
  | cons head more ih =>
    obtain ⟨rest, hrest⟩ := ih fun other hother => h other (List.mem_cons_of_mem _ hother)
    obtain ⟨hlocation, hname⟩ := h head List.mem_cons_self
    refine ⟨unraw head.name ++ "/" ++ rest, fun directory => ?_⟩
    show opening (directoryInside (innerDirectory directory head) more) = _
    rw [hrest, innerDirectory, hlocation, Option.getD_none,
      Location.opening_join _ hname.notEmpty hname.slash]
    simp only [String.append_assoc]

/-- Different directories make different places. -/
theorem modulePlaces_eq_iff {head : ModuleHead}
    (hrelative : ∀ path ∈ location? head.attributes, isAbsolute path = false)
    (hname : IsPlainName (unraw head.name)) (directory directory' : String) :
    modulePlaces directory head = modulePlaces directory' head ↔
      opening directory = opening directory' := by
  unfold modulePlaces
  cases hlocation : location? head.attributes with
  | some path =>
    have hpath := hrelative path hlocation
    simp only [List.cons.injEq, and_true, Location.join_eq _ hpath]
    exact String.append_left_inj path
  | none =>
    have hmod : isAbsolute "mod.rs" = false := by decide
    simp only [List.cons.injEq, and_true, Location.join_eq _ hname.isFileName_rs.isAbsolute,
      Location.join_eq _ hmod, Location.opening_join _ hname.notEmpty hname.slash]
    constructor
    · rintro ⟨hfirst, -⟩
      exact (String.append_left_inj _).1 hfirst
    · intro heq
      rw [heq]
      exact ⟨rfl, rfl⟩

namespace FileSystem

variable {fs : FileSystem} {root : String} {visit : Visit} {arrival : Arrival}
  {source : SourceText} {d : Enclosed ModuleHead}

/-- Loading looks where the rules say for all modules of a root file or a `mod.rs`. From another
file it does so if the file was found by the name of its module, and then for modules in braces and
those without a `path` attribute. Otherwise it looks somewhere else. -/
theorem places_eq_ruled_iff (harrives : fs.Arrives root visit arrival)
    (hsource : fs.source visit.path = .ok source) (hd : d ∈ fileModulesIn [] source.items)
    (haround : ∀ head ∈ d.around, location? head.attributes = none)
    (hrelative : ∀ path ∈ location? d.content.attributes, isAbsolute path = false) :
    (d.pending visit.module visit.directory (visit.file source).gates).places =
        ruledPlaces visit.path arrival d ↔
      arrival = .root ∨
      (Location.name? visit.path = none ∨ Location.name? visit.path = some "mod.rs") ∨
      arrival = .named ∧ (location? d.content.attributes = none ∨ d.around ≠ []) := by
  have hnamed := wellNamed_of_source hsource
  have hmem := fileModulesIn_subset _ hd
  have hname := isPlainName_unraw (isSegment_of_mem_modulesIn hnamed hmem)
  obtain ⟨rest, hrest⟩ := exists_opening_directoryInside fun head hhead =>
    ⟨haround head hhead, isPlainName_of_mem_around hnamed hmem hhead⟩
  show modulePlaces (directoryInside visit.directory d.around) d.content = _ ↔ _
  -- What the places begin with decides, and the modules in braces are the same on both sides.
  rw [ruledPlaces, modulePlaces_eq_iff hrelative hname, hrest, hrest, String.append_left_inj,
    harrives.directory_eq, ruledBase]
  cases arrival with
  | root => simp
  | named =>
    by_cases hplace : location? d.content.attributes ≠ none ∧ d.around = []
    · have hout : ¬ (location? d.content.attributes = none ∨ d.around ≠ []) := by
        rintro (hnone | haway)
        · exact hplace.1 hnone
        · exact haway hplace.2
      simp [hplace, Location.opening_childDirectory_eq_iff]
    · have hout : location? d.content.attributes = none ∨ d.around ≠ [] := by
        by_contra hnot
        exact hplace ⟨fun hnone => hnot (.inl hnone), not_not.1 fun haway => hnot (.inr haway)⟩
      simp [hplace, hout]
  | placed => simp [Location.opening_childDirectory_eq_iff]

end FileSystem

/-! ### A file beside another one -/

/-- A disk with a crate whose module `a` has a file of its own name, in which `b` is said to be in
the file `b.rs`. -/
def besideDisk : FileSystem :=
  [(["work", "src"], Entry.directory),
    (["work", "src", "lib.rs"], .file "mod a;".toUTF8),
    (["work", "src", "a.rs"], .file "#[path = \"b.rs\"] mod b;".toUTF8),
    (["work", "src", "b.rs"], .file "".toUTF8)].foldl
    (fun fs (place, entry) => fs.put place entry) (FileSystem.ofWorking "work")

/-- The declaration of `a`. -/
def besideOuter : ModuleHead := ⟨[], .inherited, "a"⟩

/-- The visit of the file of `a`. -/
def besideVisit : Visit := ⟨"src/a.rs", ⟨["a"]⟩, "src/a", []⟩

/-- The declaration of `b`. -/
def besideInner : ModuleHead where
  attributes := [⟨.ofName "path", .value ⟨.text "b.rs", [.literal "\"b.rs\"" .start]⟩⟩]
  visibility := .inherited
  name := "b"

/-- What loading meets on the disk. -/
theorem met_besideDisk :
    (besideDisk.source "src/lib.rs").toOption = some ⟨[], [.fileModule besideOuter]⟩ ∧
    (besideDisk.source "src/a.rs").toOption = some ⟨[], [.fileModule besideInner]⟩ ∧
    besideDisk.follow? (Enclosed.pending .root "src" [] ⟨[], besideOuter⟩) = some besideVisit ∧
    besideDisk.isFile "src/b.rs" = true := by
  decide +kernel

theorem arrives_besideVisit : besideDisk.Arrives "src/lib.rs" besideVisit .named := by
  obtain ⟨hroot, -, hfollow, -⟩ := met_besideDisk
  exact .step .root (Except.toOption_eq_some.1 hroot) (List.mem_singleton.2 rfl) hfollow

/-- For this module loading does not look where the rules say. -/
theorem places_of_besideInner :
    (Enclosed.pending besideVisit.module besideVisit.directory [] ⟨[], besideInner⟩).places ≠
      ruledPlaces "src/a.rs" .named ⟨[], besideInner⟩ := by
  have hsource := Except.toOption_eq_some.1 met_besideDisk.2.1
  refine mt (FileSystem.places_eq_ruled_iff arrives_besideVisit hsource (List.mem_singleton.2 rfl)
    (fun head hhead => absurd hhead List.not_mem_nil) ?_).1 ?_
  · decide
  · decide

/-- Loading looks for the file in a directory of the name of `a`, and not beside it, where it is. -/
theorem path_beside_ignored :
    besideDisk.Arrives "src/lib.rs" besideVisit .named ∧
      besideDisk.source "src/a.rs" = .ok ⟨[], [.fileModule besideInner]⟩ ∧
      location? besideInner.attributes = some "b.rs" ∧
      (besideVisit.pending ⟨[], [.fileModule besideInner]⟩).map PendingModule.places =
        [["src/a/b.rs"]] ∧
      join (Location.parent "src/a.rs") "b.rs" = "src/b.rs" ∧
      besideDisk.isFile "src/b.rs" = true :=
  ⟨arrives_besideVisit, Except.toOption_eq_some.1 met_besideDisk.2.1, by decide, by decide,
    by decide, met_besideDisk.2.2.2⟩

end DescriptionLookup
