import DescriptionLookup.Proofs.Reordering

/-!
# Files in another order

The files of a crate may be added in any order, as long as no module gets its body from two of them.
The tables of extern crates are the same as well, although every file reads and extends them: what
the root declares does not depend on the crates that are known under their own names, and what any
other module declares is no more than such a crate.

* `sameParts_of_perm`: files with different modules can change places;
* `Compilation.generate_perm`: a pass over the files in another order.
-/

namespace DescriptionLookup

/-! ### Files with different modules -/

/-- The modules that a file has bodies of. -/
def SourceFile.modules (file : SourceFile) : List ModulePath := file.bodies.map ModuleBody.module

mutual

theorem Item.exists_body_of_mem_parts {module : ModulePath} {outer : List String} {live : Bool}
    {item : Item} {part : Part} (h : part ∈ Item.parts module outer live item) :
    part.module = module ∨ ∃ body ∈ Item.bodies module item, body.module = part.module := by
  cases item with
  | enumeration decl =>
    rw [Item.parts] at h
    split at h
    · exact .inl (congrArg Part.module (List.mem_singleton.1 h))
    · cases h
  | inlineModule head items =>
    rcases List.mem_cons.1 h with rfl | h
    · exact .inr ⟨_, List.mem_cons_self, rfl⟩
    · exact .inr (exists_body_of_mem_partsOf items h)
  | _ => cases h

/-- A part belongs to the module of a body. -/
theorem exists_body_of_mem_partsOf {module : ModulePath} {outer : List String} {live : Bool}
    {items : List Item} {part : Part} (own : List Item)
    (h : part ∈ partsOf module outer live items) :
    ∃ body ∈ ModuleBody.mk module own :: innerBodies module items, body.module = part.module := by
  cases items with
  | nil => cases h
  | cons item rest =>
    rcases List.mem_append.1 h with h | h
    · rcases Item.exists_body_of_mem_parts h with hmodule | ⟨body, hbody, hmodule⟩
      · exact ⟨_, List.mem_cons_self, hmodule.symm⟩
      · exact ⟨body, List.mem_cons_of_mem _ (List.mem_append_left _ hbody), hmodule⟩
    · obtain ⟨body, hbody, hmodule⟩ := exists_body_of_mem_partsOf own h
      rcases List.mem_cons.1 hbody with rfl | hbody
      · exact ⟨_, List.mem_cons_self, hmodule⟩
      · exact ⟨body, List.mem_cons_of_mem _ (List.mem_append_right _ hbody), hmodule⟩

end

theorem SourceFile.module_mem_modules {file : SourceFile} {part : Part} (h : part ∈ file.parts) :
    part.module ∈ file.modules := by
  rcases List.mem_cons.1 h with rfl | h
  · exact List.mem_cons_self
  · obtain ⟨body, hbody, hmodule⟩ := exists_body_of_mem_partsOf file.source.items h
    exact hmodule ▸ List.mem_map_of_mem hbody

/-- Two files that have no module in common can change places. -/
theorem SameParts.swap {file other : SourceFile} (h : file.modules.Disjoint other.modules)
    (more : List Part) :
    SameParts (file.parts ++ (other.parts ++ more)) (other.parts ++ (file.parts ++ more)) := by
  intro module
  have hnone : ∀ file : SourceFile, module ∉ file.modules →
      file.parts.filter (·.module = module) = [] := fun file hfile =>
    List.filter_eq_nil_iff.2 fun part hpart heq =>
      hfile (of_decide_eq_true heq ▸ SourceFile.module_mem_modules hpart)
  simp only [List.filter_append]
  by_cases hmodule : module ∈ file.modules
  · rw [hnone other fun hother => h hmodule hother, List.nil_append, List.nil_append]
  · rw [hnone file hmodule, List.nil_append, List.nil_append]

/-- In whatever order such files come, the parts of every module are the same. -/
theorem sameParts_of_perm {files files' : List SourceFile} (h : files.Perm files')
    (hown : files.Pairwise fun file other => file.modules.Disjoint other.modules) :
    SameParts (files.flatMap SourceFile.parts) (files'.flatMap SourceFile.parts) := by
  induction h with
  | nil => exact .refl []
  | cons file _ ih =>
    simp only [List.flatMap_cons]
    exact (SameParts.refl file.parts).append (ih hown.of_cons)
  | swap file other rest =>
    simp only [List.flatMap_cons]
    exact .swap (List.rel_of_pairwise_cons hown List.mem_cons_self) _
  | trans h _ ih ih' =>
    have hsymm {file other : SourceFile} (hdisjoint : file.modules.Disjoint other.modules) :
        other.modules.Disjoint file.modules := fun _ hmem hmem' => hdisjoint hmem' hmem
    have hown' := (h.pairwise_iff hsymm).1 hown
    exact (ih hown).trans (ih' hown')

/-! ### Passes -/

namespace Compilation

/-- No module gets its body from two files. -/
def HasOwnModules (compilation : Compilation) : Prop :=
  compilation.files.Pairwise fun file other => file.modules.Disjoint other.modules

/-- If the files of a crate are added in another order, a pass fails in the same way or reports the
same enums, and every path of every module stands for the same. -/
theorem generate_perm {compilation : Compilation} (hown : compilation.HasOwnModules)
    {files : List SourceFile} (h : compilation.files.Perm files) (configuration : Configuration) :
    SameReports (compilation.generate configuration)
        ({ compilation with files }.generate configuration) ∧
      ∀ module path, compilation.symbolTable.resolve module path =
        { compilation with files }.symbolTable.resolve module path := by
  have hparts : SameParts compilation.parts { compilation with files }.parts :=
    sameParts_of_perm h hown
  exact ⟨sameReports_of_sameParts hparts rfl rfl configuration,
    (sameBodies_of_sameParts hparts rfl).resolve_eq⟩

end Compilation

/-! ### A crate in two files -/

/-- The root file of a crate, which names the extern crate `macros` by `marks`. -/
def aliasFile : SourceFile where
  path := "lib.rs"
  module := .root
  gates := []
  source := ⟨[], [.fileModule ⟨[], .everywhere, "a"⟩, .externCrate "macros" "marks"]⟩

/-- The file of the module `a`, which declares `marks` as an extern crate, and an enum that derives
`marks::Describe`. -/
def aliasUser : SourceFile where
  path := "a.rs"
  module := ⟨["a"]⟩
  gates := []
  source := ⟨[], [.externCrate "marks" "marks",
    .enumeration ⟨[⟨.ofName "derive", .list .parenthesis [.word "marks" .start,
      .mark ':' true .start, .mark ':' false .start, .word "Describe" .start]⟩],
      .everywhere, "Kind", [], [], [⟨[], "One", true⟩]⟩]⟩

/-- If the file of the module comes first, `marks` is known as a crate of its own before the root
makes it a name of `macros`. The enum is described all the same. -/
theorem generate_perm_of_alias :
    let compilation := (((Compilation.empty "demo").addExtern "macros" "macros").addFile
      aliasUser).addFile aliasFile
    let configuration : Configuration := { marker := "macros::Describe" }
    compilation.HasOwnModules ∧ compilation.files.Perm [aliasFile, aliasUser] ∧
      (compilation.generate configuration).toOption.map PassResult.described =
        some [⟨⟨.here, ["a", "Kind"]⟩, .derived, []⟩] ∧
      SameReports (compilation.generate configuration)
        ({ compilation with files := [aliasFile, aliasUser] }.generate configuration) := by
  intro compilation configuration
  have hown : compilation.HasOwnModules :=
    .cons (fun other hother module hmodule hmodule' => by
      obtain rfl := List.mem_singleton.1 hother
      simp [SourceFile.modules, SourceFile.bodies, innerBodies, Item.bodies, aliasUser, aliasFile,
        ModulePath.root] at hmodule hmodule'
      simp [hmodule] at hmodule') (List.pairwise_singleton ..)
  have hperm : compilation.files.Perm [aliasFile, aliasUser] := .swap aliasFile aliasUser []
  exact ⟨hown, hperm, by decide +kernel, (Compilation.generate_perm hown hperm configuration).1⟩

end DescriptionLookup
