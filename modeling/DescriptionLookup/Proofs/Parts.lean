import DescriptionLookup.Crate.Candidate
import DescriptionLookup.Crate.Loading
import DescriptionLookup.Proofs.Bodies
import Mathlib.Data.List.Basic

/-!
# The parts of a crate

What a file adds to its crate: the bodies of modules, of which the outlines count, and the enums in
them. Both belong to a module, and it matters in which order the parts of one module come, but not
how those of different modules are mixed.

* `partsOf`, `SourceFile.parts`: the parts, in the order of the text;
* `declaredModules`: the modules that are declared, and `mem_declared_of_mem_parts`: a part of a
  module elsewhere comes from a declaration;
* `SameParts`: the same parts for every module; `SameParts.sameBodies` and
  `SameParts.candidates` say what it means for a crate.
-/

namespace DescriptionLookup

/-! ### Modules inside each other -/

namespace ModulePath.IsWithin

variable {module around : ModulePath}

/-- The outermost module around one that is not around its parent is that module itself. -/
theorem eq_child {name : String} (h : (module.child name).IsWithin around)
    (hmodule : ¬ module.IsWithin around) : around = module.child name := by
  rcases List.prefix_concat_iff.1 h with heq | hprefix
  · cases around
    exact congrArg ModulePath.mk heq
  · exact absurd hprefix hmodule

theorem not_child (module : ModulePath) (name : String) : ¬ module.IsWithin (module.child name) := by
  intro h
  have hlength := List.IsPrefix.length_le h
  simp only [ModulePath.child, List.length_append, List.length_singleton] at hlength
  omega

end ModulePath.IsWithin

/-! ### Parts -/

/-- What an item adds to its crate. -/
inductive Part
  | body (outline : ModuleBody)
  /-- An enum, wherever its file is. -/
  | candidate (c : Candidate)

namespace Part

/-- The module that the part belongs to. -/
def module : Part → ModulePath
  | .body outline => outline.module
  | .candidate c => c.module

def body? : Part → Option ModuleBody
  | .body outline => some outline
  | .candidate _ => none

def candidate? : Part → Option Candidate
  | .body _ => none
  | .candidate c => some c

end Part

/-- The candidate without the file it was found in. -/
def Candidate.withoutFile (c : Candidate) : Candidate := { c with file := "" }

mutual

/-- The parts that an item of a module adds in the order of the text; `live` says whether enums
count, which they do outside of tests. -/
def Item.parts (module : ModulePath) (outer : List String) (live : Bool) : Item → List Part
  | .enumeration decl =>
    if live then [.candidate ⟨decl, module, "", outer ++ gates decl.attributes⟩] else []
  | .inlineModule head items =>
    .body (ModuleBody.outline ⟨module.child head.name, items⟩) ::
      partsOf (module.child head.name) (outer ++ gates head.attributes)
        (live && !isTestOnly head.attributes) items
  | _ => []

/-- The parts that the items of a module add. -/
def partsOf (module : ModulePath) (outer : List String) (live : Bool) : List Item → List Part
  | [] => []
  | item :: rest => Item.parts module outer live item ++ partsOf module outer live rest

end

/-- The parts that a file adds. -/
def SourceFile.parts (file : SourceFile) : List Part :=
  .body (ModuleBody.outline ⟨file.module, file.source.items⟩) ::
    partsOf file.module file.gates true file.source.items

theorem partsOf_append (module : ModulePath) (outer : List String) (live : Bool)
    (items items' : List Item) : partsOf module outer live (items ++ items') =
      partsOf module outer live items ++ partsOf module outer live items' := by
  induction items with
  | nil => rfl
  | cons item rest ih => rw [List.cons_append, partsOf, partsOf, ih, List.append_assoc]

mutual

theorem Item.bodies_parts (module : ModulePath) (outer : List String) (live : Bool) (item : Item) :
    (Item.parts module outer live item).filterMap Part.body? =
      (Item.bodies module item).map ModuleBody.outline := by
  cases item with
  | enumeration decl =>
    rw [Item.parts]
    split <;> rfl
  | inlineModule head items =>
    exact congrArg (_ :: ·) (bodies_partsOf _ _ _ items)
  | _ => rfl

/-- The bodies among the parts. -/
theorem bodies_partsOf (module : ModulePath) (outer : List String) (live : Bool)
    (items : List Item) : (partsOf module outer live items).filterMap Part.body? =
      (innerBodies module items).map ModuleBody.outline := by
  cases items with
  | nil => rfl
  | cons item rest =>
    rw [partsOf, innerBodies, List.filterMap_append, List.map_append,
      Item.bodies_parts module outer live item, bodies_partsOf module outer live rest]

end

mutual

theorem Item.candidates_parts (file : String) (module : ModulePath) (outer : List String)
    (live : Bool) (item : Item) :
    (Item.parts module outer live item).filterMap Part.candidate? =
      if live then (Candidate.ofItem file module outer item).map Candidate.withoutFile else [] := by
  cases item with
  | enumeration decl => cases live <;> rfl
  | inlineModule head items =>
    refine (candidates_partsOf file _ _ _ items).trans ?_
    rw [Candidate.ofItem]
    cases live <;> cases isTestOnly head.attributes <;> rfl
  | _ => cases live <;> rfl

/-- The enums among the parts. -/
theorem candidates_partsOf (file : String) (module : ModulePath) (outer : List String)
    (live : Bool) (items : List Item) :
    (partsOf module outer live items).filterMap Part.candidate? =
      if live then (Candidate.ofItems file module outer items).map Candidate.withoutFile
      else [] := by
  cases items with
  | nil => cases live <;> rfl
  | cons item rest =>
    rw [partsOf, Candidate.ofItems, List.filterMap_append,
      Item.candidates_parts file module outer live item,
      candidates_partsOf file module outer live rest]
    cases live
    · rfl
    · exact (List.map_append ..).symm

end

mutual

theorem Item.within_of_mem_parts (module : ModulePath) (outer : List String) (live : Bool)
    (item : Item) : ∀ part ∈ Item.parts module outer live item, part.module.IsWithin module := by
  cases item with
  | enumeration decl =>
    intro part hpart
    rw [Item.parts] at hpart
    split at hpart
    · rw [List.mem_singleton.1 hpart]
      exact .refl module
    · cases hpart
  | inlineModule head items =>
    have hchild := ModulePath.IsWithin.child module head.name
    intro part hpart
    rcases List.mem_cons.1 hpart with rfl | hpart
    · exact hchild
    · exact (within_of_mem_partsOf _ _ _ items part hpart).trans hchild
  | _ => exact fun part hpart => absurd hpart List.not_mem_nil

/-- What the items of a module add is inside the module. -/
theorem within_of_mem_partsOf (module : ModulePath) (outer : List String) (live : Bool)
    (items : List Item) : ∀ part ∈ partsOf module outer live items,
      part.module.IsWithin module := by
  cases items with
  | nil => exact fun part hpart => absurd hpart List.not_mem_nil
  | cons item rest =>
    intro part hpart
    rcases List.mem_append.1 hpart with hpart | hpart
    · exact Item.within_of_mem_parts module outer live item part hpart
    · exact within_of_mem_partsOf module outer live rest part hpart

end

/-! ### Declared modules -/

mutual

/-- The modules that an item of a module declares. -/
def Item.declared (module : ModulePath) : Item → List ModulePath
  | .inlineModule head items =>
    module.child head.name :: declaredModules (module.child head.name) items
  | .fileModule head => [module.child head.name]
  | _ => []

/-- The modules that are declared among the items of a module, and inside those. -/
def declaredModules (module : ModulePath) : List Item → List ModulePath
  | [] => []
  | item :: rest => Item.declared module item ++ declaredModules module rest

end

/-- The modules that a file declares. -/
def SourceFile.declared (file : SourceFile) : List ModulePath :=
  declaredModules file.module file.source.items

/-- The modules that a crate declares, as often as it does. -/
def Compilation.declared (compilation : Compilation) : List ModulePath :=
  compilation.files.flatMap SourceFile.declared

theorem declaredModules_append (module : ModulePath) (items items' : List Item) :
    declaredModules module (items ++ items') =
      declaredModules module items ++ declaredModules module items' := by
  induction items with
  | nil => rfl
  | cons item rest ih =>
    rw [List.cons_append, declaredModules, declaredModules, ih, List.append_assoc]

section Declared

variable {around : ModulePath}

mutual

theorem Item.mem_declared_of_mem_parts {module : ModulePath} {outer : List String} {live : Bool}
    {item : Item} {part : Part} (hpart : part ∈ Item.parts module outer live item)
    (hwithin : part.module.IsWithin around) (hmodule : ¬ module.IsWithin around) :
    around ∈ Item.declared module item := by
  cases item with
  | enumeration decl =>
    rw [Item.parts] at hpart
    split at hpart
    · rw [List.mem_singleton.1 hpart] at hwithin
      exact absurd hwithin hmodule
    · cases hpart
  | inlineModule head items =>
    by_cases hchild : (module.child head.name).IsWithin around
    · rw [hchild.eq_child hmodule]
      exact List.mem_cons_self
    · rcases List.mem_cons.1 hpart with rfl | hpart
      · exact absurd hwithin hchild
      · exact List.mem_cons_of_mem _ (mem_declared_of_mem_partsOf hpart hwithin hchild)
  | _ => cases hpart

/-- Where a part of a module comes from elsewhere, the module is declared there. -/
theorem mem_declared_of_mem_partsOf {module : ModulePath} {outer : List String} {live : Bool}
    {items : List Item} {part : Part} (hpart : part ∈ partsOf module outer live items)
    (hwithin : part.module.IsWithin around) (hmodule : ¬ module.IsWithin around) :
    around ∈ declaredModules module items := by
  cases items with
  | nil => cases hpart
  | cons item rest =>
    rcases List.mem_append.1 hpart with hpart | hpart
    · exact List.mem_append_left _ (Item.mem_declared_of_mem_parts hpart hwithin hmodule)
    · exact List.mem_append_right _ (mem_declared_of_mem_partsOf hpart hwithin hmodule)

end

theorem SourceFile.mem_declared_of_mem_parts {file : SourceFile} {part : Part}
    (hpart : part ∈ file.parts) (hwithin : part.module.IsWithin around)
    (hfile : ¬ file.module.IsWithin around) : around ∈ file.declared := by
  rcases List.mem_cons.1 hpart with rfl | hpart
  · exact absurd hwithin hfile
  · exact mem_declared_of_mem_partsOf hpart hwithin hfile

mutual

theorem Item.mem_declared_of_mem_pending {module : ModulePath} {directory : String}
    {outer : List String} {item : Item} {pending : PendingModule}
    (h : pending ∈ Item.pending module directory outer item)
    (hwithin : pending.module.IsWithin around) (hmodule : ¬ module.IsWithin around) :
    around ∈ Item.declared module item := by
  cases item with
  | inlineModule head items =>
    rw [Item.pending] at h
    split at h
    · cases h
    · by_cases hchild : (module.child head.name).IsWithin around
      · rw [hchild.eq_child hmodule]
        exact List.mem_cons_self
      · exact List.mem_cons_of_mem _ (mem_declared_of_mem_pendingModules h hwithin hchild)
  | fileModule head =>
    rw [Item.pending] at h
    split at h
    · cases h
    · rw [List.mem_singleton.1 h] at hwithin
      rw [hwithin.eq_child hmodule]
      exact List.mem_cons_self
  | _ => cases h

/-- A module without a body is declared. -/
theorem mem_declared_of_mem_pendingModules {module : ModulePath} {directory : String}
    {outer : List String} {items : List Item} {pending : PendingModule}
    (h : pending ∈ pendingModules module directory outer items)
    (hwithin : pending.module.IsWithin around) (hmodule : ¬ module.IsWithin around) :
    around ∈ declaredModules module items := by
  cases items with
  | nil => cases h
  | cons item rest =>
    rcases List.mem_append.1 h with h | h
    · exact List.mem_append_left _ (Item.mem_declared_of_mem_pending h hwithin hmodule)
    · exact List.mem_append_right _ (mem_declared_of_mem_pendingModules h hwithin hmodule)

end

end Declared

/-! ### The same parts of every module -/

/-- For every module the same parts come in the same order. -/
def SameParts (parts parts' : List Part) : Prop :=
  ∀ module, parts.filter (·.module = module) = parts'.filter (·.module = module)

namespace SameParts

variable {parts parts' more more' : List Part}

theorem refl (parts : List Part) : SameParts parts parts := fun _ => rfl

theorem append (h : SameParts parts parts') (h' : SameParts more more') :
    SameParts (parts ++ more) (parts' ++ more') := by
  intro module
  rw [List.filter_append, List.filter_append, h module, h' module]

theorem trans {parts'' : List Part} (h : SameParts parts parts') (h' : SameParts parts' parts'') :
    SameParts parts parts'' :=
  fun module => (h module).trans (h' module)

/-- Parts inside a module and parts outside of it can change places. -/
theorem comm {around : ModulePath} (h : ∀ part ∈ parts, part.module.IsWithin around)
    (h' : ∀ part ∈ more, ¬ part.module.IsWithin around) :
    SameParts (parts ++ more) (more ++ parts) := by
  intro module
  rw [List.filter_append, List.filter_append]
  by_cases hmodule : module.IsWithin around
  · have hmore : more.filter (·.module = module) = [] :=
      List.filter_eq_nil_iff.2 fun part hpart heq => h' part hpart (of_decide_eq_true heq ▸ hmodule)
    rw [hmore, List.append_nil, List.nil_append]
  · have hparts : parts.filter (·.module = module) = [] :=
      List.filter_eq_nil_iff.2 fun part hpart heq => hmodule (of_decide_eq_true heq ▸ h part hpart)
    rw [hparts, List.append_nil, List.nil_append]

/-- What is read off the parts of one module is the same. -/
theorem filterMap_eq {β : Type} {read : Part → Option β} {moduleOf : β → ModulePath}
    (hread : ∀ part b, read part = some b → moduleOf b = part.module) (h : SameParts parts parts')
    (module : ModulePath) :
    (parts.filterMap read).filter (moduleOf · = module) =
      (parts'.filterMap read).filter (moduleOf · = module) := by
  have hfilter : ∀ parts : List Part, (parts.filterMap read).filter (moduleOf · = module) =
      (parts.filter (·.module = module)).filterMap read := by
    intro parts
    induction parts with
    | nil => rfl
    | cons part rest ih =>
      cases hpart : read part with
      | none =>
        rw [List.filterMap_cons_none hpart, ih, List.filter_cons]
        split
        · rw [List.filterMap_cons_none hpart]
        · rfl
      | some b =>
        rw [List.filterMap_cons_some hpart, List.filter_cons, List.filter_cons, hread part b hpart,
          ih]
        split
        · rw [List.filterMap_cons_some hpart]
        · rfl
  rw [hfilter, hfilter, h module]

end SameParts

/-! ### Crates with the same parts -/

theorem SourceFile.bodies_parts (file : SourceFile) :
    file.parts.filterMap Part.body? = file.bodies.map ModuleBody.outline :=
  congrArg (_ :: ·) (bodies_partsOf _ _ _ file.source.items)

theorem SourceFile.candidates_parts (file : SourceFile) :
    file.parts.filterMap Part.candidate? =
      (Candidate.ofFile file).map Candidate.withoutFile :=
  candidates_partsOf file.path _ _ _ file.source.items

namespace Compilation

/-- The parts of a crate, file by file. -/
def parts (compilation : Compilation) : List Part := compilation.files.flatMap SourceFile.parts

theorem bodies_parts (compilation : Compilation) :
    compilation.parts.filterMap Part.body? = compilation.bodies.map ModuleBody.outline := by
  rw [parts, bodies, List.filterMap_flatMap, List.map_flatMap]
  exact congrArg compilation.files.flatMap (funext SourceFile.bodies_parts)

theorem candidates_parts (compilation : Compilation) :
    compilation.parts.filterMap Part.candidate? =
      compilation.candidates.map Candidate.withoutFile := by
  rw [parts, candidates, List.filterMap_flatMap, List.map_flatMap]
  exact congrArg compilation.files.flatMap (funext SourceFile.candidates_parts)

variable {compilation compilation' : Compilation}

/-- Crates with the same parts have the same tables. -/
theorem sameBodies_of_sameParts (h : SameParts compilation.parts compilation'.parts)
    (hexterns : compilation.externs = compilation'.externs) : SameBodies compilation compilation' where
  externs := hexterns
  bodies module := by
    have hbody : ∀ part body, Part.body? part = some body → body.module = part.module := by
      intro part body h
      cases part with
      | body outline => cases h; rfl
      | candidate c => cases h
    have hfilter := h.filterMap_eq hbody module
    rw [bodies_parts, bodies_parts, List.filter_map, List.filter_map] at hfilter
    exact hfilter

/-- Crates with the same parts have the same enums in every module. -/
theorem candidates_of_sameParts (h : SameParts compilation.parts compilation'.parts)
    (module : ModulePath) :
    (compilation.candidates.filter (·.module = module)).map Candidate.withoutFile =
      (compilation'.candidates.filter (·.module = module)).map Candidate.withoutFile := by
  have hcandidate : ∀ part c, Part.candidate? part = some c → c.module = part.module := by
    intro part c h
    cases part with
    | body outline => cases h
    | candidate c => cases h; rfl
  have hfilter := h.filterMap_eq hcandidate module
  rw [candidates_parts, candidates_parts, List.filter_map, List.filter_map] at hfilter
  exact hfilter

end Compilation

end DescriptionLookup
