import DescriptionLookup.Crate.Candidate
import DescriptionLookup.Crate.Loading
import DescriptionLookup.Names.Table

/-!
# Items inside modules in braces

A file holds items, and modules in braces with items of their own. Scanning, loading and the symbol
table walk through them in three recursions, each of which hands on what it needs: a module path,
gates, a directory. Here the items of a file are listed once, with the modules in braces around
them, and the three recursions are readings of this list.

* `Enclosed`, `enclosedItems`: the items of a file with what is around them;
* `ofItems_eq`: the candidates are the enums that are not inside modules for tests;
* `pendingModules_eq`: the modules to be loaded, each with the places for its file;
* `exists_body_iff`: the items of module bodies are those of the file.
-/

namespace DescriptionLookup

/-! ### Around an item -/

/-- Something in a file, and the modules in braces around it. -/
structure Enclosed (α : Type) where
  /-- The modules in braces, the outermost first. -/
  around : List ModuleHead
  content : α

/-- The module inside these modules in braces. -/
def ModulePath.inside (module : ModulePath) (around : List ModuleHead) : ModulePath :=
  ⟨module.segments ++ around.map ModuleHead.name⟩

/-- One of the modules in braces is there for tests alone. -/
def isInTests (around : List ModuleHead) : Bool := around.any fun head => isTestOnly head.attributes

/-- The gates of modules in braces, the outermost first. -/
def gatesAround (around : List ModuleHead) : List String :=
  around.flatMap fun head => gates head.attributes

@[simp] theorem ModulePath.inside_nil (module : ModulePath) : module.inside [] = module := by
  simp [inside]

@[simp] theorem ModulePath.inside_cons (module : ModulePath) (head : ModuleHead)
    (around : List ModuleHead) :
    module.inside (head :: around) = (module.child head.name).inside around := by
  simp [inside, child]

theorem ModulePath.inside_append_singleton (module : ModulePath) (around : List ModuleHead)
    (head : ModuleHead) :
    module.inside (around ++ [head]) = (module.inside around).child head.name := by
  simp [inside, child]

@[simp] theorem isInTests_nil : isInTests [] = false := rfl

theorem isInTests_append_singleton (around : List ModuleHead) (head : ModuleHead) :
    isInTests (around ++ [head]) = (isInTests around || isTestOnly head.attributes) := by
  simp [isInTests]

@[simp] theorem gatesAround_nil : gatesAround [] = [] := rfl

theorem gatesAround_append_singleton (around : List ModuleHead) (head : ModuleHead) :
    gatesAround (around ++ [head]) = gatesAround around ++ gates head.attributes := by
  simp [gatesAround]

mutual

/-- An item and what it holds, in the order of the text; `around` is around the item. -/
def Item.enclosed (around : List ModuleHead) : Item → List (Enclosed Item)
  | .inlineModule head items =>
    ⟨around, .inlineModule head items⟩ :: enclosedItems (around ++ [head]) items
  | item => [⟨around, item⟩]

/-- Items and what they hold, in the order of the text. -/
def enclosedItems (around : List ModuleHead) : List Item → List (Enclosed Item)
  | [] => []
  | item :: rest => Item.enclosed around item ++ enclosedItems around rest

end

namespace Enclosed

/-- An enum that is not inside a module for tests. -/
def enum? (e : Enclosed Item) : Option (Enclosed EnumDecl) :=
  match e.content with
  | .enumeration decl => if isInTests e.around then none else some ⟨e.around, decl⟩
  | _ => none

/-- A module, in braces or not. -/
def module? (e : Enclosed Item) : Option (Enclosed ModuleHead) :=
  match e.content with
  | .inlineModule head _ | .fileModule head => some ⟨e.around, head⟩
  | _ => none

theorem around_of_module? {e : Enclosed Item} {d : Enclosed ModuleHead} (h : e.module? = some d) :
    d.around = e.around := by
  unfold module? at h
  split at h <;> cases h <;> rfl

/-- A module without a body that is neither there for tests nor inside a module that is. -/
def fileModule? (e : Enclosed Item) : Option (Enclosed ModuleHead) :=
  match e.content with
  | .fileModule head =>
    if isInTests (e.around ++ [head]) then none else some ⟨e.around, head⟩
  | _ => none

end Enclosed

/-- The enums among items, those for tests left out. -/
def enumsIn (around : List ModuleHead) (items : List Item) : List (Enclosed EnumDecl) :=
  (enclosedItems around items).filterMap Enclosed.enum?

/-- All modules among items. -/
def modulesIn (around : List ModuleHead) (items : List Item) : List (Enclosed ModuleHead) :=
  (enclosedItems around items).filterMap Enclosed.module?

/-- The modules without a body among items, those for tests left out. -/
def fileModulesIn (around : List ModuleHead) (items : List Item) : List (Enclosed ModuleHead) :=
  (enclosedItems around items).filterMap Enclosed.fileModule?

theorem fileModulesIn_subset (items : List Item) : fileModulesIn [] items ⊆ modulesIn [] items := by
  intro d hd
  obtain ⟨e, he, hfile⟩ := List.mem_filterMap.1 hd
  refine List.mem_filterMap.2 ⟨e, he, ?_⟩
  unfold Enclosed.fileModule? at hfile
  split at hfile
  · next hcontent =>
    split at hfile <;> cases hfile
    simp only [Enclosed.module?, hcontent]
  · cases hfile

/-! ### What is around an item -/

section Around

mutual

theorem Item.exists_around_eq (around : List ModuleHead) (item : Item) {e : Enclosed Item}
    (he : e ∈ item.enclosed around) : ∃ inner, e.around = around ++ inner := by
  cases item with
  | inlineModule head items =>
    rcases List.mem_cons.1 he with rfl | he
    · exact ⟨[], (List.append_nil around).symm⟩
    · obtain ⟨inner, hinner⟩ := exists_around_eq (around ++ [head]) items he
      exact ⟨head :: inner, by rw [hinner, List.append_assoc, List.singleton_append]⟩
  | _ =>
    cases List.mem_singleton.1 he
    exact ⟨[], (List.append_nil around).symm⟩

theorem exists_around_eq (around : List ModuleHead) (items : List Item) {e : Enclosed Item}
    (he : e ∈ enclosedItems around items) : ∃ inner, e.around = around ++ inner := by
  cases items with
  | nil => cases he
  | cons item rest =>
    rcases List.mem_append.1 he with he | he
    · exact Item.exists_around_eq around item he
    · exact exists_around_eq around rest he

end

mutual

theorem Item.mem_modules_of_around (around : List ModuleHead) (item : Item) {e : Enclosed Item}
    {outer inner : List ModuleHead} {head : ModuleHead} (he : e ∈ item.enclosed around)
    (haround : e.around = around ++ (outer ++ head :: inner)) :
    ⟨around ++ outer, head⟩ ∈ (item.enclosed around).filterMap Enclosed.module? := by
  cases item with
  | inlineModule first items =>
    simp only [Item.enclosed, List.filterMap_cons, Enclosed.module?]
    rcases List.mem_cons.1 he with rfl | he
    · simp at haround
    · obtain ⟨inner', hinner'⟩ := exists_around_eq (around ++ [first]) items he
      have hheads : first :: inner' = outer ++ head :: inner := by
        rw [hinner', List.append_assoc, List.append_right_inj] at haround
        exact haround
      -- The module is this one, or it is inside this one.
      cases outer with
      | nil =>
        cases hheads
        simp
      | cons other outer =>
        cases hheads
        refine List.mem_cons_of_mem _ ?_
        have hmem : ⟨around ++ [first] ++ outer, head⟩ ∈ modulesIn (around ++ [first]) items :=
          mem_modulesIn_of_around (around ++ [first]) items he (by simpa using haround)
        rwa [List.append_assoc, List.singleton_append] at hmem
  | _ =>
    cases List.mem_singleton.1 he
    simp at haround

/-- A module around an item is among the modules. -/
theorem mem_modulesIn_of_around (around : List ModuleHead) (items : List Item)
    {e : Enclosed Item} {outer inner : List ModuleHead} {head : ModuleHead}
    (he : e ∈ enclosedItems around items)
    (haround : e.around = around ++ (outer ++ head :: inner)) :
    ⟨around ++ outer, head⟩ ∈ modulesIn around items := by
  cases items with
  | nil => cases he
  | cons item rest =>
    rw [modulesIn, enclosedItems, List.filterMap_append]
    rcases List.mem_append.1 he with he | he
    · exact List.mem_append_left _ (Item.mem_modules_of_around around item he haround)
    · exact List.mem_append_right _ (mem_modulesIn_of_around around rest he haround)

end

/-- A module in braces is a module with some modules around it. -/
theorem exists_mem_modulesIn_of_mem_around {items : List Item} {d : Enclosed ModuleHead}
    (hd : d ∈ modulesIn [] items) {head : ModuleHead} (hhead : head ∈ d.around) :
    ∃ outer, ⟨outer, head⟩ ∈ modulesIn [] items := by
  obtain ⟨e, he, hmodule⟩ := List.mem_filterMap.1 hd
  obtain ⟨outer, inner, hsplit⟩ := List.append_of_mem hhead
  rw [Enclosed.around_of_module? hmodule] at hsplit
  exact ⟨outer, mem_modulesIn_of_around [] items he hsplit⟩

end Around

/-! ### Scanning -/

/-- The candidate that an enum is, in a file with these gates that is the body of this module. -/
def Enclosed.candidate (file : String) (module : ModulePath) (outer : List String)
    (e : Enclosed EnumDecl) : Candidate where
  decl := e.content
  module := module.inside e.around
  file
  gates := outer ++ gatesAround e.around ++ gates e.content.attributes

section Scanning

variable (file : String) (module : ModulePath) (outer : List String)

mutual

theorem Item.map_candidate (around : List ModuleHead) (item : Item) :
    ((item.enclosed around).filterMap Enclosed.enum?).map (Enclosed.candidate file module outer) =
      if isInTests around then []
      else Candidate.ofItem file (module.inside around) (outer ++ gatesAround around) item := by
  cases item with
  | enumeration decl =>
    simp only [Item.enclosed, List.filterMap_cons, List.filterMap_nil, Enclosed.enum?]
    cases isInTests around <;> rfl
  | inlineModule head items =>
    have hinner := map_candidate (around ++ [head]) items
    rw [isInTests_append_singleton, ModulePath.inside_append_singleton,
      gatesAround_append_singleton, ← List.append_assoc] at hinner
    rw [Item.enclosed, Candidate.ofItem]
    refine hinner.trans ?_
    cases isInTests around <;> cases isTestOnly head.attributes <;> rfl
  | _ => exact (ite_self _).symm

theorem map_candidate (around : List ModuleHead) (items : List Item) :
    (enumsIn around items).map (Enclosed.candidate file module outer) =
      if isInTests around then []
      else Candidate.ofItems file (module.inside around) (outer ++ gatesAround around) items := by
  cases items with
  | nil => exact (ite_self _).symm
  | cons item rest =>
    rw [enumsIn, enclosedItems, List.filterMap_append, List.map_append,
      Item.map_candidate around item, ← enumsIn, map_candidate around rest, Candidate.ofItems]
    split <;> rfl

end

/-- The candidates are the enums. -/
theorem ofItems_eq (items : List Item) :
    Candidate.ofItems file module outer items =
      (enumsIn [] items).map (Enclosed.candidate file module outer) := by
  simpa using (map_candidate file module outer [] items).symm

end Scanning

/-! ### Loading -/

/-- The directory of the files of child modules inside modules in braces. -/
def directoryInside (directory : String) (around : List ModuleHead) : String :=
  around.foldl innerDirectory directory

/-- The module to be loaded that is declared without a body, in a file with these gates that is the
body of this module and has the files of child modules in this directory. -/
def Enclosed.pending (module : ModulePath) (directory : String) (outer : List String)
    (e : Enclosed ModuleHead) : PendingModule where
  module := (module.inside e.around).child e.content.name
  places := modulePlaces (directoryInside directory e.around) e.content
  gates := outer ++ gatesAround e.around ++ gates e.content.attributes

section Loading

variable (module : ModulePath) (directory : String) (outer : List String)

mutual

theorem Item.map_pending (around : List ModuleHead) (item : Item) :
    ((item.enclosed around).filterMap Enclosed.fileModule?).map
        (Enclosed.pending module directory outer) =
      if isInTests around then []
      else Item.pending (module.inside around) (directoryInside directory around)
        (outer ++ gatesAround around) item := by
  cases item with
  | inlineModule head items =>
    have hinner := map_pending (around ++ [head]) items
    rw [isInTests_append_singleton, ModulePath.inside_append_singleton,
      gatesAround_append_singleton, ← List.append_assoc, directoryInside, List.foldl_append]
      at hinner
    rw [Item.enclosed, Item.pending]
    refine hinner.trans ?_
    cases isInTests around <;> cases isTestOnly head.attributes <;> rfl
  | fileModule head =>
    simp only [Item.enclosed, List.filterMap_cons, List.filterMap_nil, Enclosed.fileModule?,
      isInTests_append_singleton, Item.pending]
    cases isInTests around <;> cases isTestOnly head.attributes <;> rfl
  | _ => exact (ite_self _).symm

theorem map_pending (around : List ModuleHead) (items : List Item) :
    (fileModulesIn around items).map (Enclosed.pending module directory outer) =
      if isInTests around then []
      else pendingModules (module.inside around) (directoryInside directory around)
        (outer ++ gatesAround around) items := by
  cases items with
  | nil => exact (ite_self _).symm
  | cons item rest =>
    rw [fileModulesIn, enclosedItems, List.filterMap_append, List.map_append,
      Item.map_pending around item, ← fileModulesIn, map_pending around rest, pendingModules]
    split <;> rfl

end

/-- The modules to be loaded are those that are declared without a body. -/
theorem pendingModules_eq (items : List Item) :
    pendingModules module directory outer items =
      (fileModulesIn [] items).map (Enclosed.pending module directory outer) := by
  simpa [directoryInside] using (map_pending module directory outer [] items).symm

end Loading

/-! ### Bodies -/

section Bodies

variable {module place : ModulePath} {item : Item}

mutual

theorem Item.exists_enclosed_iff (around : List ModuleHead) (other : Item) :
    (∃ e ∈ other.enclosed around, module.inside e.around = place ∧ e.content = item) ↔
      (module.inside around = place ∧ item = other) ∨
        ∃ body ∈ Item.bodies (module.inside around) other, body.module = place ∧
          item ∈ body.items := by
  cases other with
  | inlineModule head items =>
    rw [Item.enclosed, Item.bodies, ← ModulePath.inside_append_singleton,
      ← exists_enclosed_iff (around ++ [head]) items]
    simp only [List.mem_cons, or_and_right, exists_or, exists_eq_left, eq_comm (a := item)]
  | _ => simp [Item.enclosed, Item.bodies, eq_comm (a := item)]

theorem exists_enclosed_iff (around : List ModuleHead) (items : List Item) :
    (∃ e ∈ enclosedItems around items, module.inside e.around = place ∧ e.content = item) ↔
      ∃ body ∈ ModuleBody.mk (module.inside around) items ::
          innerBodies (module.inside around) items,
        body.module = place ∧ item ∈ body.items := by
  cases items with
  | nil => simp [enclosedItems, innerBodies]
  | cons other rest =>
    have hother := Item.exists_enclosed_iff around other
    have hrest := exists_enclosed_iff around rest
    rw [enclosedItems, innerBodies]
    simp only [List.mem_append, or_and_right, and_or_left, exists_or, exists_eq_left, List.mem_cons]
      at hother hrest ⊢
    rw [hother, hrest]
    simp only [or_assoc, or_left_comm]

end

/-- The items of module bodies are those of the file, each in the module that its place makes. -/
theorem exists_body_iff (items : List Item) :
    (∃ body ∈ ModuleBody.mk module items :: innerBodies module items,
        body.module = place ∧ item ∈ body.items) ↔
      ∃ e ∈ enclosedItems [] items, module.inside e.around = place ∧ e.content = item := by
  simpa using (exists_enclosed_iff [] items).symm

end Bodies

end DescriptionLookup
