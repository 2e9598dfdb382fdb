import DescriptionLookup.Proofs.Regions
import DescriptionLookup.Proofs.Selections

/-!
# Modules for tests alone

A module gated for tests is no part of the crate, but its body in braces is collected into the
symbol table like any other. `withoutTests` deletes these modules. The enums of the crate are the
same without them; of the table three things are not:

* a module that shares its path with a test module has the bindings of both, and is hidden if one of
  them is;
* the name of the test module is bound in the module around it;
* an extern crate that a test declares is known everywhere.

`Compilation.TestsApart` says that nothing the pass asks for depends on these, and
`generate_withoutTests` that then the answer is the same. `shadowed_by_tests` shows that the second
module of one path is enough for another answer.
-/

namespace DescriptionLookup

/-! ### Deleting test modules -/

mutual

/-- An item without the test modules in it; nothing, if it is one. -/
def Item.withoutTests : Item → List Item
  | .inlineModule head items =>
    if isTestOnly head.attributes then [] else [.inlineModule head (withoutTests items)]
  | item => [item]

/-- Items without the modules in braces that are there for tests alone, at any depth. -/
def withoutTests : List Item → List Item
  | [] => []
  | item :: rest => Item.withoutTests item ++ withoutTests rest

end

/-- A body without test modules. -/
def ModuleBody.withoutTests (body : ModuleBody) : ModuleBody :=
  { body with items := DescriptionLookup.withoutTests body.items }

/-- A file without test modules. -/
def SourceFile.withoutTests (file : SourceFile) : SourceFile :=
  { file with
    source := { file.source with items := DescriptionLookup.withoutTests file.source.items } }

/-- A crate without test modules. -/
def Compilation.withoutTests (compilation : Compilation) : Compilation :=
  { compilation with files := compilation.files.map SourceFile.withoutTests }

mutual

/-- The test modules that an item is or holds. What is inside a test module is not looked at. -/
def Item.testModules (module : ModulePath) : Item → List ModulePath
  | .inlineModule head items =>
    if isTestOnly head.attributes then [module.child head.name]
    else testModules (module.child head.name) items
  | _ => []

/-- The test modules among the items of a module. -/
def testModules (module : ModulePath) : List Item → List ModulePath
  | [] => []
  | item :: rest => Item.testModules module item ++ testModules module rest

end

/-- The test modules of a crate. -/
def Compilation.testModules (compilation : Compilation) : List ModulePath :=
  compilation.files.flatMap fun file =>
    DescriptionLookup.testModules file.module file.source.items

mutual

/-- The bodies in braces that an item is or holds, apart from those of test modules and those in
them. -/
def Item.ordinaryBodies (module : ModulePath) : Item → List ModuleBody
  | .inlineModule head items =>
    if isTestOnly head.attributes then []
    else ⟨module.child head.name, items⟩ :: ordinaryBodies (module.child head.name) items
  | _ => []

/-- The bodies in braces among items, apart from those of test modules and those in them. -/
def ordinaryBodies (module : ModulePath) : List Item → List ModuleBody
  | [] => []
  | item :: rest => Item.ordinaryBodies module item ++ ordinaryBodies module rest

end

/-- The bodies of a crate that are neither of test modules nor in them. -/
def Compilation.ordinaryBodies (compilation : Compilation) : List ModuleBody :=
  compilation.files.flatMap fun file =>
    ⟨file.module, file.source.items⟩ ::
      DescriptionLookup.ordinaryBodies file.module file.source.items

/-! ### Enums -/

namespace Candidate

theorem ofItems_append (file : String) (module : ModulePath) (outer : List String)
    (items items' : List Item) :
    ofItems file module outer (items ++ items') =
      ofItems file module outer items ++ ofItems file module outer items' := by
  induction items with
  | nil => rfl
  | cons item rest ih => rw [List.cons_append, ofItems, ofItems, ih, List.append_assoc]

mutual

theorem ofItem_withoutTests (file : String) (module : ModulePath) (outer : List String)
    (item : Item) :
    ofItems file module outer item.withoutTests = ofItem file module outer item := by
  cases item with
  | inlineModule head items =>
    by_cases htest : isTestOnly head.attributes = true
    · simp [Item.withoutTests, ofItem, ofItems, htest]
    · simp [Item.withoutTests, ofItem, ofItems, htest, ofItems_withoutTests file _ _ items]
  | _ => simp [Item.withoutTests, ofItems]

theorem ofItems_withoutTests (file : String) (module : ModulePath) (outer : List String)
    (items : List Item) :
    ofItems file module outer (withoutTests items) = ofItems file module outer items := by
  cases items with
  | nil => rfl
  | cons item rest =>
    rw [withoutTests, ofItems_append, ofItem_withoutTests file module outer item,
      ofItems_withoutTests file module outer rest, ofItems]

end

end Candidate

/-- The enums of a crate are the same without its test modules. -/
theorem Compilation.candidates_withoutTests (compilation : Compilation) :
    compilation.withoutTests.candidates = compilation.candidates := by
  simp only [candidates, withoutTests, List.flatMap_map]
  congr 1
  funext file
  exact Candidate.ofItems_withoutTests ..

/-! ### Bodies -/

mutual

theorem Item.bodies_withoutTests (module : ModulePath) (item : Item) :
    innerBodies module item.withoutTests =
      (Item.ordinaryBodies module item).map ModuleBody.withoutTests := by
  cases item with
  | inlineModule head items =>
    by_cases htest : isTestOnly head.attributes = true
    · simp [Item.withoutTests, Item.ordinaryBodies, innerBodies, htest]
    · simp [Item.withoutTests, Item.ordinaryBodies, innerBodies, Item.bodies, htest,
        innerBodies_withoutTests _ items, ModuleBody.withoutTests]
  | _ => simp [Item.withoutTests, Item.ordinaryBodies, innerBodies, Item.bodies]

theorem innerBodies_withoutTests (module : ModulePath) (items : List Item) :
    innerBodies module (withoutTests items) =
      (ordinaryBodies module items).map ModuleBody.withoutTests := by
  cases items with
  | nil => rfl
  | cons item rest =>
    rw [withoutTests, innerBodies_append, Item.bodies_withoutTests module item,
      innerBodies_withoutTests module rest, ordinaryBodies, List.map_append]

end

/-- The bodies of the crate without its tests are the ordinary ones, without tests. -/
theorem Compilation.bodies_withoutTests (compilation : Compilation) :
    compilation.withoutTests.bodies =
      compilation.ordinaryBodies.map ModuleBody.withoutTests := by
  simp only [bodies, withoutTests, ordinaryBodies, List.flatMap_map, List.map_flatMap]
  congr 1
  funext file
  show _ :: innerBodies _ (DescriptionLookup.withoutTests _) = _
  rw [innerBodies_withoutTests]
  rfl

mutual

theorem Item.isRoot_of_mem_testModules (module : ModulePath) (item : Item) :
    ∀ test ∈ Item.testModules module item, test.isRoot = false := by
  cases item with
  | inlineModule head items =>
    simp only [Item.testModules]
    split
    · simp [ModulePath.child, ModulePath.isRoot]
    · exact isRoot_of_mem_testModules _ items
  | _ => exact fun test htest => absurd htest (List.not_mem_nil)

theorem isRoot_of_mem_testModules (module : ModulePath) (items : List Item) :
    ∀ test ∈ testModules module items, test.isRoot = false := by
  cases items with
  | nil => exact fun test htest => absurd htest (List.not_mem_nil)
  | cons item rest =>
    intro test htest
    rcases List.mem_append.1 htest with htest | htest
    · exact Item.isRoot_of_mem_testModules module item test htest
    · exact isRoot_of_mem_testModules module rest test htest

end

/-- The module is neither one of these nor inside one. -/
def ModulePath.IsOutside (module : ModulePath) (tests : List ModulePath) : Prop :=
  ∀ test ∈ tests, ¬ module.IsWithin test

instance (module : ModulePath) (tests : List ModulePath) : Decidable (module.IsOutside tests) :=
  inferInstanceAs (Decidable (∀ test ∈ tests, ¬ module.IsWithin test))

mutual

theorem Item.ordinaryBodies_subset (module : ModulePath) (item : Item) :
    Item.ordinaryBodies module item ⊆ Item.bodies module item := by
  cases item with
  | inlineModule head items =>
    simp only [Item.ordinaryBodies, Item.bodies]
    split
    · exact List.nil_subset _
    · exact List.cons_subset_cons _ (ordinaryBodies_subset _ items)
  | _ => exact List.Subset.refl _

theorem ordinaryBodies_subset (module : ModulePath) (items : List Item) :
    ordinaryBodies module items ⊆ innerBodies module items := by
  cases items with
  | nil => exact List.Subset.refl _
  | cons item rest =>
    exact List.append_subset.2
      ⟨List.subset_append_of_subset_left _ (Item.ordinaryBodies_subset module item),
        List.subset_append_of_subset_right _ (ordinaryBodies_subset module rest)⟩

end

mutual

theorem Item.filter_ordinaryBodies {module inner : ModulePath} (item : Item)
    (h : inner.IsOutside (Item.testModules module item)) :
    (Item.ordinaryBodies module item).filter (·.module = inner) =
      (Item.bodies module item).filter (·.module = inner) := by
  cases item with
  | inlineModule head items =>
    by_cases htest : isTestOnly head.attributes = true
    · simp only [Item.testModules, if_pos htest] at h
      have hout := h _ (List.mem_singleton.2 rfl)
      simp only [Item.ordinaryBodies, if_pos htest, List.filter_nil]
      symm
      simp only [List.filter_eq_nil_iff, decide_eq_true_eq]
      rintro body hbody rfl
      rcases List.mem_cons.1 hbody with rfl | hbody
      · exact hout (List.prefix_refl _)
      · exact hout (within_of_mem_innerBodies _ items body hbody)
    · simp only [Item.testModules, if_neg htest] at h
      simp only [Item.ordinaryBodies, Item.bodies, if_neg htest, List.filter_cons,
        filter_ordinaryBodies items h]
  | _ => rfl

theorem filter_ordinaryBodies {module inner : ModulePath} (items : List Item)
    (h : inner.IsOutside (testModules module items)) :
    (ordinaryBodies module items).filter (·.module = inner) =
      (innerBodies module items).filter (·.module = inner) := by
  cases items with
  | nil => rfl
  | cons item rest =>
    have hitem : inner.IsOutside (Item.testModules module item) :=
      fun test htest => h test (List.mem_append_left _ htest)
    have hrest : inner.IsOutside (testModules module rest) :=
      fun test htest => h test (List.mem_append_right _ htest)
    rw [ordinaryBodies, innerBodies, List.filter_append, List.filter_append,
      Item.filter_ordinaryBodies item hitem, filter_ordinaryBodies rest hrest]

end

mutual

theorem Item.testModules_of_mem (module : ModulePath) (item : Item) :
    ∀ body ∈ Item.ordinaryBodies module item,
      testModules body.module body.items ⊆ Item.testModules module item := by
  cases item with
  | inlineModule head items =>
    by_cases htest : isTestOnly head.attributes = true
    · simp [Item.ordinaryBodies, htest]
    · simp only [Item.ordinaryBodies, Item.testModules, if_neg htest]
      intro body hbody
      rcases List.mem_cons.1 hbody with rfl | hbody
      · exact List.Subset.refl _
      · exact testModules_of_mem _ items body hbody
  | _ => exact fun body hbody => absurd hbody (List.not_mem_nil)

theorem testModules_of_mem (module : ModulePath) (items : List Item) :
    ∀ body ∈ ordinaryBodies module items,
      testModules body.module body.items ⊆ testModules module items := by
  cases items with
  | nil => exact fun body hbody => absurd hbody (List.not_mem_nil)
  | cons item rest =>
    intro body hbody
    rcases List.mem_append.1 hbody with hbody | hbody
    · exact List.subset_append_of_subset_left _ (Item.testModules_of_mem module item body hbody)
    · exact List.subset_append_of_subset_right _ (testModules_of_mem module rest body hbody)

end

namespace Compilation

variable {compilation : Compilation} {module : ModulePath}

/-- A module outside the test modules has ordinary bodies alone. -/
theorem filter_ordinaryBodies (h : module.IsOutside compilation.testModules) :
    compilation.ordinaryBodies.filter (·.module = module) =
      compilation.bodies.filter (·.module = module) := by
  unfold ordinaryBodies bodies
  rw [List.filter_flatMap, List.filter_flatMap]
  refine List.flatMap_congr fun file hfile => ?_
  have hfile : module.IsOutside (DescriptionLookup.testModules file.module file.source.items) :=
    fun test htest => h test (List.mem_flatMap.2 ⟨file, hfile, htest⟩)
  have hbodies := DescriptionLookup.filter_ordinaryBodies file.source.items hfile
  simp only [SourceFile.bodies, List.filter_cons, hbodies]

theorem ordinaryBodies_subset (compilation : Compilation) :
    compilation.ordinaryBodies ⊆ compilation.bodies := by
  intro body hbody
  obtain ⟨file, hfile, hmem⟩ := List.mem_flatMap.1 hbody
  exact List.mem_flatMap.2 ⟨file, hfile,
    List.cons_subset_cons _ (DescriptionLookup.ordinaryBodies_subset _ _) hmem⟩

theorem testModules_of_mem {body : ModuleBody} (h : body ∈ compilation.ordinaryBodies) :
    DescriptionLookup.testModules body.module body.items ⊆ compilation.testModules := by
  obtain ⟨file, hfile, hbody⟩ := List.mem_flatMap.1 h
  intro test htest
  refine List.mem_flatMap.2 ⟨file, hfile, ?_⟩
  rcases List.mem_cons.1 hbody with rfl | hbody
  · exact htest
  · exact DescriptionLookup.testModules_of_mem file.module file.source.items body hbody htest

theorem isOutside_root (compilation : Compilation) :
    ModulePath.root.IsOutside compilation.testModules := by
  intro test htest hwithin
  obtain ⟨file, -, hmem⟩ := List.mem_flatMap.1 htest
  have hroot := isRoot_of_mem_testModules file.module file.source.items test hmem
  rw [ModulePath.isRoot, List.prefix_nil.1 hwithin] at hroot
  cases hroot

/-- A body of a module outside the test modules is an ordinary one. -/
theorem mem_ordinaryBodies {body : ModuleBody} (h : body.module.IsOutside compilation.testModules)
    (hbody : body ∈ compilation.bodies) : body ∈ compilation.ordinaryBodies := by
  have hmem : body ∈ compilation.bodies.filter (·.module = body.module) :=
    List.mem_filter.2 ⟨hbody, by simp⟩
  rw [← filter_ordinaryBodies h] at hmem
  exact (List.mem_filter.1 hmem).1

end Compilation

/-- An item is a test module, or what is left of it has the same outline. -/
theorem Item.isTest_or_kept (item : Item) :
    (∃ head items, item = .inlineModule head items ∧ isTestOnly head.attributes = true ∧
      item.withoutTests = []) ∨
    ∃ kept, item.withoutTests = [kept] ∧ kept.outline = item.outline := by
  cases item with
  | inlineModule head items =>
    by_cases htest : isTestOnly head.attributes = true
    · exact Or.inl ⟨head, items, rfl, htest, by simp [Item.withoutTests, htest]⟩
    · exact Or.inr ⟨.inlineModule head (DescriptionLookup.withoutTests items),
        by simp [Item.withoutTests, htest], rfl⟩
  | _ => exact Or.inr ⟨_, rfl, rfl⟩

/-! ### Scopes -/

/-- Two scopes bind the same, except that a child module which only the second one binds is called
by none of these names. -/
structure Scope.SameFor (names : String → Prop) (scope scope' : Scope) : Prop where
  items : scope.items = scope'.items
  modules : ∀ name, names name → (name ∈ scope.modules ↔ name ∈ scope'.modules)
  imports : scope.imports = scope'.imports
  globs : scope.globs = scope'.globs

namespace Scope.SameFor

variable {names : String → Prop} {scope scope' : Scope}

theorem refl (names : String → Prop) (scope : Scope) : SameFor names scope scope :=
  ⟨rfl, fun _ _ => Iff.rfl, rfl, rfl⟩

theorem addImports (h : SameFor names scope scope') (absolute : Bool) (imports : List Import) :
    SameFor names (imports.foldl (addImport absolute) scope)
      (imports.foldl (addImport absolute) scope') := by
  induction imports generalizing scope scope' with
  | nil => exact h
  | cons first rest ih =>
    refine ih ?_
    cases first with
    | single binding path => exact ⟨h.items, h.modules, by simp [addImport, h.imports], h.globs⟩
    | glob path => exact ⟨h.items, h.modules, h.imports, by simp [addImport, h.globs]⟩

theorem addModule (h : SameFor names scope scope') (module : String) :
    SameFor names { scope with modules := scope.modules ++ [module] }
      { scope' with modules := scope'.modules ++ [module] } := by
  refine ⟨h.items, fun name hname => ?_, h.imports, h.globs⟩
  rw [List.mem_append, List.mem_append, h.modules name hname]

theorem addItem (h : SameFor names scope scope') (item : Item) :
    SameFor names (scope.addItem item) (scope'.addItem item) := by
  cases item with
  | enumeration decl => exact ⟨by simp [Scope.addItem, h.items], h.modules, h.imports, h.globs⟩
  | inlineModule head items => exact h.addModule head.name
  | fileModule head => exact h.addModule head.name
  | imports absolute tree => exact h.addImports absolute _
  | externCrate name binding =>
    simp only [Scope.addItem, addExternCrate]
    split
    · exact h
    · exact ⟨h.items, h.modules, by simp only [h.imports], h.globs⟩
  | named kind name => exact ⟨by simp [Scope.addItem, h.items], h.modules, h.imports, h.globs⟩
  | irregular => exact h
  | unnamed => exact h

/-- A module by none of the names makes no difference. -/
theorem addForeignModule (h : SameFor names scope scope') {head : ModuleHead}
    (hhead : ¬ names head.name) (items : List Item) :
    SameFor names scope (scope'.addItem (.inlineModule head items)) := by
  refine ⟨h.items, fun name hname => ?_, h.imports, h.globs⟩
  have hne : name ≠ head.name := fun heq => hhead (heq ▸ hname)
  rw [h.modules name hname, Scope.addItem, List.mem_append, List.mem_singleton]
  exact (or_iff_left hne).symm

/-- A body without its tests binds the same, if no test module is called by one of the names. -/
theorem addItems (h : SameFor names scope scope') {module : ModulePath} {items : List Item}
    (hitems : ∀ test ∈ testModules module items, ∀ name, names name →
      test.segments.getLast? ≠ some name) :
    SameFor names (scope.addItems (withoutTests items)) (scope'.addItems items) := by
  induction items generalizing scope scope' with
  | nil => exact h
  | cons item rest ih =>
    have hrest := fun test htest => hitems test (List.mem_append_right _ htest)
    have hone : SameFor names (scope.addItems item.withoutTests) (scope'.addItem item) := by
      rcases item.isTest_or_kept with ⟨head, inner, rfl, htest, hnone⟩ | ⟨kept, hkept, houtline⟩
      · rw [hnone]
        refine h.addForeignModule (fun hname => ?_) inner
        have hmem : module.child head.name ∈
            testModules module (.inlineModule head inner :: rest) :=
          List.mem_append_left _ (by simp [Item.testModules, htest])
        exact hitems _ hmem head.name hname (by simp [ModulePath.child])
      · rw [hkept, ← Item.addItem_outline scope' item, ← houtline, Item.addItem_outline]
        exact h.addItem kept
    rw [withoutTests, Scope.addItems, List.foldl_append]
    exact ih hone hrest

end Scope.SameFor

namespace Compilation

variable {compilation : Compilation} {module : ModulePath}

/-- The name is not that of a test module. -/
def IsOrdinaryName (compilation : Compilation) (name : String) : Prop :=
  ∀ test ∈ compilation.testModules, test.segments.getLast? ≠ some name

instance (compilation : Compilation) (name : String) :
    Decidable (compilation.IsOrdinaryName name) :=
  inferInstanceAs
    (Decidable (∀ test ∈ compilation.testModules, test.segments.getLast? ≠ some name))

/-- Outside the test modules the scopes are the same, up to the names of test modules. -/
theorem scopes_withoutTests (h : module.IsOutside compilation.testModules) :
    Option.Rel (Scope.SameFor compilation.IsOrdinaryName)
      (compilation.withoutTests.symbolTable.scopes.get? module)
      (compilation.symbolTable.scopes.get? module) := by
  have hfilter : compilation.withoutTests.bodies.filter (·.module = module) =
      (compilation.bodies.filter (·.module = module)).map ModuleBody.withoutTests := by
    rw [bodies_withoutTests, List.filter_map, ← filter_ordinaryBodies h]
    rfl
  have hbodies : ∀ body ∈ compilation.bodies.filter (·.module = module),
      DescriptionLookup.testModules body.module body.items ⊆ compilation.testModules := by
    intro body hbody
    rw [← filter_ordinaryBodies h] at hbody
    exact testModules_of_mem (List.mem_filter.1 hbody).1
  rw [get?_scopes, get?_scopes, hfilter]
  generalize compilation.bodies.filter (·.module = module) = bodies at hbodies
  suffices hfold : ∀ scope? scope?', Option.Rel (Scope.SameFor compilation.IsOrdinaryName)
      scope? scope?' →
      Option.Rel (Scope.SameFor compilation.IsOrdinaryName)
        (((bodies.map ModuleBody.withoutTests).map ModuleBody.items).foldl ModuleBody.addBody
          scope?)
        ((bodies.map ModuleBody.items).foldl ModuleBody.addBody scope?') from
    hfold none none .none
  induction bodies with
  | nil => exact fun _ _ hscope => hscope
  | cons body rest ih =>
    intro scope? scope?' hscope
    refine ih (fun body hmem => hbodies body (List.mem_cons_of_mem _ hmem)) _ _ (.some ?_)
    refine Scope.SameFor.addItems ?_ fun test htest name hname =>
      hname test (hbodies body List.mem_cons_self htest)
    cases hscope with
    | none => exact Scope.SameFor.refl ..
    | some h => exact h

end Compilation

/-! ### Hidden modules -/

namespace ModulePath

variable {module around : ModulePath} {tests : List ModulePath}

/-- What is around a module outside the tests is outside them, too. -/
theorem IsOutside.of_isWithin (h : module.IsOutside tests) (hwithin : module.IsWithin around) :
    around.IsOutside tests :=
  fun test htest haround => h test htest (hwithin.trans haround)

theorem isWithin_of_mem_chain (h : around ∈ module.chain) : module.IsWithin around := by
  obtain ⟨n, -, rfl⟩ := List.mem_map.1 h
  exact List.take_prefix _ _

end ModulePath

namespace ModuleBody

variable {body : ModuleBody} {module : ModulePath}

theorem isWithin_of_mem_hiddenModules (h : module ∈ body.hiddenModules) :
    module.IsWithin body.module := by
  obtain ⟨item, -, hitem⟩ := List.mem_filterMap.1 h
  cases item with
  | inlineModule head _ | fileModule head =>
    simp only [hiddenModule?, Option.ite_none_left_eq_some, Option.some.injEq] at hitem
    exact hitem.2 ▸ ModulePath.IsWithin.child _ _
  | _ => cases hitem

theorem mem_hiddenModules_withoutTests
    (h : module ∉ testModules body.module body.items) :
    module ∈ body.withoutTests.hiddenModules ↔ module ∈ body.hiddenModules := by
  obtain ⟨around, items⟩ := body
  show module ∈ (DescriptionLookup.withoutTests items).filterMap (hiddenModule? around) ↔
    module ∈ items.filterMap (hiddenModule? around)
  induction items with
  | nil => exact Iff.rfl
  | cons item rest ih =>
    rw [testModules, List.mem_append, not_or] at h
    rw [DescriptionLookup.withoutTests, List.filterMap_append, List.mem_append, ih h.2,
      ← List.singleton_append, List.filterMap_append, List.mem_append]
    refine or_congr_left ?_
    rcases item.isTest_or_kept with ⟨head, inner, rfl, htest, hnone⟩ | ⟨kept, hkept, houtline⟩
    · simp only [Item.testModules, if_pos htest, List.mem_singleton] at h
      simp [hnone, hiddenModule?, Ne.symm h.1]
    · simp only [hkept, List.filterMap_cons, List.filterMap_nil,
        ← Item.hiddenModule?_outline around kept, houtline, Item.hiddenModule?_outline]

end ModuleBody

namespace Compilation

variable {compilation : Compilation} {module : ModulePath}

/-- Outside the test modules the same modules are hidden from the crate root. -/
theorem mem_hidden_withoutTests (h : module.IsOutside compilation.testModules) :
    module ∈ compilation.withoutTests.symbolTable.hidden ↔
      module ∈ compilation.symbolTable.hidden := by
  have hkept : ∀ body ∈ compilation.ordinaryBodies,
      module ∈ body.withoutTests.hiddenModules ↔ module ∈ body.hiddenModules := fun body hbody =>
    ModuleBody.mem_hiddenModules_withoutTests fun htest =>
      h module (testModules_of_mem hbody htest) (ModulePath.IsWithin.refl module)
  show module ∈ compilation.withoutTests.bodies.flatMap ModuleBody.hiddenModules ↔
    module ∈ compilation.bodies.flatMap ModuleBody.hiddenModules
  rw [bodies_withoutTests, List.flatMap_map, List.mem_flatMap, List.mem_flatMap]
  constructor
  · rintro ⟨body, hbody, hmem⟩
    exact ⟨body, ordinaryBodies_subset compilation hbody, (hkept body hbody).1 hmem⟩
  · rintro ⟨body, hbody, hmem⟩
    have hordinary : body ∈ compilation.ordinaryBodies :=
      mem_ordinaryBodies (h.of_isWithin (ModuleBody.isWithin_of_mem_hiddenModules hmem)) hbody
    exact ⟨body, hordinary, (hkept body hordinary).2 hmem⟩

theorem isReachable_withoutTests (h : module.IsOutside compilation.testModules) :
    compilation.withoutTests.symbolTable.isReachable module =
      compilation.symbolTable.isReachable module := by
  rw [SymbolTable.isReachable, SymbolTable.isReachable, Bool.eq_iff_iff, List.all_eq_true,
    List.all_eq_true]
  refine forall₂_congr fun around haround => ?_
  have hout := h.of_isWithin (ModulePath.isWithin_of_mem_chain haround)
  simp only [Bool.not_eq_true', List.contains_eq_mem, decide_eq_false_iff_not,
    mem_hidden_withoutTests hout]

/-! ### Extern crates -/

end Compilation

namespace ModuleBody

theorem addExternNames_withoutTests (externs : Bindings String String) (body : ModuleBody) :
    addExternNames externs body.withoutTests = addExternNames externs body := by
  obtain ⟨module, items⟩ := body
  show (DescriptionLookup.withoutTests items).foldl (addExternName module) externs =
    items.foldl (addExternName module) externs
  induction items generalizing externs with
  | nil => rfl
  | cons item rest ih =>
    rw [DescriptionLookup.withoutTests, List.foldl_append, ih, List.foldl_cons]
    congr 1
    rcases item.isTest_or_kept with ⟨head, inner, rfl, -, hnone⟩ | ⟨kept, hkept, houtline⟩
    · rw [hnone]
      rfl
    · rw [hkept, ← Item.addExternName_outline module externs item, ← houtline,
        Item.addExternName_outline]
      rfl

theorem crates_withoutTests (body : ModuleBody) : body.withoutTests.crates = body.crates := by
  obtain ⟨module, items⟩ := body
  show (DescriptionLookup.withoutTests items).filterMap Item.crate? =
    items.filterMap Item.crate?
  induction items with
  | nil => rfl
  | cons item rest ih =>
    rw [DescriptionLookup.withoutTests, List.filterMap_append, ih, ← List.singleton_append,
      List.filterMap_append]
    congr 1
    rcases item.isTest_or_kept with ⟨head, inner, rfl, -, hnone⟩ | ⟨kept, hkept, houtline⟩
    · rw [hnone]
      rfl
    · simp only [hkept, List.filterMap_cons, List.filterMap_nil, ← Item.crate?_outline kept,
        houtline, Item.crate?_outline]

end ModuleBody

namespace Compilation

variable {compilation : Compilation}

theorem innerCrates_withoutTests_subset (compilation : Compilation) :
    ModuleBody.innerCrates compilation.withoutTests.bodies ⊆
      ModuleBody.innerCrates compilation.bodies := by
  intro name hname
  obtain ⟨body, hbody, hmodule, hcrate⟩ := ModuleBody.mem_innerCrates.1 hname
  rw [bodies_withoutTests] at hbody
  obtain ⟨original, horiginal, rfl⟩ := List.mem_map.1 hbody
  rw [ModuleBody.crates_withoutTests] at hcrate
  exact ModuleBody.mem_innerCrates.2
    ⟨original, ordinaryBodies_subset compilation horiginal, hmodule, hcrate⟩

/-- If every crate that a module declares is known without the tests, the names of extern crates
are the same. -/
theorem externs_withoutTests
    (h : ∀ name ∈ ModuleBody.innerCrates compilation.bodies,
      compilation.withoutTests.symbolTable.externs.contains name = true) (name : String) :
    compilation.withoutTests.symbolTable.externs.get? name =
      compilation.symbolTable.externs.get? name := by
  have hroot : (compilation.withoutTests.bodies.filter (·.module = .root)).foldl
        ModuleBody.addExternNames compilation.withoutTests.externs =
      (compilation.bodies.filter (·.module = .root)).foldl ModuleBody.addExternNames
        compilation.externs := by
    rw [bodies_withoutTests, List.filter_map, List.foldl_map]
    simp only [ModuleBody.addExternNames_withoutTests]
    rw [← filter_ordinaryBodies (isOutside_root compilation)]
    rfl
  have hknown := compilation.knows_externs name
  have hknown' := compilation.withoutTests.knows_externs name
  rw [hroot] at hknown'
  rw [hknown, hknown']
  cases hfound : ((compilation.bodies.filter (·.module = .root)).foldl ModuleBody.addExternNames
      compilation.externs).get? name with
  | some crate => rfl
  | none =>
    have hmem : name ∈ ModuleBody.innerCrates compilation.withoutTests.bodies ↔
        name ∈ ModuleBody.innerCrates compilation.bodies := by
      refine ⟨fun hname => innerCrates_withoutTests_subset compilation hname, fun hname => ?_⟩
      have hcontains := h name hname
      rw [Bindings.contains, hknown', hfound] at hcontains
      by_contra hnot
      simp [hnot] at hcontains
    simp only [hmem]

/-! ### The pass -/

/-- No name of the path is that of a test module. -/
def AvoidsTests (compilation : Compilation) (path : Path) : Prop :=
  ∀ name ∈ path.segments, compilation.IsOrdinaryName name

instance (compilation : Compilation) (path : Path) : Decidable (compilation.AvoidsTests path) :=
  inferInstanceAs (Decidable (∀ name ∈ path.segments, compilation.IsOrdinaryName name))

/-- Nothing that a pass asks for depends on the test modules of the crate. -/
structure TestsApart (compilation : Compilation) (configuration : Configuration) : Prop where
  /-- No enum is declared in a module with the path of a test module, or inside such a module. -/
  enums : ∀ c ∈ compilation.candidates, c.module.IsOutside compilation.testModules
  /-- No derive goes through the name of a test module, -/
  derives : ∀ c ∈ compilation.candidates, ∀ path ∈ c.decl.derives, compilation.AvoidsTests path
  /-- nor does an import or a glob outside the tests, -/
  imports : ∀ scope ∈ compilation.withoutTests.symbolTable.scopes.values,
    ∀ path ∈ scope.imports.values ++ scope.globs, compilation.AvoidsTests path
  /-- nor a configured path. -/
  configured : ∀ text ∈ configuration.marker :: configuration.registered,
    ∀ path ∈ (Grammar.parsePath text).toOption, compilation.AvoidsTests path
  /-- The tests declare no extern crate that is not known without them. -/
  crates : ∀ name ∈ ModuleBody.innerCrates compilation.bodies,
    compilation.withoutTests.symbolTable.externs.contains name = true

/-- The modules outside the tests, and the names that no test module has. -/
def ordinaryRegion (compilation : Compilation) : Region :=
  ⟨(·.IsOutside compilation.testModules), compilation.IsOrdinaryName⟩

theorem closed_ordinaryRegion (compilation : Compilation) : compilation.ordinaryRegion.Closed where
  root := isOutside_root compilation
  around module around hmodule haround := by
    refine ModulePath.IsOutside.of_isWithin hmodule ?_
    simp only [ModulePath.parent?, Option.ite_none_left_eq_some, Option.some.injEq] at haround
    exact haround.2 ▸ List.dropLast_prefix _
  inside module name hmodule hname test htest hwithin := by
    rcases List.prefix_concat_iff.1 hwithin with heq | hprefix
    · exact hname test htest (by simp [heq])
    · exact hmodule test htest hprefix

namespace TestsApart

variable {configuration : Configuration}

theorem agreeOn (h : compilation.TestsApart configuration) :
    SymbolTable.AgreeOn compilation.ordinaryRegion compilation.withoutTests.symbolTable
      compilation.symbolTable := by
  refine ⟨fun module hmodule => ?_, fun name _ => externs_withoutTests h.crates name⟩
  have hscopes := scopes_withoutTests hmodule
  cases hscope : compilation.withoutTests.symbolTable.scopes.get? module with
  | none =>
    rw [hscope] at hscopes
    cases hscope' : compilation.symbolTable.scopes.get? module with
    | none => exact .none
    | some scope' => rw [hscope'] at hscopes; cases hscopes
  | some scope =>
    rw [hscope] at hscopes
    have himports := h.imports scope (Bindings.mem_values_of_get? hscope)
    generalize compilation.symbolTable.scopes.get? module = scope'? at hscopes
    cases hscopes with
    | @some scope scope' hsame =>
      refine .some ⟨fun name _ => by rw [hsame.items], hsame.modules,
        fun name _ => by rw [hsame.imports], hsame.globs, fun name path _ hpath => ?_,
        fun path hpath => himports path (List.mem_append_right _ hpath)⟩
      exact .inl (himports path (List.mem_append_left _ (Bindings.mem_values_of_get? hpath)))

theorem resolveQualified_eq (h : compilation.TestsApart configuration) {text : String}
    (htext : text ∈ configuration.marker :: configuration.registered) (path : Path)
    (hpath : Grammar.parsePath text = .ok path) :
    compilation.withoutTests.symbolTable.resolveQualified path =
      compilation.symbolTable.resolveQualified path :=
  SymbolTable.resolveQualified_eq_of_agreeOn (closed_ordinaryRegion compilation) h.agreeOn
    (Bindings.mem_values_congr (externs_withoutTests h.crates))
    (h.configured text htext path (by rw [hpath]; rfl))

theorem sameStanding (h : compilation.TestsApart configuration) (marker : Symbol) {c : Candidate}
    (hc : c ∈ compilation.candidates) :
    c.SameStanding compilation.withoutTests.symbolTable compilation.symbolTable marker := by
  constructor
  · rw [Candidate.carries, Candidate.carries, Bool.eq_iff_iff, List.any_eq_true, List.any_eq_true]
    refine exists_congr fun path => and_congr_right fun hpath => ?_
    rw [SymbolTable.resolve_eq_of_agreeOn (closed_ordinaryRegion compilation) h.agreeOn
      (h.enums c hc) (h.derives c hc path hpath)]
  · rw [Candidate.isNameable, Candidate.isNameable, isReachable_withoutTests (h.enums c hc)]

end TestsApart

/-- Without its test modules a crate gets the same answer, if they are apart from what the pass asks
for. -/
theorem generate_withoutTests {configuration : Configuration}
    (h : compilation.TestsApart configuration) :
    compilation.withoutTests.generate configuration = compilation.generate configuration := by
  have hselect : compilation.withoutTests.select configuration =
      compilation.select configuration := by
    unfold select
    refine Except.bind_congr_ok fun _ _ => ?_
    dsimp only
    rw [Configuration.resolveMarker_eq _ (h.resolveQualified_eq List.mem_cons_self),
      Configuration.registrations_eq fun text htext =>
        h.resolveQualified_eq (List.mem_cons_of_mem _ htext),
      candidates_withoutTests]
    refine Except.bind_congr_ok fun marker _ => Except.bind_congr_ok fun registered _ => ?_
    rw [Selection.ofCandidates_eq fun c hc => h.sameStanding marker.symbol hc]
  rw [generate, generate, hselect]

end Compilation

/-! ### One path for two modules -/

/-- The settings of a pass with a marker `macros::Describe`. -/
def describing : Configuration := { marker := "macros::Describe" }

/-- A public enum with one variant, which derives `Describe`. -/
def describedKind : EnumDecl where
  attributes := [⟨.ofName "derive", .list .parenthesis [.word "Describe" .start]⟩]
  visibility := .everywhere
  name := "Kind"
  generics := []
  predicates := []
  variants := [⟨[], "One", true⟩]

/-- A crate with a public module `os`, in which there are a private test module of this name and a
public module `imp` with the enum. -/
def testedCrate (name : String) : Compilation :=
  ((Compilation.empty "demo").addExtern "macros" "macros").addFile ⟨"lib.rs", .root, [], ⟨[],
    [.inlineModule ⟨[], .everywhere, "os"⟩
      [.inlineModule ⟨[⟨.ofName "cfg", .list .parenthesis [.word "test" .start]⟩], .inherited, name⟩
          [.imports false (.path "super" .glob), .externCrate "macros" "m"],
        .inlineModule ⟨[], .everywhere, "imp"⟩
          [.imports false (.path "macros" (.name "Describe")), .enumeration describedKind]]]⟩⟩

/-- Usually the test module has a name of its own, and the enum is described either way. -/
theorem generate_withoutTests_of_own_name :
    (testedCrate "tests").withoutTests.generate describing =
        (testedCrate "tests").generate describing ∧
      ((testedCrate "tests").generate describing).toOption.map PassResult.described =
        some [⟨⟨.here, ["os", "imp", "Kind"]⟩, .derived, []⟩] := by
  refine ⟨Compilation.generate_withoutTests ⟨?_, ?_, ?_, ?_, ?_⟩, ?_⟩ <;> decide +kernel

/-- If the test module is called `imp` as well, it hides the other one, and the enum is skipped as
long as the tests are there. -/
theorem shadowed_by_tests :
    (testedCrate "imp").withoutTests.generate describing ≠
      (testedCrate "imp").generate describing := by
  intro heq
  have hwithout : ((testedCrate "imp").withoutTests.generate describing).toOption.map
      PassResult.skipped = some [] := by decide +kernel
  have hwith : ((testedCrate "imp").generate describing).toOption.map PassResult.skipped =
      some [⟨⟨.here, ["os", "imp", "Kind"]⟩, .notNameable⟩] := by decide +kernel
  rw [heq, hwith] at hwithout
  cases hwithout

end DescriptionLookup
