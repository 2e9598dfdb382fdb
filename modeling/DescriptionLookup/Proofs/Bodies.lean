import DescriptionLookup.Names.Table
import Mathlib.Data.List.Nodup

/-!
# What a table takes from the bodies of a crate

A symbol table is collected from the module bodies of a crate. What it says of one module depends
only on the bodies of that module, in their order; what it says of extern crates depends on the
bodies of the root, in their order, and on the crates that are declared anywhere else. Of a child
module it takes no more than the head, so that it makes no difference whether its body stands in
braces or in a file.

* `scopes_get?`, `itemsOf`: the scope of a module;
* `knows_addExternNames`: the names of extern crates;
* `Item.outline`: what of an item counts;
* `Compilation.SameBodies`: two crates with the same bodies of every module, whatever the order in
  which those of different modules come; their tables are the same.
-/

namespace DescriptionLookup

/-! ### Bodies inside a module -/

theorem ModulePath.child_inj {module module' : ModulePath} {name name' : String}
    (h : module.child name = module'.child name') : module = module' ∧ name = name' := by
  obtain ⟨hmodule, hname⟩ := List.append_inj' (ModulePath.mk.inj h) rfl
  exact ⟨congrArg ModulePath.mk hmodule, List.singleton_inj.1 hname⟩

/-- The module is this one, or somewhere inside it. -/
def ModulePath.IsWithin (module around : ModulePath) : Prop :=
  around.segments <+: module.segments

instance (module around : ModulePath) : Decidable (module.IsWithin around) :=
  inferInstanceAs (Decidable (around.segments <+: module.segments))

namespace ModulePath.IsWithin

variable {module between around : ModulePath}

theorem refl (module : ModulePath) : module.IsWithin module := List.prefix_refl _

theorem trans (h : module.IsWithin between) (h' : between.IsWithin around) :
    module.IsWithin around :=
  List.IsPrefix.trans h' h

theorem child (module : ModulePath) (name : String) : (module.child name).IsWithin module :=
  List.prefix_append _ _

end ModulePath.IsWithin

theorem innerBodies_append (module : ModulePath) (items items' : List Item) :
    innerBodies module (items ++ items') =
      innerBodies module items ++ innerBodies module items' := by
  induction items with
  | nil => rfl
  | cons item rest ih => rw [List.cons_append, innerBodies, innerBodies, ih, List.append_assoc]

mutual

theorem Item.within_of_mem_bodies (module : ModulePath) (item : Item) :
    ∀ body ∈ Item.bodies module item, body.module.IsWithin module := by
  cases item with
  | inlineModule head items =>
    have hchild := ModulePath.IsWithin.child module head.name
    intro body hbody
    rcases List.mem_cons.1 hbody with rfl | hbody
    · exact hchild
    · exact (within_of_mem_innerBodies _ items body hbody).trans hchild
  | _ => exact fun body hbody => absurd hbody (List.not_mem_nil)

theorem within_of_mem_innerBodies (module : ModulePath) (items : List Item) :
    ∀ body ∈ innerBodies module items, body.module.IsWithin module := by
  cases items with
  | nil => exact fun body hbody => absurd hbody (List.not_mem_nil)
  | cons item rest =>
    intro body hbody
    rcases List.mem_append.1 hbody with hbody | hbody
    · exact Item.within_of_mem_bodies module item body hbody
    · exact within_of_mem_innerBodies module rest body hbody

end

/-- Where keys are distinct, a search that only fits one key finds its entry. -/
theorem find?_eq_some_of_nodup_map {α κ : Type} {entries : List α} {key : α → κ} {p : α → Bool}
    {a : α} (hnodup : (entries.map key).Nodup) (ha : a ∈ entries) (hp : p a = true)
    (hkey : ∀ b ∈ entries, p b = true → key b = key a) : entries.find? p = some a := by
  obtain ⟨b, hb⟩ := Option.isSome_iff_exists.1 (List.find?_isSome.2 ⟨a, ha, hp⟩)
  have hmem := List.mem_of_find?_eq_some hb
  rw [hb, List.inj_on_of_nodup_map hnodup hmem ha (hkey b hmem (List.find?_some hb))]

namespace Bindings

variable {κ α : Type} [DecidableEq κ]

theorem get?_insertIfNew (b : Bindings κ α) (key other : κ) (value : α) :
    (b.insertIfNew key value).get? other =
      if other = key then some ((b.get? key).getD value) else b.get? other := by
  unfold insertIfNew contains
  cases h : b.get? key with
  | none => rw [if_neg (by simp), get?_insert, Option.getD_none]
  | some found =>
    rw [if_pos (by simp), Option.getD_some]
    split
    · next heq => rw [heq, h]
    · rfl

theorem mem_values_iff {b : Bindings κ α} {value : α} :
    value ∈ b.values ↔ ∃ key, b.get? key = some value := by
  refine ⟨fun h => ?_, fun ⟨key, h⟩ => mem_values_of_get? h⟩
  obtain ⟨⟨key, _⟩, hentry, rfl⟩ := List.mem_map.1 h
  have hfind := find?_eq_some_of_nodup_map (p := fun entry => entry.1 = key) b.distinct hentry
    (decide_eq_true rfl) fun _ _ hkey => of_decide_eq_true hkey
  exact ⟨key, by rw [get?, hfind]; rfl⟩

/-- Tables with the same view have the same values. -/
theorem mem_values_congr {b b' : Bindings κ α} (h : ∀ key, b.get? key = b'.get? key) (value : α) :
    value ∈ b.values ↔ value ∈ b'.values := by
  simp only [mem_values_iff, h]

end Bindings

namespace ModuleBody

/-! ### Scopes -/

/-- A scope, if there is one so far, with the items of one more body of its module. -/
def addBody (scope : Option Scope) (items : List Item) : Option Scope :=
  some ((scope.getD .empty).addItems items)

theorem get?_addScope (scopes : Bindings ModulePath Scope) (body : ModuleBody)
    (module : ModulePath) :
    (addScope scopes body).get? module =
      if body.module = module then addBody (scopes.get? module) body.items
      else scopes.get? module := by
  rw [addScope, Bindings.get?_insert]
  by_cases h : module = body.module
  · subst h
    rw [if_pos rfl, if_pos rfl, addBody]
  · rw [if_neg h, if_neg (Ne.symm h)]

/-- The scope of a module comes from the bodies of the module alone. -/
theorem scopes_get? (bodies : List ModuleBody) (scopes : Bindings ModulePath Scope)
    (module : ModulePath) :
    (bodies.foldl addScope scopes).get? module =
      ((bodies.filter (·.module = module)).map items).foldl addBody (scopes.get? module) := by
  induction bodies generalizing scopes with
  | nil => rfl
  | cons body rest ih =>
    rw [List.foldl_cons, ih, get?_addScope]
    by_cases h : body.module = module
    · rw [if_pos h, List.filter_cons_of_pos (by simpa using h), List.map_cons, List.foldl_cons]
    · rw [if_neg h, List.filter_cons_of_neg (by simpa using h)]

/-! ### Names of extern crates -/

end ModuleBody

/-- The extern crate that an item declares. -/
def Item.crate? : Item → Option String
  | .externCrate name _ => if name = "self" then none else some name
  | _ => none

namespace ModuleBody

/-- The extern crates that a body declares. -/
def crates (body : ModuleBody) : List String := body.items.filterMap Item.crate?

/-- The extern crates that are declared below the root. -/
def innerCrates (bodies : List ModuleBody) : List String :=
  (bodies.filter (·.module ≠ .root)).flatMap crates

/-- The second names are the first ones, and those of further crates, each for the crate itself. -/
def Knows (crates : List String) (externs externs' : Bindings String String) : Prop :=
  ∀ name, externs'.get? name =
    (externs.get? name).or (if name ∈ crates then some name else none)

theorem Knows.refl (externs : Bindings String String) : Knows [] externs externs := by
  intro name
  simp

/-- The crate that a name stands for, if it is taken to be known, is the same. -/
theorem Knows.getD_eq {crates : List String} {externs externs' : Bindings String String}
    (h : Knows crates externs externs') (name : String) :
    (externs'.get? name).getD name = (externs.get? name).getD name := by
  rw [h name]
  cases externs.get? name with
  | some crate => rfl
  | none => by_cases hmem : name ∈ crates <;> simp [hmem]

theorem get?_addExternName (module : ModulePath) (externs : Bindings String String)
    {name : String} (hself : name ≠ "self") (binding other : String) :
    (addExternName module externs (.externCrate name binding)).get? other =
      if other = name ∨ (module.isRoot = true ∧ binding ≠ "_") ∧ other = binding then
        some ((externs.get? name).getD name)
      else externs.get? other := by
  simp only [addExternName, if_neg hself, Bindings.get?_insertIfNew]
  by_cases halias : module.isRoot = true ∧ binding ≠ "_"
  · simp only [if_pos halias, Bindings.get?_insert]
    by_cases hname : other = name
    · rw [if_pos hname, if_pos (Or.inl hname)]
      by_cases hbinding : name = binding
      · rw [if_pos hbinding, Option.getD_some]
      · rw [if_neg hbinding]
        cases externs.get? name <;> rfl
    · by_cases hbinding : other = binding
      · rw [if_neg hname, if_pos hbinding, if_pos (Or.inr ⟨halias, hbinding⟩)]
      · rw [if_neg hname, if_neg hbinding, if_neg (by simp [hname, hbinding])]
  · simp only [if_neg halias]
    by_cases hname : other = name
    · rw [if_pos hname, if_pos (Or.inl hname)]
      cases externs.get? name <;> rfl
    · rw [if_neg hname, if_neg (fun h => h.elim hname fun h => halias h.1)]

variable {crates : List String} {externs externs' : Bindings String String}

/-- What an item adds, it adds to both. -/
theorem Knows.addExternName (h : Knows crates externs externs') (module : ModulePath)
    (item : Item) :
    Knows crates (addExternName module externs item)
      (ModuleBody.addExternName module externs' item) := by
  cases item with
  | externCrate name binding =>
    by_cases hself : name = "self"
    · simpa only [ModuleBody.addExternName, if_pos hself] using h
    · intro other
      rw [get?_addExternName module externs hself, get?_addExternName module externs' hself,
        h.getD_eq name]
      split
      · rfl
      · exact h other
  | _ => exact h

/-- Below the root an item adds no more than the crate that it declares. -/
theorem Knows.addInnerExternName (h : Knows crates externs externs') {module : ModulePath}
    (hmodule : module ≠ .root) (item : Item) :
    Knows (crates ++ item.crate?.toList) externs
      (ModuleBody.addExternName module externs' item) := by
  have hroot : ¬ module.isRoot = true := fun h => hmodule (ModulePath.isRoot_iff.1 h)
  cases item with
  | externCrate name binding =>
    by_cases hself : name = "self"
    · simpa only [ModuleBody.addExternName, if_pos hself, Item.crate?, Option.toList_none,
        List.append_nil] using h
    · intro other
      rw [get?_addExternName module externs' hself, h.getD_eq name]
      simp only [Item.crate?, if_neg hself, Option.toList_some, List.mem_append,
        List.mem_singleton, hroot, Bool.false_eq_true, false_and, or_false]
      by_cases hname : other = name
      · subst hname
        rw [if_pos rfl, if_pos (Or.inr rfl)]
        cases externs.get? other <;> rfl
      · rw [if_neg hname, h other]
        simp only [hname, or_false]
  | _ => simpa only [ModuleBody.addExternName, Item.crate?, Option.toList_none,
      List.append_nil] using h

theorem Knows.addExternNames (h : Knows crates externs externs') (body : ModuleBody) :
    Knows crates (addExternNames externs body) (ModuleBody.addExternNames externs' body) := by
  obtain ⟨module, items⟩ := body
  show Knows crates (items.foldl _ externs) (items.foldl _ externs')
  induction items generalizing externs externs' with
  | nil => exact h
  | cons item rest ih => exact ih (h.addExternName module item)

theorem Knows.addInnerExternNames (h : Knows crates externs externs') {body : ModuleBody}
    (hbody : body.module ≠ .root) :
    Knows (crates ++ body.crates) externs (ModuleBody.addExternNames externs' body) := by
  obtain ⟨module, items⟩ := body
  replace hbody : module ≠ .root := hbody
  show Knows (crates ++ items.filterMap Item.crate?) externs (items.foldl _ externs')
  induction items generalizing crates externs' with
  | nil => simpa using h
  | cons item rest ih =>
    have hstep := ih (h.addInnerExternName hbody item)
    rw [List.append_assoc] at hstep
    cases hcrate : item.crate? with
    | none => simpa only [List.filterMap_cons, hcrate, Option.toList_none, List.nil_append,
        List.foldl_cons] using hstep
    | some crate => simpa only [List.filterMap_cons, hcrate, Option.toList_some, List.cons_append,
        List.nil_append, List.foldl_cons] using hstep

/-- The names of extern crates are those that the bodies of the root give, and those of the crates
that are declared elsewhere. -/
theorem knows_addExternNames (bodies : List ModuleBody) (externs : Bindings String String) :
    Knows (innerCrates bodies)
      ((bodies.filter (·.module = .root)).foldl ModuleBody.addExternNames externs)
      (bodies.foldl ModuleBody.addExternNames externs) := by
  suffices h : ∀ crates externs externs', Knows crates externs externs' →
      Knows (crates ++ innerCrates bodies)
        ((bodies.filter (·.module = .root)).foldl ModuleBody.addExternNames externs)
        (bodies.foldl ModuleBody.addExternNames externs') from
    h [] externs externs (Knows.refl externs)
  induction bodies with
  | nil =>
    intro crates externs externs' h
    simpa [innerCrates] using h
  | cons body rest ih =>
    intro crates externs externs' h
    by_cases hbody : body.module = .root
    · have hinner : innerCrates (body :: rest) = innerCrates rest := by
        rw [innerCrates, List.filter_cons_of_neg (by simpa using hbody), innerCrates]
      rw [hinner, List.filter_cons_of_pos (by simpa using hbody)]
      exact ih _ _ _ (h.addExternNames body)
    · have hinner : innerCrates (body :: rest) = body.crates ++ innerCrates rest := by
        rw [innerCrates, List.filter_cons_of_pos (by simpa using hbody), List.flatMap_cons,
          innerCrates]
      rw [hinner, List.filter_cons_of_neg (by simpa using hbody), ← List.append_assoc]
      exact ih _ _ _ (h.addInnerExternNames hbody)

theorem mem_innerCrates {bodies : List ModuleBody} {name : String} :
    name ∈ innerCrates bodies ↔
      ∃ body ∈ bodies, body.module ≠ .root ∧ name ∈ body.crates := by
  simp [innerCrates, List.mem_flatMap, List.mem_filter, and_assoc]

end ModuleBody

/-! ### Outlines -/

/-- An item without what a table does not look at: of a module the attributes and the content. -/
def Item.outline : Item → Item
  | .inlineModule head _ => .fileModule { head with attributes := [] }
  | .fileModule head => .fileModule { head with attributes := [] }
  | item => item

namespace Item

@[simp] theorem addItem_outline (scope : Scope) (item : Item) :
    scope.addItem item.outline = scope.addItem item := by
  cases item <;> rfl

@[simp] theorem hiddenModule?_outline (module : ModulePath) (item : Item) :
    ModuleBody.hiddenModule? module item.outline = ModuleBody.hiddenModule? module item := by
  cases item <;> rfl

@[simp] theorem crate?_outline (item : Item) : item.outline.crate? = item.crate? := by
  cases item <;> rfl

@[simp] theorem addExternName_outline (module : ModulePath) (externs : Bindings String String)
    (item : Item) :
    ModuleBody.addExternName module externs item.outline =
      ModuleBody.addExternName module externs item := by
  cases item <;> rfl

end Item

namespace ModuleBody

/-- A body with the outlines of its items. -/
def outline (body : ModuleBody) : ModuleBody :=
  { body with items := body.items.map Item.outline }

@[simp] theorem module_outline (body : ModuleBody) : body.outline.module = body.module := rfl

@[simp] theorem addBody_outline (scope : Option Scope) (body : ModuleBody) :
    addBody scope body.outline.items = addBody scope body.items := by
  simp [addBody, outline, Scope.addItems, List.foldl_map]

@[simp] theorem hiddenModules_outline (body : ModuleBody) :
    body.outline.hiddenModules = body.hiddenModules := by
  simp [hiddenModules, outline, List.filterMap_map]

@[simp] theorem crates_outline (body : ModuleBody) : body.outline.crates = body.crates := by
  simp [crates, outline, List.filterMap_map]

@[simp] theorem addExternNames_outline (externs : Bindings String String) (body : ModuleBody) :
    addExternNames externs body.outline = addExternNames externs body := by
  simp [addExternNames, outline, List.foldl_map]

end ModuleBody

namespace Compilation

/-- The scope of a module in the table of a crate. -/
theorem get?_scopes (compilation : Compilation) (module : ModulePath) :
    compilation.symbolTable.scopes.get? module =
      ((compilation.bodies.filter (·.module = module)).map ModuleBody.items).foldl
        ModuleBody.addBody none :=
  ModuleBody.scopes_get? compilation.bodies .empty module

theorem addBodies_eq (scope : Option Scope) (lists : List (List Item)) :
    lists.foldl ModuleBody.addBody scope =
      if lists = [] then scope else some ((scope.getD .empty).addItems lists.flatten) := by
  induction lists generalizing scope with
  | nil => rfl
  | cons items rest ih =>
    rw [List.foldl_cons, ih]
    cases rest <;> simp [ModuleBody.addBody, Scope.addItems]

/-- The items of a module, from all of its bodies. -/
def itemsOf (compilation : Compilation) (module : ModulePath) : List Item :=
  (compilation.bodies.filter (·.module = module)).flatMap ModuleBody.items

theorem mem_itemsOf {compilation : Compilation} {module : ModulePath} {item : Item} :
    item ∈ compilation.itemsOf module ↔
      ∃ body ∈ compilation.bodies, body.module = module ∧ item ∈ body.items := by
  simp [itemsOf, List.mem_flatMap, List.mem_filter, and_assoc]

/-- A scope consists of the items of its module. -/
theorem eq_addItems_of_get?_scopes {compilation : Compilation} {module : ModulePath}
    {scope : Scope} (h : compilation.symbolTable.scopes.get? module = some scope) :
    scope = Scope.empty.addItems (compilation.itemsOf module) := by
  rw [get?_scopes, addBodies_eq] at h
  split at h
  · cases h
  · rw [itemsOf, List.flatMap_def]
    exact (Option.some.inj h).symm

/-- A module with items has a scope. -/
theorem get?_scopes_of_itemsOf_ne_nil {compilation : Compilation} {module : ModulePath}
    (h : compilation.itemsOf module ≠ []) :
    compilation.symbolTable.scopes.get? module =
      some (Scope.empty.addItems (compilation.itemsOf module)) := by
  have hbodies : (compilation.bodies.filter (·.module = module)).map ModuleBody.items ≠ [] := by
    intro hnil
    rw [itemsOf, List.flatMap_def, hnil] at h
    exact h rfl
  rw [get?_scopes, addBodies_eq, if_neg hbodies, Option.getD_none, itemsOf, List.flatMap_def]

/-- The names of extern crates in the table of a crate. -/
theorem knows_externs (compilation : Compilation) :
    ModuleBody.Knows (ModuleBody.innerCrates compilation.bodies)
      ((compilation.bodies.filter (·.module = .root)).foldl ModuleBody.addExternNames
        compilation.externs)
      compilation.symbolTable.externs :=
  ModuleBody.knows_addExternNames compilation.bodies compilation.externs

end Compilation

/-- Two crates with the same bodies of every module, up to their outlines, and the same extern
crates. The bodies of different modules may come in any order. -/
structure Compilation.SameBodies (compilation compilation' : Compilation) : Prop where
  externs : compilation.externs = compilation'.externs
  bodies : ∀ module, (compilation.bodies.filter (·.module = module)).map ModuleBody.outline =
    (compilation'.bodies.filter (·.module = module)).map ModuleBody.outline

namespace Compilation.SameBodies

variable {compilation compilation' : Compilation}

theorem symm (h : SameBodies compilation compilation') : SameBodies compilation' compilation :=
  ⟨h.externs.symm, fun module => (h.bodies module).symm⟩

theorem exists_body (h : SameBodies compilation compilation') {body : ModuleBody}
    (hbody : body ∈ compilation.bodies) :
    ∃ body' ∈ compilation'.bodies, body'.outline = body.outline := by
  have hmem : body.outline ∈
      (compilation'.bodies.filter (·.module = body.module)).map ModuleBody.outline := by
    rw [← h.bodies]
    exact List.mem_map_of_mem (List.mem_filter.2 ⟨hbody, by simp⟩)
  obtain ⟨body', hbody', heq⟩ := List.mem_map.1 hmem
  exact ⟨body', (List.mem_filter.1 hbody').1, heq⟩

/-- Every module has the same scope. -/
theorem scopes_eq (h : SameBodies compilation compilation') (module : ModulePath) :
    compilation.symbolTable.scopes.get? module = compilation'.symbolTable.scopes.get? module := by
  have houtline : ∀ bodies : List ModuleBody, (bodies.map ModuleBody.items).foldl
      ModuleBody.addBody none =
        ((bodies.map ModuleBody.outline).map ModuleBody.items).foldl ModuleBody.addBody none := by
    intro bodies
    simp [List.foldl_map]
  rw [get?_scopes, get?_scopes, houtline, h.bodies, ← houtline]

theorem mem_hidden (h : SameBodies compilation compilation') {module : ModulePath}
    (hmodule : module ∈ compilation.symbolTable.hidden) :
    module ∈ compilation'.symbolTable.hidden := by
  obtain ⟨body, hbody, hmem⟩ := List.mem_flatMap.1 hmodule
  obtain ⟨body', hbody', heq⟩ := h.exists_body hbody
  refine List.mem_flatMap.2 ⟨body', hbody', ?_⟩
  rwa [← ModuleBody.hiddenModules_outline, heq, ModuleBody.hiddenModules_outline]

/-- The same modules are hidden from the crate root. -/
theorem mem_hidden_iff (h : SameBodies compilation compilation') (module : ModulePath) :
    module ∈ compilation.symbolTable.hidden ↔ module ∈ compilation'.symbolTable.hidden :=
  ⟨h.mem_hidden, h.symm.mem_hidden⟩

theorem mem_innerCrates (h : SameBodies compilation compilation') {name : String}
    (hname : name ∈ ModuleBody.innerCrates compilation.bodies) :
    name ∈ ModuleBody.innerCrates compilation'.bodies := by
  obtain ⟨body, hbody, hmodule, hcrate⟩ := ModuleBody.mem_innerCrates.1 hname
  obtain ⟨body', hbody', heq⟩ := h.exists_body hbody
  refine ModuleBody.mem_innerCrates.2 ⟨body', hbody', ?_, ?_⟩
  · rwa [← ModuleBody.module_outline, heq]
  · rwa [← ModuleBody.crates_outline, heq, ModuleBody.crates_outline]

/-- Extern crates have the same names. -/
theorem externs_eq (h : SameBodies compilation compilation') (name : String) :
    compilation.symbolTable.externs.get? name = compilation'.symbolTable.externs.get? name := by
  have houtline : ∀ (bodies : List ModuleBody) (externs : Bindings String String),
      bodies.foldl ModuleBody.addExternNames externs =
        (bodies.map ModuleBody.outline).foldl ModuleBody.addExternNames externs := by
    intro bodies externs
    simp [List.foldl_map]
  have hinner : name ∈ ModuleBody.innerCrates compilation.bodies ↔
      name ∈ ModuleBody.innerCrates compilation'.bodies :=
    ⟨h.mem_innerCrates, h.symm.mem_innerCrates⟩
  rw [compilation.knows_externs, compilation'.knows_externs, houtline, h.bodies, ← houtline,
    h.externs]
  simp only [hinner]

end Compilation.SameBodies

end DescriptionLookup
