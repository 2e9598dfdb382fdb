import DescriptionLookup.Proofs.Extraction
import DescriptionLookup.Proofs.ParsedItems
import DescriptionLookup.Proofs.Shadowing

/-!
# Loaded crates

Loading visits a module only because some body declares it, and every body comes from the grammar.
So the modules of a loaded crate are declared, each in the module around it, and whatever has a name
has one that can stand in a path. Neither is true of compilations in general, to which any text may
be added as the body of any module.

* `Item.itemName?`, `Item.moduleName?`: what an item adds to the scope of its module;
* `declared_scope`: the items and the child modules of a scope are those of the module's bodies;
* `exists_body_of_mem_declaredModules`, `exists_body_of_mem_candidates`: declared modules and
  candidates are items of bodies;
* `Compilation.IsRead`, `isRead_of_load`: loading reads every file, and so does adding a text;
* `Compilation.IsSound`, `isSound_of_load`: the invariant, and that loading establishes it;
* `IsSound.isNested`, `IsSound.isSegment_of_mem_symbol`, `IsSound.crate_notMem`: what follows for
  symbol tables.
-/

namespace DescriptionLookup

open Grammar (IsSegment isIdentifier)

namespace Item

/-- The name under which an item that is no module stands in the scope of its module. -/
def itemName? : Item → Option String
  | .enumeration decl => some decl.name
  | .named _ name => some name
  | _ => none

/-- The name of a module. -/
def moduleName? : Item → Option String
  | .inlineModule head _ => some head.name
  | .fileModule head => some head.name
  | _ => none

/-- An item that is no module is called by a segment of paths, or is a constant without a name. -/
theorem WellNamed.of_itemName? {item : Item} (h : item.WellNamed) {name : String}
    (hname : item.itemName? = some name) : IsSegment name ∨ name = "_" := by
  cases h with
  | enumeration hidentifier => exact .inl (.inl (Option.some.inj hname ▸ hidentifier))
  | named kind hsegment => exact Option.some.inj hname ▸ hsegment
  | _ => cases hname

/-- A module is called by a segment of paths. -/
theorem WellNamed.of_moduleName? {item : Item} (h : item.WellNamed) {name : String}
    (hname : item.moduleName? = some name) : IsSegment name := by
  cases h with
  | inlineModule hsegment _ => exact Option.some.inj hname ▸ hsegment
  | fileModule hsegment => exact Option.some.inj hname ▸ hsegment
  | _ => cases hname

end Item

theorem not_isSegment_super : ¬ IsSegment "super" :=
  Grammar.not_isSegment (by decide) (by decide)

namespace Scope

/-- What a scope declares with further items: what it did, and the names of the items. -/
theorem declared_addItem (scope : Scope) (item : Item) :
    (scope.addItem item).items = scope.items ++ item.itemName?.toList ∧
      (scope.addItem item).modules = scope.modules ++ item.moduleName?.toList := by
  have himports : ∀ (absolute : Bool) (imports : List Import) (scope : Scope),
      (imports.foldl (addImport absolute) scope).items = scope.items ∧
        (imports.foldl (addImport absolute) scope).modules = scope.modules := by
    intro absolute imports
    induction imports with
    | nil => exact fun scope => ⟨rfl, rfl⟩
    | cons first rest ih =>
      intro scope
      rw [List.foldl_cons, (ih _).1, (ih _).2]
      cases first <;> exact ⟨rfl, rfl⟩
  cases item with
  | imports absolute tree =>
    obtain ⟨hitems, hmodules⟩ := himports absolute (tree.imports []) scope
    exact ⟨hitems.trans (List.append_nil _).symm, hmodules.trans (List.append_nil _).symm⟩
  | externCrate name binding =>
    simp only [addItem, addExternCrate]
    split <;> simp [Item.itemName?, Item.moduleName?]
  | _ => simp [addItem, Item.itemName?, Item.moduleName?]

theorem declared_addItems (scope : Scope) (items : List Item) :
    (scope.addItems items).items = scope.items ++ items.filterMap Item.itemName? ∧
      (scope.addItems items).modules = scope.modules ++ items.filterMap Item.moduleName? := by
  unfold addItems
  induction items generalizing scope with
  | nil => simp
  | cons item rest ih =>
    obtain ⟨hitems, hmodules⟩ := declared_addItem scope item
    rw [List.foldl_cons, (ih _).1, (ih _).2, hitems, hmodules]
    cases hitem : item.itemName? <;> cases hmodule : item.moduleName? <;> simp [hitem, hmodule]

end Scope

namespace Compilation

variable {compilation : Compilation} {module : ModulePath} {name : String} {scope : Scope}

theorem exists_scope_iff : (∃ scope, compilation.symbolTable.scopes.get? module = some scope) ↔
    ∃ body ∈ compilation.bodies, body.module = module := by
  rw [get?_scopes, addBodies_eq]
  split
  · next h => simpa using h
  · next h => simpa using h

/-- The scope of a module declares what is declared in its bodies. -/
theorem declared_scope (h : compilation.symbolTable.scopes.get? module = some scope)
    (name : String) :
    (name ∈ scope.items ↔ ∃ body ∈ compilation.bodies, body.module = module ∧
      ∃ item ∈ body.items, item.itemName? = some name) ∧
    (name ∈ scope.modules ↔ ∃ body ∈ compilation.bodies, body.module = module ∧
      ∃ item ∈ body.items, item.moduleName? = some name) := by
  rw [get?_scopes, addBodies_eq] at h
  split at h
  · cases h
  · obtain rfl := Option.some.inj h
    rw [Option.getD_none, (Scope.declared_addItems _ _).1, (Scope.declared_addItems _ _).2]
    simp [Scope.empty, List.mem_filterMap, and_assoc]

end Compilation

/-! ### The crates that names stand for -/

namespace ModuleBody

variable {crate : String} {externs : Bindings String String}

theorem mem_values_addExternName {module : ModulePath} {item : Item}
    (h : crate ∈ (addExternName module externs item).values) :
    crate ∈ externs.values ∨ item.crate? = some crate := by
  cases item with
  | externCrate name binding =>
    by_cases hself : name = "self"
    · rw [addExternName, if_pos hself] at h
      exact .inl h
    · obtain ⟨key, hkey⟩ := Bindings.mem_values_iff.1 h
      rw [get?_addExternName module externs hself] at hkey
      split at hkey
      · -- A crate that is known by the name already is renamed with it.
        cases hname : externs.get? name with
        | some known =>
          rw [hname] at hkey
          exact .inl (Option.some.inj hkey ▸ Bindings.mem_values_of_get? hname)
        | none =>
          rw [hname] at hkey
          exact .inr ((if_neg hself).trans hkey)
      · exact .inl (Bindings.mem_values_of_get? hkey)
  | _ => exact .inl h

/-- A name stands for a crate that it stood for before, or for one that a body declares. -/
theorem mem_values_addExternNames {bodies : List ModuleBody}
    (h : crate ∈ (bodies.foldl addExternNames externs).values) :
    crate ∈ externs.values ∨ ∃ body ∈ bodies, crate ∈ body.crates := by
  have hbody : ∀ {items : List Item} {module : ModulePath} {externs : Bindings String String},
      crate ∈ (items.foldl (addExternName module) externs).values →
      crate ∈ externs.values ∨ crate ∈ items.filterMap Item.crate? := by
    intro items module
    induction items with
    | nil => exact .inl
    | cons item rest ih =>
      intro externs h
      rcases ih h with h | h
      · refine (mem_values_addExternName h).imp_right fun hcrate => ?_
        exact List.mem_filterMap.2 ⟨item, List.mem_cons_self, hcrate⟩
      · obtain ⟨other, hother, hcrate⟩ := List.mem_filterMap.1 h
        exact .inr (List.mem_filterMap.2 ⟨other, List.mem_cons_of_mem _ hother, hcrate⟩)
  induction bodies generalizing externs with
  | nil => exact .inl h
  | cons body rest ih =>
    rcases ih h with h | ⟨other, hother, hcrate⟩
    · exact (hbody h).imp_right fun hcrate => ⟨body, List.mem_cons_self, hcrate⟩
    · exact .inr ⟨other, List.mem_cons_of_mem _ hother, hcrate⟩

end ModuleBody

/-! ### Where items stand -/

section Items

variable {around : ModulePath} {name : String}

mutual

theorem Item.exists_body_of_mem_declared {module : ModulePath} {item : Item}
    (h : around.child name ∈ Item.declared module item) :
    around = module ∧ item.moduleName? = some name ∨
      ∃ body ∈ Item.bodies module item, body.module = around ∧
        ∃ inner ∈ body.items, inner.moduleName? = some name := by
  cases item with
  | inlineModule head items =>
    rcases List.mem_cons.1 h with h | h
    · obtain ⟨rfl, rfl⟩ := ModulePath.child_inj h
      exact .inl ⟨rfl, rfl⟩
    · exact .inr (exists_body_of_mem_declaredModules h)
  | fileModule head =>
    obtain ⟨rfl, rfl⟩ := ModulePath.child_inj (List.mem_singleton.1 h)
    exact .inl ⟨rfl, rfl⟩
  | _ => cases h

/-- A declared module is an item of a body of the module around it. -/
theorem exists_body_of_mem_declaredModules {module : ModulePath} {items : List Item}
    (h : around.child name ∈ declaredModules module items) :
    ∃ body ∈ ModuleBody.mk module items :: innerBodies module items, body.module = around ∧
        ∃ inner ∈ body.items, inner.moduleName? = some name := by
  cases items with
  | nil => cases h
  | cons item rest =>
    rcases List.mem_append.1 h with h | h
    · rcases Item.exists_body_of_mem_declared h with ⟨rfl, hname⟩ | ⟨body, hbody, hinner⟩
      · exact ⟨_, List.mem_cons_self, rfl, item, List.mem_cons_self, hname⟩
      · exact ⟨body, List.mem_cons_of_mem _ (List.mem_append_left _ hbody), hinner⟩
    · obtain ⟨body, hbody, hmodule, inner, hinner, hname⟩ := exists_body_of_mem_declaredModules h
      rcases List.mem_cons.1 hbody with rfl | hbody
      · exact ⟨_, List.mem_cons_self, hmodule, inner, List.mem_cons_of_mem _ hinner, hname⟩
      · exact ⟨body, List.mem_cons_of_mem _ (List.mem_append_right _ hbody), hmodule, inner, hinner,
          hname⟩

end

mutual

theorem Item.exists_body_of_mem_ofItem {file : String} {module : ModulePath} {outer : List String}
    {item : Item} {c : Candidate} (h : c ∈ Candidate.ofItem file module outer item) :
    module = c.module ∧ item = .enumeration c.decl ∨
      ∃ body ∈ Item.bodies module item,
        body.module = c.module ∧ .enumeration c.decl ∈ body.items := by
  cases item with
  | enumeration decl =>
    rw [Candidate.ofItem, List.mem_singleton] at h
    subst h
    exact .inl ⟨rfl, rfl⟩
  | inlineModule head items =>
    rw [Candidate.ofItem] at h
    split at h
    · cases h
    · exact .inr (exists_body_of_mem_ofItems h)
  | _ => cases h

/-- A candidate is an item of a body of its module. -/
theorem exists_body_of_mem_ofItems {file : String} {module : ModulePath} {outer : List String}
    {items : List Item} {c : Candidate} (h : c ∈ Candidate.ofItems file module outer items) :
    ∃ body ∈ ModuleBody.mk module items :: innerBodies module items,
      body.module = c.module ∧ .enumeration c.decl ∈ body.items := by
  cases items with
  | nil => cases h
  | cons item rest =>
    rcases List.mem_append.1 h with h | h
    · rcases Item.exists_body_of_mem_ofItem h with ⟨hmodule, rfl⟩ | ⟨body, hbody, hdecl⟩
      · exact ⟨_, List.mem_cons_self, hmodule, List.mem_cons_self⟩
      · exact ⟨body, List.mem_cons_of_mem _ (List.mem_append_left _ hbody), hdecl⟩
    · obtain ⟨body, hbody, hmodule, hdecl⟩ := exists_body_of_mem_ofItems h
      rcases List.mem_cons.1 hbody with rfl | hbody
      · exact ⟨_, List.mem_cons_self, hmodule, List.mem_cons_of_mem _ hdecl⟩
      · exact ⟨body, List.mem_cons_of_mem _ (List.mem_append_right _ hbody), hmodule, hdecl⟩

end

mutual

theorem Item.WellNamed.of_mem_bodies {module : ModulePath} {item : Item} (h : item.WellNamed)
    {body : ModuleBody} (hbody : body ∈ Item.bodies module item) :
    ∀ inner ∈ body.items, inner.WellNamed := by
  cases item with
  | inlineModule head items =>
    cases h with
    | inlineModule _ hitems =>
      rcases List.mem_cons.1 hbody with rfl | hbody
      · exact hitems
      · exact wellNamed_of_mem_innerBodies hitems hbody
  | _ => cases hbody

theorem wellNamed_of_mem_innerBodies {module : ModulePath} {items : List Item}
    (h : ∀ item ∈ items, item.WellNamed) {body : ModuleBody}
    (hbody : body ∈ innerBodies module items) : ∀ inner ∈ body.items, inner.WellNamed := by
  cases items with
  | nil => cases hbody
  | cons item rest =>
    rcases List.mem_append.1 hbody with hbody | hbody
    · exact (h item List.mem_cons_self).of_mem_bodies hbody
    · have hrest := (List.forall_mem_cons.1 h).2
      exact wellNamed_of_mem_innerBodies hrest hbody

end

end Items

/-! ### Loaded crates -/

/-- Every file of the crate was read from a text. -/
def Compilation.IsRead (compilation : Compilation) : Prop :=
  ∀ file ∈ compilation.files, ∃ text, Grammar.parseFile text = .ok file.source

/-- Every module with a body is declared in a body of the module around it, and every name is one
that the grammar has for it. -/
structure Compilation.IsSound (compilation : Compilation) : Prop where
  declared : ∀ body ∈ compilation.bodies, ∀ around name,
    body.module = ModulePath.child around name →
    ∃ outer ∈ compilation.bodies, outer.module = around ∧
      ∃ item ∈ outer.items, item.moduleName? = some name
  wellNamed : ∀ body ∈ compilation.bodies, ∀ item ∈ body.items, item.WellNamed

namespace FileSystem

variable {fs : FileSystem} {root : String}

theorem exists_text_of_source {path : String} {source : SourceText}
    (h : fs.source path = .ok source) : ∃ text, Grammar.parseFile text = .ok source := by
  unfold FileSystem.source at h
  split at h
  · cases h
  · next text _ =>
    cases hparse : Grammar.parseFile text with
    | error fault => rw [hparse] at h; cases h
    | ok parsed =>
      rw [hparse] at h
      cases h
      exact ⟨text, hparse⟩

theorem wellNamed_of_source {path : String} {source : SourceText}
    (h : fs.source path = .ok source) :
    ∀ item ∈ source.items, item.WellNamed := by
  obtain ⟨text, hparse⟩ := exists_text_of_source h
  exact Grammar.wellNamed_of_parseFile hparse

theorem exists_text_of_filesFrom {depth : Nat} {visit : Visit} {files : List SourceFile}
    (h : fs.filesFrom depth visit = .ok files) :
    ∀ file ∈ files, ∃ text, Grammar.parseFile text = .ok file.source := by
  induction depth generalizing visit files with
  | zero => cases h
  | succ depth ih =>
    obtain ⟨source, inner, hsource, hinner, rfl⟩ := filesFrom_eq_ok_iff.1 h
    intro file hfile
    rcases List.mem_cons.1 hfile with rfl | hfile
    · exact exists_text_of_source hsource
    · obtain ⟨files, hmem, hfile⟩ := List.mem_flatten.1 hfile
      obtain ⟨next, -, hload⟩ := exists_of_mem_forall₂ hinner.flip hmem
      exact ih hload file hfile

theorem exists_part_of_mem_bodies {files : List SourceFile} {body : ModuleBody}
    (h : body ∈ files.flatMap SourceFile.bodies) :
    ∃ part ∈ files.flatMap SourceFile.parts, part.module = body.module := by
  obtain ⟨file, hfile, hbody⟩ := List.mem_flatMap.1 h
  have hmem : body.outline ∈ file.parts.filterMap Part.body? := by
    rw [file.bodies_parts]
    exact List.mem_map_of_mem hbody
  obtain ⟨part, hpart, hof⟩ := List.mem_filterMap.1 hmem
  refine ⟨part, List.mem_flatMap.2 ⟨file, hfile, hpart⟩, ?_⟩
  cases part with
  | body outline =>
    obtain rfl : outline = body.outline := Option.some.inj hof
    rfl
  | candidate c => cases hof

end FileSystem

namespace Compilation

theorem isSound_of_load {fs : FileSystem} {depth : Nat} {crateName root : String}
    {compilation : Compilation}
    (hload : runOn (loadWithin FileSystem.disk depth crateName root) fs = (.ok compilation, fs))
    (externs : List (String × String)) : (compilation.addExterns externs).IsSound := by
  rw [loadWithin_disk] at hload
  cases hfiles : fs.filesFrom depth (.root root) with
  | error failure => rw [hfiles] at hload; cases hload
  | ok files =>
    rw [hfiles] at hload
    obtain rfl : _ = compilation := Except.ok.inj (Prod.mk.inj hload).1
    have hbodies : (((empty crateName).addFiles files).addExterns externs).bodies =
        files.flatMap SourceFile.bodies := by
      rw [bodies, files_addExterns]
      rfl
    constructor
    · rw [hbodies]
      intro body hbody around name hmodule
      obtain ⟨part, hpart, hof⟩ := FileSystem.exists_part_of_mem_bodies hbody
      -- A module other than the root is visited only if it, or one around it, is declared.
      have hwithin : part.module.IsWithin (around.child name) := by
        rw [← hmodule, ← hof]
        exact .refl _
      have hroot : ¬ ModulePath.root.IsWithin (around.child name) := by
        simp [ModulePath.IsWithin, ModulePath.child, ModulePath.root]
      have hdeclared := FileSystem.mem_declared_of_mem_filesFrom hfiles hpart hwithin hroot
      obtain ⟨file, hfile, hdeclared⟩ := List.mem_flatMap.1 hdeclared
      obtain ⟨outer, houter, hinner⟩ := exists_body_of_mem_declaredModules hdeclared
      exact ⟨outer, List.mem_flatMap.2 ⟨file, hfile, houter⟩, hinner⟩
    · rw [hbodies]
      intro body hbody
      obtain ⟨file, hfile, hbody⟩ := List.mem_flatMap.1 hbody
      obtain ⟨text, hparse⟩ := FileSystem.exists_text_of_filesFrom hfiles file hfile
      have hitems := Grammar.wellNamed_of_parseFile hparse
      rcases List.mem_cons.1 hbody with rfl | hbody
      · exact hitems
      · exact wellNamed_of_mem_innerBodies hitems hbody

theorem isRead_of_load {fs : FileSystem} {depth : Nat} {crateName root : String}
    {compilation : Compilation}
    (hload : runOn (loadWithin FileSystem.disk depth crateName root) fs = (.ok compilation, fs)) :
    compilation.IsRead := by
  rw [loadWithin_disk] at hload
  cases hfiles : fs.filesFrom depth (.root root) with
  | error failure => rw [hfiles] at hload; cases hload
  | ok files =>
    rw [hfiles] at hload
    obtain rfl : _ = compilation := Except.ok.inj (Prod.mk.inj hload).1
    exact FileSystem.exists_text_of_filesFrom hfiles

theorem isRead_empty (crateName : String) : (empty crateName).IsRead := nofun

theorem IsRead.addExtern {compilation : Compilation} (h : compilation.IsRead)
    (name crate : String) : (compilation.addExtern name crate).IsRead := h

theorem IsRead.addSource {compilation compilation' : Compilation} {module : ModulePath}
    {path text : String} (h : compilation.IsRead)
    (hadd : compilation.addSource module path text = .ok compilation') : compilation'.IsRead := by
  obtain ⟨source, hsource, hadd⟩ := Except.bind_eq_ok.1 hadd
  cases hadd
  intro file hfile
  rcases List.mem_append.1 hfile with hfile | hfile
  · exact h file hfile
  · obtain rfl := List.mem_singleton.1 hfile
    exact ⟨text, hsource⟩

theorem exists_body_of_mem_candidates {compilation : Compilation} {c : Candidate}
    (hc : c ∈ compilation.candidates) :
    ∃ body ∈ compilation.bodies, body.module = c.module ∧ .enumeration c.decl ∈ body.items := by
  obtain ⟨file, hfile, hc⟩ := List.mem_flatMap.1 hc
  obtain ⟨body, hbody, hplace⟩ := exists_body_of_mem_ofItems hc
  exact ⟨body, List.mem_flatMap.2 ⟨file, hfile, hbody⟩, hplace⟩

namespace IsSound

variable {compilation : Compilation} (h : compilation.IsSound)

include h

/-- The table of such a crate is nested. -/
theorem isNested : compilation.symbolTable.IsNested := by
  constructor
  · intro around name hscope
    obtain ⟨body, hbody, hmodule⟩ := exists_scope_iff.1 (Option.ne_none_iff_exists'.1 hscope)
    obtain ⟨outer, houter, haround, item, hitem, hname⟩ := h.declared body hbody around name hmodule
    obtain ⟨scope, hscope⟩ := exists_scope_iff.2 ⟨outer, houter, haround⟩
    have hmem : name ∈ scope.modules :=
      ((declared_scope hscope name).2).2 ⟨outer, houter, haround, item, hitem, hname⟩
    exact ⟨scope, hscope, hmem⟩
  · intro module scope hscope
    rw [(declared_scope hscope _).1, (declared_scope hscope _).2]
    constructor
    · rintro ⟨body, hbody, -, item, hitem, hname⟩
      have hwell := h.wellNamed body hbody item hitem
      exact (hwell.of_itemName? hname).elim not_isSegment_super (absurd · (by decide))
    · rintro ⟨body, hbody, -, item, hitem, hname⟩
      exact not_isSegment_super ((h.wellNamed body hbody item hitem).of_moduleName? hname)

/-- The names on the way to a module are segments of paths. -/
theorem isSegment_of_mem_segments {body : ModuleBody} (hbody : body ∈ compilation.bodies) :
    ∀ name ∈ body.module.segments, IsSegment name := by
  obtain ⟨⟨segments⟩, items⟩ := body
  -- From the root inwards: the last name is that of an item in the body of the module around.
  induction segments using List.reverseRecOn generalizing items with
  | nil => exact List.forall_mem_nil _
  | append_singleton segments last ih =>
    obtain ⟨outer, houter, haround, item, hitem, hname⟩ := h.declared _ hbody ⟨segments⟩ last rfl
    intro name hmem
    rcases List.mem_append.1 hmem with hmem | hmem
    · obtain ⟨module, items⟩ := outer
      obtain rfl : module = ⟨segments⟩ := haround
      exact ih items houter name hmem
    · obtain rfl := List.mem_singleton.1 hmem
      exact (h.wellNamed outer houter item hitem).of_moduleName? hname

theorem isSegment_of_mem_symbol {c : Candidate} (hc : c ∈ compilation.candidates) :
    ∀ name ∈ c.symbol.segments, IsSegment name := by
  obtain ⟨body, hbody, hmodule, hdecl⟩ := exists_body_of_mem_candidates hc
  intro name hname
  rcases List.mem_append.1 hname with hname | hname
  · exact h.isSegment_of_mem_segments hbody name (hmodule ▸ hname)
  · rw [List.mem_singleton.1 hname]
    cases h.wellNamed body hbody _ hdecl with
    | enumeration hidentifier => exact .inl hidentifier

theorem crate_notMem (hcrate : "crate" ∉ compilation.externs.values) :
    "crate" ∉ compilation.symbolTable.externs.values := by
  intro hmem
  rcases ModuleBody.mem_values_addExternNames hmem with hmem | ⟨body, hbody, hmem⟩
  · exact hcrate hmem
  · obtain ⟨item, hitem, hname⟩ := List.mem_filterMap.1 hmem
    cases h.wellNamed body hbody item hitem with
    | externCrate binding hidentifier =>
      simp only [Item.crate?, Option.ite_none_left_eq_some, Option.some.injEq] at hname
      obtain ⟨hself, rfl⟩ := hname
      exact hidentifier.elim (by decide) hself
    | _ => cases hname

end IsSound

end Compilation

end DescriptionLookup
