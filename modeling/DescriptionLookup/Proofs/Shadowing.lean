import DescriptionLookup.Proofs.Derivation
import DescriptionLookup.Proofs.TestModules
import Mathlib.Data.List.Induction

/-!
# Items that shadow modules

A scope has one namespace, in which declared items come before child modules. A function, constant,
static or macro that is called like a child module therefore takes the name away from the module,
although the two could never be meant by the same path. This module says what comes of one more item
in a module that declares a child module of the same name.

* `Inserts`, `Compilation.Inserts`: one more item in a module of a crate;
* `SymbolTable.Gains`, `Compilation.Inserts.gains`: what that is to the table;
* `Names.of_gains`, `Leads.of_gains`: nothing is derivable that was not, except inside the new item;
* `hop_through`: wherever a query goes through the name, it ends inside the new item;
* `Declares`: the names of which this is right.
-/

namespace DescriptionLookup

/-! ### One more item -/

/-- The second items, which stand in the module `around`, are the first ones with one more item in a
module, `around` itself or one in braces inside it. -/
inductive Inserts (extra : Item) (module : ModulePath) :
    (around : ModulePath) → List Item → List Item → Prop
  | here (before behind : List Item) :
    Inserts extra module module (before ++ behind) (before ++ extra :: behind)
  | inside {around : ModulePath} {head : ModuleHead} {items items' : List Item}
    (before behind : List Item) : Inserts extra module (around.child head.name) items items' →
    Inserts extra module around (before ++ .inlineModule head items :: behind)
      (before ++ .inlineModule head items' :: behind)

/-- The second crate is the first one with one more item in a module. -/
inductive Compilation.Inserts (extra : Item) (module : ModulePath) :
    Compilation → Compilation → Prop
  | mk (crateName : String) (externs : Bindings String String) (before behind : List SourceFile)
    (file : SourceFile) (items : List Item) :
    DescriptionLookup.Inserts extra module file.module file.source.items items →
    Inserts extra module ⟨crateName, before ++ file :: behind, externs⟩
      ⟨crateName, before ++ { file with source := { file.source with items } } :: behind, externs⟩

theorem Bindings.mem_entries_of_get? {κ α : Type} [DecidableEq κ] {b : Bindings κ α} {key : κ}
    {value : α} (h : b.get? key = some value) : (key, value) ∈ b.entries := by
  obtain ⟨entry, hentry, rfl⟩ := Option.map_eq_some_iff.1 h
  have hkey : entry.1 = key := by simpa using List.find?_some hentry
  rw [← hkey]
  exact List.mem_of_find?_eq_some hentry

/-! ### Scopes -/

/-- The second scope is the first one with one more item. -/
structure Scope.Gains (name : String) (scope scope' : Scope) : Prop where
  items : ∀ other, other ∈ scope'.items ↔ other = name ∨ other ∈ scope.items
  modules : scope'.modules = scope.modules
  imports : scope'.imports = scope.imports
  globs : scope'.globs = scope.globs

namespace Scope.Gains

variable {name : String} {scope scope' : Scope}

theorem addImports (h : scope.Gains name scope') (absolute : Bool) (imports : List Import) :
    (imports.foldl (addImport absolute) scope).Gains name
      (imports.foldl (addImport absolute) scope') := by
  induction imports generalizing scope scope' with
  | nil => exact h
  | cons first rest ih =>
    refine ih ?_
    cases first with
    | single binding path =>
      exact ⟨h.items, h.modules, by simp only [addImport, h.imports], h.globs⟩
    | glob path => exact ⟨h.items, h.modules, h.imports, by simp only [addImport, h.globs]⟩

theorem addNamed (h : scope.Gains name scope') (other : String) :
    Gains name { scope with items := scope.items ++ [other] }
      { scope' with items := scope'.items ++ [other] } := by
  refine ⟨fun third => ?_, h.modules, h.imports, h.globs⟩
  simp only [List.mem_append, h.items third, or_assoc]

/-- Both scopes take up the further items of their module alike. -/
theorem addItem (h : scope.Gains name scope') (item : Item) :
    (scope.addItem item).Gains name (scope'.addItem item) := by
  cases item with
  | enumeration decl => exact h.addNamed decl.name
  | named kind other => exact h.addNamed other
  | inlineModule head _ =>
    exact ⟨h.items, by simp only [Scope.addItem, h.modules], h.imports, h.globs⟩
  | fileModule head =>
    exact ⟨h.items, by simp only [Scope.addItem, h.modules], h.imports, h.globs⟩
  | imports absolute tree => exact h.addImports absolute (tree.imports [])
  | externCrate crate binding =>
    simp only [Scope.addItem, addExternCrate]
    split
    · exact h
    · exact ⟨h.items, h.modules, by simp only [h.imports], h.globs⟩
  | irregular => exact h
  | unnamed => exact h

theorem addItems (h : scope.Gains name scope') (items : List Item) :
    (scope.addItems items).Gains name (scope'.addItems items) := by
  unfold Scope.addItems
  induction items generalizing scope scope' with
  | nil => exact h
  | cons item rest ih => exact ih (h.addItem item)

theorem insert (scope : Scope) (kind : ItemKind) (name : String) (before behind : List Item) :
    (scope.addItems (before ++ behind)).Gains name
      (scope.addItems (before ++ .named kind name :: behind)) := by
  have hone : (scope.addItems before).Gains name
      ((scope.addItems before).addItem (.named kind name)) := by
    refine ⟨fun other => ?_, rfl, rfl, rfl⟩
    simp only [Scope.addItem, List.mem_append, List.mem_singleton]
    exact Or.comm
  have hsplit : ∀ items, scope.addItems (before ++ items) =
      (scope.addItems before).addItems items :=
    fun items => List.foldl_append
  rw [hsplit, hsplit]
  exact hone.addItems behind

end Scope.Gains

/-- The second table is the first one with one more item in the scope of a module. -/
structure SymbolTable.Gains (module : ModulePath) (name : String) (table table' : SymbolTable) :
    Prop where
  scope : ∃ scope scope', table.scopes.get? module = some scope ∧
    table'.scopes.get? module = some scope' ∧ scope.Gains name scope'
  others : ∀ other, other ≠ module → table'.scopes.get? other = table.scopes.get? other
  externs : table'.externs = table.externs

/-! ### Bodies -/

section Bodies

variable {extra : Item} {module around : ModulePath} {items items' : List Item}

/-- One body of the module has one more item, and all other bodies are the same up to their
outlines. An item that is no module holds no bodies of its own. -/
theorem Inserts.exists_bodies (h : Inserts extra module around items items')
    (hextra : ∀ around, Item.bodies around extra = []) :
    ∃ front before behind back,
      (ModuleBody.mk around items :: innerBodies around items).map ModuleBody.outline =
        front ++ ⟨module, before ++ behind⟩ :: back ∧
      (ModuleBody.mk around items' :: innerBodies around items').map ModuleBody.outline =
        front ++ ⟨module, before ++ extra.outline :: behind⟩ :: back := by
  induction h with
  | here before behind =>
    refine ⟨[], before.map Item.outline, behind.map Item.outline,
      (innerBodies module (before ++ behind)).map ModuleBody.outline, ?_, ?_⟩
    · simp [ModuleBody.outline]
    · simp [ModuleBody.outline, innerBodies_append, innerBodies, hextra]
  | @inside around head items items' before behind _ ih =>
    obtain ⟨front, first, last, back, hitems, hitems'⟩ := ih
    refine ⟨ModuleBody.outline ⟨around, before ++ .inlineModule head items :: behind⟩ ::
        (innerBodies around before).map ModuleBody.outline ++ front, first, last,
      back ++ (innerBodies around behind).map ModuleBody.outline, ?_, ?_⟩
    · simp only [innerBodies_append, innerBodies, Item.bodies, List.map_cons, List.map_append]
        at hitems ⊢
      rw [hitems]
      simp
    · simp only [innerBodies_append, innerBodies, Item.bodies, List.map_cons, List.map_append]
        at hitems' ⊢
      rw [hitems']
      simp [ModuleBody.outline, Item.outline]

end Bodies

namespace Compilation

variable {compilation compilation' : Compilation} {module : ModulePath} {name : String}
  {kind : ItemKind}

/-- The scope of a module from the outlines of the bodies. -/
theorem get?_scopes_outline (compilation : Compilation) (module : ModulePath) :
    compilation.symbolTable.scopes.get? module =
      (((compilation.bodies.map ModuleBody.outline).filter (·.module = module)).map
        ModuleBody.items).foldl ModuleBody.addBody none := by
  rw [get?_scopes, List.filter_map, List.map_map, List.foldl_map, List.foldl_map]
  simp only [Function.comp_apply, ModuleBody.addBody_outline]
  rfl

/-- The extern crates from the outlines of the bodies. -/
theorem externs_outline (compilation : Compilation) :
    compilation.symbolTable.externs =
      (compilation.bodies.map ModuleBody.outline).foldl ModuleBody.addExternNames
        compilation.externs := by
  rw [List.foldl_map]
  simp only [ModuleBody.addExternNames_outline]
  rfl

/-- One body of the module has one more item. -/
theorem Inserts.exists_bodies (h : Inserts (.named kind name) module compilation compilation') :
    compilation'.externs = compilation.externs ∧ ∃ front before behind back,
      compilation.bodies.map ModuleBody.outline = front ++ ⟨module, before ++ behind⟩ :: back ∧
      compilation'.bodies.map ModuleBody.outline =
        front ++ ⟨module, before ++ .named kind name :: behind⟩ :: back := by
  obtain ⟨crateName, externs, before, behind, file, items, h⟩ := h
  obtain ⟨front, first, last, back, hitems, hitems'⟩ := h.exists_bodies fun _ => rfl
  refine ⟨rfl, (before.flatMap SourceFile.bodies).map ModuleBody.outline ++ front, first, last,
    back ++ (behind.flatMap SourceFile.bodies).map ModuleBody.outline, ?_, ?_⟩
  · simp only [bodies, List.flatMap_append, List.flatMap_cons, List.map_append]
    rw [SourceFile.bodies, hitems]
    simp
  · simp only [bodies, List.flatMap_append, List.flatMap_cons, List.map_append]
    rw [SourceFile.bodies, hitems']
    simp [Item.outline]

/-- One more item of a module is one more item in its scope, and nothing else in the table. -/
theorem Inserts.gains (h : Inserts (.named kind name) module compilation compilation') :
    SymbolTable.Gains module name compilation.symbolTable compilation'.symbolTable := by
  obtain ⟨hexterns, front, before, behind, back, hbodies, hbodies'⟩ := h.exists_bodies
  refine ⟨?_, fun other hother => ?_, ?_⟩
  · rw [get?_scopes_outline, get?_scopes_outline, hbodies, hbodies', addBodies_eq, addBodies_eq,
      if_neg (by simp), if_neg (by simp)]
    refine ⟨_, _, rfl, rfl, ?_⟩
    simp only [List.filter_append, List.filter_cons, decide_true, if_true, List.map_append,
      List.map_cons, List.flatten_append, List.flatten_cons, List.append_assoc, List.cons_append]
    rw [← List.append_assoc, ← List.append_assoc _ before]
    exact .insert _ kind name _ _
  · rw [get?_scopes_outline, get?_scopes_outline, hbodies, hbodies']
    simp [List.filter_append, Ne.symm hother]
  · rw [externs_outline, externs_outline, hbodies, hbodies', hexterns]
    simp [ModuleBody.addExternNames, ModuleBody.addExternName]

end Compilation

/-- The symbol is that of an item, or of something inside the item. -/
def Symbol.IsInside (symbol : Symbol) (module : ModulePath) (name : String) : Prop :=
  ∃ rest, symbol = ⟨.here, module.segments ++ name :: rest⟩

theorem Symbol.isInside_ofLocal (module : ModulePath) (name : String) :
    (ofLocal module name).IsInside module name := ⟨[], rfl⟩

theorem Symbol.IsInside.child {symbol : Symbol} {module : ModulePath} {name : String}
    (h : symbol.IsInside module name) (inner : String) :
    (symbol.child inner).IsInside module name := by
  obtain ⟨rest, rfl⟩ := h
  exact ⟨rest ++ [inner], by simp [Symbol.child]⟩

namespace SymbolTable

variable {table table' : SymbolTable} {module : ModulePath} {name : String}

/-! ### What becomes derivable -/

section Derivable

variable {skip : Option String} {around : ModulePath} {target : Target}

/-- Every scope of the second table is a scope of the first one, perhaps with the item. -/
theorem Gains.exists_scope (h : Gains module name table table') {scope' : Scope}
    (hscope : table'.scopes.get? around = some scope') :
    ∃ scope, table.scopes.get? around = some scope ∧ scope.modules = scope'.modules ∧
      scope.imports = scope'.imports ∧ scope.globs = scope'.globs ∧
      ∀ other, other ∈ scope'.items ↔
        around = module ∧ other = name ∨ other ∈ scope.items := by
  by_cases haround : around = module
  · subst haround
    obtain ⟨scope, found, hbefore, hafter, hgains⟩ := h.scope
    cases hafter.symm.trans hscope
    exact ⟨scope, hbefore, hgains.modules.symm, hgains.imports.symm, hgains.globs.symm,
      fun other => by simp [hgains.items other]⟩
  · exact ⟨scope', (h.others around haround).symm.trans hscope, rfl, rfl, rfl,
      fun other => by simp [haround]⟩

mutual

/-- What a name stands for after the item is added it stood for before, or it is inside the item. -/
theorem Names.of_gains (h : Gains module name table table') {skip : Option String}
    {around : ModulePath} {other : String} {target : Target}
    (hnames : table'.Names skip around other target) :
    table.Names skip around other target ∨
      ∃ symbol, target = .symbol symbol ∧ symbol.IsInside module name := by
  match hnames with
  | .item hscope hitem =>
    obtain ⟨scope, hscope, -, -, -, hitems⟩ := h.exists_scope hscope
    rcases (hitems _).1 hitem with ⟨rfl, rfl⟩ | hitem
    · exact .inr ⟨_, rfl, Symbol.isInside_ofLocal _ _⟩
    · exact .inl (.item hscope hitem)
  | .child hscope hitem hmodule =>
    obtain ⟨scope, hscope, hmodules, -, -, hitems⟩ := h.exists_scope hscope
    rw [hitems, not_or] at hitem
    exact .inl (.child hscope hitem.2 (hmodules ▸ hmodule))
  | .imported hscope hitem hmodule hskip himport hpath =>
    obtain ⟨scope, hscope, hmodules, himports, -, hitems⟩ := h.exists_scope hscope
    rw [hitems, not_or] at hitem
    exact (hpath.of_gains h).imp_left fun hpath =>
      .imported hscope hitem.2 (hmodules ▸ hmodule) hskip (himports ▸ himport) hpath
  | .glob hscope hunbound hglob hpath hname =>
    obtain ⟨scope, hscope, hmodules, himports, hglobs, hitems⟩ := h.exists_scope hscope
    obtain ⟨hitem, hmodule, himport⟩ := hunbound
    rw [hitems, not_or] at hitem
    rcases hpath.of_gains h with hpath | ⟨symbol, hsymbol, -⟩
    · exact (hname.of_gains h).imp_left fun hname => .glob hscope
        ⟨hitem.2, hmodules ▸ hmodule, himports ▸ himport⟩ (hglobs ▸ hglob) hpath hname
    · cases hsymbol
  | .foreignGlob hscope hunbound hglob hpath hforeign hextern =>
    obtain ⟨scope, hscope, hmodules, himports, hglobs, hitems⟩ := h.exists_scope hscope
    obtain ⟨hitem, hmodule, himport⟩ := hunbound
    rw [hitems, not_or] at hitem
    rcases hpath.of_gains h with hpath | ⟨symbol, hsymbol, rest, rfl⟩
    · exact .inl (.foreignGlob hscope ⟨hitem.2, hmodules ▸ hmodule, himports ▸ himport⟩
        (hglobs ▸ hglob) hpath hforeign (h.externs ▸ hextern))
    · cases hsymbol
      cases hforeign

/-- So it is with what a path stands for. -/
theorem Leads.of_gains (h : Gains module name table table') {skip : Option String}
    {around : ModulePath} {path : Path} {target : Target}
    (hleads : table'.Leads skip around path target) :
    table.Leads skip around path target ∨
      ∃ symbol, target = .symbol symbol ∧ symbol.IsInside module name := by
  match hleads with
  | .foreign hcrate => exact .inl (.foreign (h.externs ▸ hcrate))
  | .crate => exact .inl .crate
  | .self => exact .inl .self
  | .super hparent => exact .inl (.super hparent)
  | .name hanchor hname => exact (hname.of_gains h).imp_left (.name hanchor)
  | .prelude hanchor hcrate => exact .inl (.prelude hanchor (h.externs ▸ hcrate))
  | .up hlead hparent =>
    rcases hlead.of_gains h with hlead | ⟨symbol, hsymbol, -⟩
    · exact .inl (.up hlead hparent)
    · cases hsymbol
  | .into hlead hsuper hname =>
    rcases hlead.of_gains h with hlead | ⟨symbol, hsymbol, -⟩
    · exact (hname.of_gains h).imp_left (.into hlead hsuper)
    · cases hsymbol
  | .beyond hlead =>
    rcases hlead.of_gains h with hlead | ⟨symbol, hsymbol, hinside⟩
    · exact .inl (.beyond hlead)
    · cases hsymbol
      exact .inr ⟨_, rfl, hinside.child _⟩

end

end Derivable

/-! ### Going through a name -/

section Through

variable {σ : Type} {memory : Memory σ} {hops : Nat} {skip : Option String} {around : ModulePath}
  {absolute : Bool} {lead rest names : List String} {s t : σ}

/-- The module declares a child module of this name, and no item. -/
def DeclaresModule (table : SymbolTable) (module : ModulePath) (name : String) : Prop :=
  ∃ scope, table.scopes.get? module = some scope ∧ name ∈ scope.modules ∧ name ∉ scope.items

theorem lookup_of_item {scope : Scope} (hscope : table.scopes.get? module = some scope)
    (hitem : name ∈ scope.items) :
    table.lookup memory hops skip module name = pure (.symbol (.ofLocal module name)) := by
  have hbinding : scope.binding? module skip name =
      some (.declared (.symbol (.ofLocal module name))) := by
    simp [Scope.binding?, hitem]
  rw [lookup, find_of_declared hscope hbinding]
  rfl

theorem lookup_of_module (h : table.DeclaresModule module name) :
    table.lookup memory hops skip module name = pure (.module (module.child name)) := by
  obtain ⟨scope, hscope, hmodule, hitem⟩ := h
  have hbinding : scope.binding? module skip name =
      some (.declared (.module (module.child name))) := by
    simp [Scope.binding?, hitem, hmodule]
  rw [lookup, find_of_declared hscope hbinding]
  rfl

theorem foldlM_enter_symbol (look : Look σ) (names : List String) (symbol : Symbol) :
    names.foldlM (enter look) (.symbol symbol) =
      pure (.symbol { symbol with segments := symbol.segments ++ names }) := by
  induction names generalizing symbol with
  | nil => simp
  | cons name rest ih =>
    rw [List.foldlM_cons]
    show enter look (.symbol symbol) name >>= _ = _
    rw [enter, pure_bind, ih, Symbol.child, List.append_assoc, List.singleton_append]

theorem follow_append (look : Look σ) (hlead : lead ≠ []) :
    table.follow look skip around ⟨absolute, lead ++ rest⟩ =
      table.follow look skip around ⟨absolute, lead⟩ >>= rest.foldlM (enter look) := by
  cases lead with
  | nil => exact absurd rfl hlead
  | cons first names =>
    simp only [follow, List.cons_append, List.foldlM_append, bind_assoc]

/-- A query for these names, which stand in the module `around`, has arrived in a module: the names
lead there, or there are none so far and the next one is looked up where the path stands. -/
inductive Arrives (table : SymbolTable) (memory : Memory σ) (hops : Nat) (skip : Option String) :
    (around : ModulePath) → (absolute : Bool) → (lead : List String) → σ → ModulePath → σ → Prop
  | here (module : ModulePath) (s : σ) : Arrives table memory hops skip module false [] s module s
  | led {around module : ModulePath} {absolute : Bool} {lead : List String} {s t : σ} :
    (table.hop memory (hops + 1) around skip ⟨absolute, lead⟩).outcome s =
      (some (.module module), t) →
    Arrives table memory hops skip around absolute lead s module t

/-- From a name that the module declares a query goes on to what is declared. -/
theorem Arrives.outcome_eq (h : table.Arrives memory hops skip around absolute lead s module t)
    (hname : name ∉ anchors) {target : Target}
    (htarget : ∀ skip, table.lookup memory hops skip module name = pure target) :
    (table.hop memory (hops + 1) around skip ⟨absolute, lead ++ name :: rest⟩).outcome s =
      (rest.foldlM (enter (table.lookup memory hops)) target).outcome t := by
  have hsuper : name ≠ "super" := by
    rintro rfl
    exact hname (by decide)
  cases h with
  | here =>
    have hanchor : (table.anchor (table.lookup memory hops) skip module false name).outcome s =
        (some target, s) := by
      rw [anchor_of_not_mem hname, htarget, Query.outcome_orElse, Query.outcome_pure]
    show Query.outcome (table.anchor _ _ _ _ _ >>= _) s = _
    rw [Query.outcome_bind, hanchor]
  | led hlead =>
    have hne : lead ≠ [] := by
      rintro rfl
      cases hlead
    have henter : enter (table.lookup memory hops) (.module module) name = pure target := by
      rw [enter, if_neg hsuper, htarget]
    rw [hop] at hlead ⊢
    rw [follow_append _ hne, Query.outcome_bind, hlead]
    show Query.outcome (List.foldlM _ _ (name :: rest)) t = _
    rw [List.foldlM_cons, henter, pure_bind]

/-- Wherever a query goes through the name of an item, it ends inside the item. -/
theorem hop_through {scope : Scope} (hscope : table.scopes.get? module = some scope)
    (hitem : name ∈ scope.items) (hname : name ∉ anchors)
    (h : table.Arrives memory hops skip around absolute lead s module t) :
    (table.hop memory (hops + 1) around skip ⟨absolute, lead ++ name :: rest⟩).outcome s =
      (some (.symbol ⟨.here, module.segments ++ name :: rest⟩), t) := by
  rw [h.outcome_eq hname fun _ => lookup_of_item hscope hitem, foldlM_enter_symbol,
    Query.outcome_pure]
  simp [Symbol.ofLocal]

/-! ### Names that are declared straight -/

/-- The names lead from a module through child modules, none of which is shadowed, to an item, or
further into what is inside the item. -/
inductive Declares (table : SymbolTable) : ModulePath → List String → Prop
  | item {module : ModulePath} {scope : Scope} {name : String} (rest : List String) :
    table.scopes.get? module = some scope → name ∈ scope.items → name ≠ "super" →
    Declares table module (name :: rest)
  | inside {module : ModulePath} {name : String} {rest : List String} :
    table.DeclaresModule module name → name ≠ "super" → Declares table (module.child name) rest →
    Declares table module (name :: rest)

theorem Declares.outcome_eq (h : table.Declares module names) (s : σ) :
    (names.foldlM (enter (table.lookup memory hops)) (.module module)).outcome s =
      (some (.symbol ⟨.here, module.segments ++ names⟩), s) := by
  induction h with
  | @item module scope name rest hscope hitem hsuper =>
    rw [List.foldlM_cons, enter, if_neg hsuper, lookup_of_item hscope hitem, pure_bind,
      foldlM_enter_symbol, Query.outcome_pure]
    simp [Symbol.ofLocal]
  | @inside module name rest hmodule hsuper _ ih =>
    rw [List.foldlM_cons, enter, if_neg hsuper, lookup_of_module hmodule, pure_bind, ih]
    simp [ModulePath.child]

/-- Every module with a body is declared in the module around it, and none is called by the word for
that one. -/
structure IsNested (table : SymbolTable) : Prop where
  declared : ∀ module name, table.scopes.get? (ModulePath.child module name) ≠ none →
    ∃ scope, table.scopes.get? module = some scope ∧ name ∈ scope.modules
  named : ∀ module scope, table.scopes.get? module = some scope →
    "super" ∉ scope.items ∧ "super" ∉ scope.modules

/-- No module around this one, or it itself, has the name of an item beside it. -/
def IsPlain (table : SymbolTable) (module : ModulePath) : Prop :=
  ∀ around name scope, module.IsWithin (around.child name) →
    table.scopes.get? around = some scope → name ∉ scope.items

/-- The modules around one that has a body have bodies and are declared. -/
theorem IsNested.exists_scope (h : table.IsNested) {names : List String} {name : String}
    (hscope : table.scopes.get? ⟨module.segments ++ name :: names⟩ ≠ none) :
    ∃ scope, table.scopes.get? module = some scope ∧ name ∈ scope.modules := by
  induction names using List.reverseRecOn with
  | nil => exact h.declared module name hscope
  | append_singleton names last ih =>
    refine ih fun hnone => ?_
    have hlast : (⟨module.segments ++ name :: (names ++ [last])⟩ : ModulePath) =
        ModulePath.child ⟨module.segments ++ name :: names⟩ last := by
      simp [ModulePath.child]
    rw [hlast] at hscope
    obtain ⟨scope, hscope, -⟩ := h.declared _ _ hscope
    rw [hnone] at hscope
    cases hscope

/-- Where an item is declared somewhere inside a module, its path is straight. -/
theorem IsNested.declares (h : table.IsNested) {names : List String} {scope : Scope}
    (hscope : table.scopes.get? ⟨module.segments ++ names⟩ = some scope)
    (hitem : name ∈ scope.items) (rest : List String) :
    table.Declares module (names ++ name :: rest) := by
  induction names generalizing module with
  | nil =>
    have hmodule : table.scopes.get? module = some scope := by simpa using hscope
    refine .item rest hmodule hitem ?_
    rintro rfl
    exact (h.named module scope hmodule).1 hitem
  | cons first names ih =>
    obtain ⟨around, haround, hmodule⟩ := h.exists_scope (hscope ▸ Option.some_ne_none scope)
    have hsuper : first ≠ "super" := by
      rintro rfl
      exact (h.named module around haround).2 hmodule
    by_cases hfirst : first ∈ around.items
    · exact .item _ haround hfirst hsuper
    · refine .inside ⟨around, haround, hmodule, hfirst⟩ hsuper (ih ?_)
      simpa [ModulePath.child] using hscope

end Through

/-! ### Answers before and after -/

section Answers

variable {hops : Nat} {skip : Option String} {around : ModulePath} {absolute : Bool}
  {lead rest : List String} {s s' t t' : Searched}

theorem yields_hop (hops : Nat) (skip : Option String) (around : ModulePath) (path : Path) :
    (table.hop .once hops around skip path).Yields (table.Leads skip around path) := by
  cases hops with
  | zero => exact Query.Yields.stop
  | succ hops =>
    exact yields_follow (fun name => Query.Yields.map (yields_find hops skip around name))
      (fun module name => Query.Yields.map (yields_find hops none module name)) path

/-- What a path stands for where so many hops are left for imports and globs, and these names have
been searched. -/
def answer (table : SymbolTable) (hops : Nat) (skip : Option String) (around : ModulePath)
    (searched : Searched) (path : Path) : Option Target :=
  ((table.hop .once (hops + 1) around skip path).outcome searched).1

theorem target?_eq_answer (around : ModulePath) (path : Path) :
    table.target? around path = table.answer maximalHops none around [] path := rfl

/-- A path through a child module that stands for what it spells is straight, unless another module
on the way is shadowed. -/
theorem declares_of_answer (hmodule : table.DeclaresModule module name) (hnested : table.IsNested)
    (hplain : table.IsPlain module) {path : Path}
    (h : table.answer hops skip around s path =
      some (.symbol ⟨.here, module.segments ++ name :: rest⟩)) :
    table.Declares (module.child name) rest := by
  have hleads := yields_hop (hops + 1) skip around path s _ h
  obtain ⟨inner, scope, item, tail, hscope, hitem, hsegments⟩ := hleads.grounded _ rfl
  have hself : inner ≠ module ∨ item ≠ name := by
    by_contra hboth
    simp only [not_or, not_not] at hboth
    obtain ⟨rfl, rfl⟩ := hboth
    obtain ⟨own, hown, -, hnot⟩ := hmodule
    cases hown.symm.trans hscope
    exact hnot hitem
  obtain ⟨segments⟩ := inner
  rcases List.append_eq_append_iff.1 hsegments.symm with ⟨way, hway, htail⟩ | ⟨way, hway, htail⟩
  · cases way with
    | nil =>
      obtain ⟨rfl, -⟩ := List.cons.inj htail
      rw [List.append_nil] at hway
      subst hway
      simp at hself
    | cons first way =>
      obtain ⟨rfl, -⟩ := List.cons.inj htail
      refine absurd hitem (hplain ⟨segments⟩ item scope ⟨way, ?_⟩ hscope)
      simp [ModulePath.child, hway]
  · cases way with
    | nil =>
      obtain ⟨rfl, -⟩ := List.cons.inj htail
      rw [List.append_nil] at hway
      subst hway
      simp at hself
    | cons first front =>
      obtain ⟨rfl, rfl⟩ := List.cons.inj htail
      refine hnested.declares ?_ hitem tail
      obtain rfl : segments = module.segments ++ name :: front := hway
      simpa [ModulePath.child] using hscope

end Answers

end SymbolTable

namespace Compilation

variable {compilation compilation' : Compilation} {module : ModulePath} {name : String}
  {kind : ItemKind}

/-- What one more item does that is called like a child module beside it.

Wherever a query goes through the name, be it for a path or for an import or a glob on its way, it
now ends inside the item. This is the answer from before if what follows is declared straight in the
child module; otherwise it is not, unless another module on the way there is shadowed as well. Apart
from what is inside the item, no path resolves to anything that was not derivable before. -/
theorem answer_through_item (hinserts : Inserts (.named kind name) module compilation compilation')
    (hmodule : compilation.symbolTable.DeclaresModule module name)
    (hname : name ∉ SymbolTable.anchors) :
    (∀ hops skip around absolute lead rest s s' t t',
      compilation.symbolTable.Arrives .once hops skip around absolute lead s module t →
      compilation'.symbolTable.Arrives .once hops skip around absolute lead s' module t' →
      compilation'.symbolTable.answer hops skip around s' ⟨absolute, lead ++ name :: rest⟩ =
          some (.symbol ⟨.here, module.segments ++ name :: rest⟩) ∧
        (compilation.symbolTable.Declares (module.child name) rest →
          compilation'.symbolTable.answer hops skip around s' ⟨absolute, lead ++ name :: rest⟩ =
            compilation.symbolTable.answer hops skip around s ⟨absolute, lead ++ name :: rest⟩) ∧
        (compilation.symbolTable.IsNested → compilation.symbolTable.IsPlain module →
          compilation'.symbolTable.answer hops skip around s' ⟨absolute, lead ++ name :: rest⟩ =
            compilation.symbolTable.answer hops skip around s ⟨absolute, lead ++ name :: rest⟩ →
          compilation.symbolTable.Declares (module.child name) rest)) ∧
    ∀ around path symbol, compilation'.symbolTable.resolve around path = some symbol →
      compilation.symbolTable.Leads none around path (.symbol symbol) ∨
        symbol.IsInside module name := by
  have hgains := hinserts.gains
  constructor
  · intro hops skip around absolute lead rest s s' t t' harrives harrives'
    obtain ⟨scope, scope', -, hscope', hscopes⟩ := hgains.scope
    have hafter : compilation'.symbolTable.answer hops skip around s'
        ⟨absolute, lead ++ name :: rest⟩ =
          some (.symbol ⟨.here, module.segments ++ name :: rest⟩) :=
      congrArg Prod.fst
        (SymbolTable.hop_through hscope' ((hscopes.items name).2 (.inl rfl)) hname harrives')
    refine ⟨hafter, fun hdeclares => ?_, fun hnested hplain hsame => ?_⟩
    · have hbefore : compilation.symbolTable.answer hops skip around s
          ⟨absolute, lead ++ name :: rest⟩ = _ :=
        congrArg Prod.fst (harrives.outcome_eq hname fun _ => SymbolTable.lookup_of_module hmodule)
      rw [hafter, hbefore, hdeclares.outcome_eq]
      simp [ModulePath.child]
    · exact SymbolTable.declares_of_answer hmodule hnested hplain (hsame.symm.trans hafter)
  · intro around path symbol hresolve
    obtain ⟨target, htarget, hsymbol⟩ := Option.bind_eq_some_iff.1 hresolve
    cases target with
    | module found => cases hsymbol
    | symbol found =>
      obtain rfl : found = symbol := Option.some.inj hsymbol
      have hleads := SymbolTable.yields_query path [] (.symbol found) htarget
      rcases hleads.of_gains hgains with hleads | ⟨_, hfound, hinside⟩
      · exact .inl hleads
      · cases hfound
        exact .inr hinside

end Compilation

/-! ### A function called like a module -/

/-- A crate whose module `marks` declares `Own` and re-exports the marker, which an enum at the root
derives; `more` comes last at the root. -/
def marksCrate (more : List Item) : Compilation :=
  ((Compilation.empty "demo").addExtern "macros" "macros").addFile ⟨"lib.rs", .root, [], ⟨[],
    [.inlineModule ⟨[], .everywhere, "marks"⟩
        [.imports false (.path "macros" (.name "Describe")), .named .struct "Own"],
      .imports false (.path "marks" (.name "Describe")),
      .enumeration describedKind] ++ more⟩⟩

theorem inserts_marks (kind : ItemKind) : Compilation.Inserts (.named kind "marks") .root
    (marksCrate []) (marksCrate [.named kind "marks"]) :=
  .mk _ _ [] [] _ _ (.here _ [])

theorem declaresModule_marks : (marksCrate []).symbolTable.DeclaresModule .root "marks" :=
  ⟨_, rfl, by decide, by decide⟩

/-- With a function of the name the marker is no longer found behind the module, neither by its path
nor through the import, and the enum is not described. -/
theorem marks_captured :
    (∀ kind, Compilation.Inserts (.named kind "marks") .root (marksCrate [])
      (marksCrate [.named kind "marks"])) ∧
    (marksCrate []).symbolTable.DeclaresModule .root "marks" ∧
    (marksCrate []).symbolTable.resolve .root ⟨false, ["marks", "Describe"]⟩ =
      some ⟨.foreign "macros", ["Describe"]⟩ ∧
    (marksCrate [.named .function "marks"]).symbolTable.resolve .root
      ⟨false, ["marks", "Describe"]⟩ = some ⟨.here, ["marks", "Describe"]⟩ ∧
    ((marksCrate []).generate describing).toOption.map PassResult.described =
      some [⟨⟨.here, ["Kind"]⟩, .derived, []⟩] ∧
    ((marksCrate [.named .function "marks"]).generate describing).toOption.map
      PassResult.described = some [] := by
  refine ⟨inserts_marks, declaresModule_marks, ?_, ?_, ?_, ?_⟩
  · decide +kernel
  · decide +kernel
  · decide +kernel
  · decide +kernel

theorem isNested_marks : (marksCrate []).symbolTable.IsNested := by
  have hkeys : ∀ entry ∈ (marksCrate []).symbolTable.scopes.entries,
      entry.1 = .root ∨ entry.1 = ⟨["marks"]⟩ := by decide
  have hnames : ∀ entry ∈ (marksCrate []).symbolTable.scopes.entries,
      "super" ∉ entry.2.items ∧ "super" ∉ entry.2.modules := by decide
  refine ⟨fun module name hscope => ?_, fun module scope hscope =>
    hnames _ (Bindings.mem_entries_of_get? hscope)⟩
  obtain ⟨scope, hscope⟩ := Option.ne_none_iff_exists'.1 hscope
  rcases hkeys _ (Bindings.mem_entries_of_get? hscope) with hroot | hmarks
  · simp [ModulePath.child, ModulePath.root] at hroot
  · obtain ⟨segments⟩ := module
    obtain ⟨rfl, hname⟩ : segments = [] ∧ name = "marks" := by
      simpa [ModulePath.child, List.append_eq_cons_iff] using hmarks
    obtain ⟨root, hroot, hmodule, -⟩ := declaresModule_marks
    exact ⟨root, hroot, hname ▸ hmodule⟩

/-- What `marks` declares itself is found as before, and what it re-exports is not. -/
theorem answer_through_item_of_marks :
    (marksCrate [.named .function "marks"]).symbolTable.answer maximalHops none .root []
        ⟨false, ["marks", "Own"]⟩ =
      (marksCrate []).symbolTable.answer maximalHops none .root [] ⟨false, ["marks", "Own"]⟩ ∧
    (marksCrate [.named .function "marks"]).symbolTable.answer maximalHops none .root []
        ⟨false, ["marks", "Describe"]⟩ ≠
      (marksCrate []).symbolTable.answer maximalHops none .root []
        ⟨false, ["marks", "Describe"]⟩ := by
  obtain ⟨hanswer, -⟩ := Compilation.answer_through_item (inserts_marks .function)
    declaresModule_marks (by decide)
  have hthrough := fun rest => hanswer maximalHops none .root false [] rest [] [] [] []
    (.here .root []) (.here .root [])
  refine ⟨(hthrough ["Own"]).2.1 (.item [] rfl (by decide) (by decide)), fun hsame => ?_⟩
  have hplain : (marksCrate []).symbolTable.IsPlain .root := by
    intro around name scope hwithin
    simp [ModulePath.IsWithin, ModulePath.child, ModulePath.root] at hwithin
  have hscope : (marksCrate []).symbolTable.scopes.get? ⟨["marks"]⟩ =
      some ⟨["Own"], [], Bindings.empty.insert "Describe" ⟨false, ["macros", "Describe"]⟩, []⟩ :=
    rfl
  cases (hthrough ["Describe"]).2.2 isNested_marks hplain hsame with
  | item rest hfound hitem _ =>
    cases hscope.symm.trans hfound
    simp at hitem
  | inside hmodule _ _ =>
    obtain ⟨scope, hfound, hmodule, -⟩ := hmodule
    cases hscope.symm.trans hfound
    simp at hmodule

end DescriptionLookup
