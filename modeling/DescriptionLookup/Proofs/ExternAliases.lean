import DescriptionLookup.Proofs.Aliases
import DescriptionLookup.Proofs.LoadedCrates

/-!
# Aliases of extern crates

At the crate root, `extern crate k as n;` declares the name `n` for the crate that is called `k`.
Two things come of it: all modules know `n` by the crate that `k` stands for when the item is
reached, and the root imports `n` by the path `::k`. The import is asked first, so that `n` stands
for what `k` stands for in the end. That need not be the crate that the compilation itself calls
`k`: another item may have given this name away.

* `Item.Binds`: the names that an item has a meaning for, and `get?_imports_addItems`;
* `addAlias`: what one more alias makes of the crates that names stand for;
* `getD_externs`: what the names stand for in a symbol table;
* `resolve_externCrate`: what a path through an alias stands for, and when that is the crate meant.

A crate in which two aliases cross is at the end.
-/

namespace DescriptionLookup

/-! ### The names that an item binds -/

/-- The name that an import binds; a glob has none. -/
def Import.binding? : Import → Option String
  | .single binding _ => some binding
  | .glob _ => none

/-- The names that an item imports into its module. -/
def Item.importedNames : Item → List String
  | .imports _ tree => (tree.imports []).filterMap Import.binding?
  | .externCrate _ binding => if binding = "_" then [] else [binding]
  | _ => []

/-- The item has a meaning for the name in its module: it declares or imports it. -/
def Item.Binds (item : Item) (name : String) : Prop :=
  item.itemName? = some name ∨ item.moduleName? = some name ∨ name ∈ item.importedNames

instance (item : Item) (name : String) : Decidable (item.Binds name) :=
  inferInstanceAs (Decidable (_ ∨ _ ∨ _))

namespace Scope

variable {name : String}

/-- Imports of other names leave a name alone. -/
theorem get?_imports_addImports {entries : List Import}
    (h : name ∉ entries.filterMap Import.binding?) (absolute : Bool) (scope : Scope) :
    (entries.foldl (addImport absolute) scope).imports.get? name = scope.imports.get? name := by
  induction entries generalizing scope with
  | nil => rfl
  | cons entry rest ih =>
    cases entry with
    | single binding path =>
      obtain ⟨hne, hrest⟩ := not_or.1 (mt List.mem_cons.2 h)
      rw [List.foldl_cons, ih hrest]
      exact Bindings.get?_insert_of_ne _ hne _
    | glob path => exact ih h _

theorem get?_imports_addItem {item : Item} (h : name ∉ item.importedNames) (scope : Scope) :
    (scope.addItem item).imports.get? name = scope.imports.get? name := by
  cases item with
  | imports absolute tree => exact get?_imports_addImports h absolute scope
  | externCrate crate binding =>
    by_cases hbinding : binding = "_"
    · rw [addItem, addExternCrate, if_pos hbinding]
    · rw [Item.importedNames, if_neg hbinding, List.mem_singleton] at h
      rw [addItem, addExternCrate, if_neg hbinding]
      exact Bindings.get?_insert_of_ne _ h _
  | _ => rfl

theorem get?_imports_addItems {items : List Item} (h : ∀ item ∈ items, name ∉ item.importedNames)
    (scope : Scope) : (scope.addItems items).imports.get? name = scope.imports.get? name := by
  unfold addItems
  induction items generalizing scope with
  | nil => rfl
  | cons item rest ih =>
    obtain ⟨hitem, hrest⟩ := List.forall_mem_cons.1 h
    rw [List.foldl_cons, ih hrest, get?_imports_addItem hitem]

end Scope

/-- A path through an import of an extern crate leads into the crate. -/
theorem SymbolTable.resolve_of_externAlias {table : SymbolTable} {module : ModulePath}
    {name crate identity : String} {rest : List String}
    (halias : table.IsAlias module name ⟨true, [crate]⟩) (hname : name ∉ anchors)
    (hcrate : table.externs.get? crate = some identity) :
    table.resolve module ⟨false, name :: rest⟩ = some ⟨.foreign identity, rest⟩ := by
  have himport : table.queryImport .once module name ⟨true, [crate]⟩ =
      pure (.symbol (.ofCrate identity)) := by
    show ((OptionT.mk (pure (table.externRoot? crate)) >>= pure) <|> _) = _
    rw [externRoot?, hcrate]
    rfl
  rw [resolve, target?, query_alias halias hname, himport, pure_bind, remainder,
    foldlM_enter_symbol]
  rfl

/-! ### The crates that names stand for -/

/-- The name that an item of the crate root gives to an extern crate, and the one that it calls the
crate by. -/
def Item.alias? : Item → Option (String × String)
  | .externCrate name binding =>
    if name = "self" ∨ binding = "_" then none else some (binding, name)
  | _ => none

/-- What names stand for with one more alias: the new name for what the other one stands for so
far. -/
def addAlias (crateOf : String → String) (aliased : String × String) : String → String :=
  Function.update crateOf aliased.1 (crateOf aliased.2)

section Aliases

variable {crateOf : String → String} {aliases before after : List (String × String)}
  {name other : String}

theorem foldl_addAlias_of_not_mem (h : name ∉ aliases.map Prod.fst) :
    aliases.foldl addAlias crateOf name = crateOf name := by
  induction aliases generalizing crateOf with
  | nil => rfl
  | cons aliased rest ih =>
    obtain ⟨hne, hrest⟩ := not_or.1 (mt List.mem_cons.2 h)
    rw [List.foldl_cons, ih hrest, addAlias, Function.update_of_ne hne]

/-- The last alias of a name counts, and it counts for what was behind the other name by then. -/
theorem foldl_addAlias_of_last (h : name ∉ after.map Prod.fst) :
    (before ++ (name, other) :: after).foldl addAlias crateOf name =
      before.foldl addAlias crateOf other := by
  rw [List.foldl_append, List.foldl_cons, foldl_addAlias_of_not_mem h, addAlias,
    Function.update_self]

theorem exists_last_alias (h : name ∈ aliases.map Prod.fst) :
    ∃ before other after, aliases = before ++ (name, other) :: after ∧
      name ∉ after.map Prod.fst := by
  induction aliases with
  | nil => cases h
  | cons aliased rest ih =>
    by_cases hrest : name ∈ rest.map Prod.fst
    · obtain ⟨before, other, after, rfl, hafter⟩ := ih hrest
      exact ⟨aliased :: before, other, after, rfl, hafter⟩
    · obtain rfl : name = aliased.1 := (List.mem_cons.1 h).resolve_right hrest
      exact ⟨[], aliased.2, rest, rfl, hrest⟩

end Aliases

namespace ModuleBody

variable {externs : Bindings String String}

/-- The crate that a name stands for; one that is not known is called by its own name. -/
def crateOf (externs : Bindings String String) (name : String) : String :=
  (externs.get? name).getD name

theorem crateOf_externCrate (module : ModulePath) {name : String} (hself : name ≠ "self")
    (binding other : String) :
    crateOf (addExternName module externs (.externCrate name binding)) other =
      if (module.isRoot = true ∧ binding ≠ "_") ∧ other = binding then crateOf externs name
      else crateOf externs other := by
  rw [crateOf, get?_addExternName module externs hself]
  by_cases hbinds : (module.isRoot = true ∧ binding ≠ "_") ∧ other = binding
  · rw [if_pos hbinds, if_pos (.inr hbinds)]
    rfl
  · rw [if_neg hbinds]
    -- At most the crate's own name becomes known, by which it was called anyway.
    split
    · next h =>
      obtain rfl : other = name := h.resolve_right hbinds
      rfl
    · rfl

/-- An item of the crate root changes what names stand for by its alias, if it has one. -/
theorem crateOf_addExternName {module : ModulePath} (hroot : module.isRoot = true) (item : Item) :
    crateOf (addExternName module externs item) =
      item.alias?.toList.foldl addAlias (crateOf externs) := by
  cases item with
  | externCrate name binding =>
    by_cases hself : name = "self"
    · rw [addExternName, if_pos hself, Item.alias?, if_pos (.inl hself)]
      rfl
    funext other
    rw [crateOf_externCrate module hself]
    by_cases hbinding : binding = "_"
    · rw [if_neg fun h => h.1.2 hbinding, Item.alias?, if_pos (.inr hbinding)]
      rfl
    · rw [Item.alias?, if_neg (not_or.2 ⟨hself, hbinding⟩)]
      show _ = Function.update (crateOf externs) binding (crateOf externs name) other
      simp only [Function.update_apply, hroot, ne_eq, hbinding, not_false_eq_true, true_and]
  | _ => rfl

/-- A name that is known stays known. -/
theorem get?_addExternName_ne_none {module : ModulePath} {name : String}
    (h : externs.get? name ≠ none) (item : Item) :
    (addExternName module externs item).get? name ≠ none := by
  cases item with
  | externCrate crate binding =>
    by_cases hself : crate = "self"
    · rwa [addExternName, if_pos hself]
    · rw [get?_addExternName module externs hself]
      split
      · exact Option.some_ne_none _
      · exact h
  | _ => exact h

/-- Of the items of the crate root, the names of extern crates depend on the aliases alone. -/
theorem crateOf_foldl_addExternName {module : ModulePath} (hroot : module.isRoot = true)
    (items : List Item) :
    crateOf (items.foldl (addExternName module) externs) =
      (items.filterMap Item.alias?).foldl addAlias (crateOf externs) := by
  induction items generalizing externs with
  | nil => rfl
  | cons item rest ih =>
    rw [List.foldl_cons, ih, crateOf_addExternName hroot]
    cases halias : item.alias? <;> simp [halias]

theorem get?_foldl_addExternName_ne_none {module : ModulePath} {name : String} {items : List Item}
    (h : externs.get? name ≠ none) :
    (items.foldl (addExternName module) externs).get? name ≠ none := by
  induction items generalizing externs with
  | nil => exact h
  | cons item rest ih => exact ih (get?_addExternName_ne_none h item)

/-- Extern crates that are declared are known by their own names. -/
theorem get?_foldl_addExternName_of_mem {module : ModulePath} {name binding : String}
    {items : List Item} (hself : name ≠ "self") (hmem : .externCrate name binding ∈ items) :
    (items.foldl (addExternName module) externs).get? name ≠ none := by
  obtain ⟨before, after, rfl⟩ := List.append_of_mem hmem
  rw [List.foldl_append, List.foldl_cons]
  refine get?_foldl_addExternName_ne_none ?_
  rw [get?_addExternName module _ hself, if_pos (.inl rfl)]
  exact Option.some_ne_none _

theorem foldl_addExternNames_root {bodies : List ModuleBody}
    (h : ∀ body ∈ bodies, body.module = .root) (externs : Bindings String String) :
    bodies.foldl addExternNames externs =
      (bodies.flatMap items).foldl (addExternName .root) externs := by
  induction bodies generalizing externs with
  | nil => rfl
  | cons body rest ih =>
    obtain ⟨hbody, hrest⟩ := List.forall_mem_cons.1 h
    rw [List.foldl_cons, ih hrest, List.flatMap_cons, List.foldl_append, addExternNames, hbody]

end ModuleBody

namespace Compilation

open ModuleBody (crateOf)

variable {compilation : Compilation} {name crate : String}

/-- The aliases that the crate root declares. -/
def aliases (compilation : Compilation) : List (String × String) :=
  (compilation.itemsOf .root).filterMap Item.alias?

/-- The crates that names stand for behind so many aliases. -/
def crateBehind (compilation : Compilation) (aliases : List (String × String)) : String → String :=
  aliases.foldl addAlias (crateOf compilation.externs)

/-- The names of extern crates come from the items of the crate root, and from what is declared
below it. -/
theorem knows_externs_itemsOf (compilation : Compilation) :
    ModuleBody.Knows (ModuleBody.innerCrates compilation.bodies)
      ((compilation.itemsOf .root).foldl (ModuleBody.addExternName .root) compilation.externs)
      compilation.symbolTable.externs := by
  have hroot : ∀ body ∈ compilation.bodies.filter (·.module = .root), body.module = .root := by
    intro body hbody
    simpa using (List.mem_filter.1 hbody).2
  rw [itemsOf, ← ModuleBody.foldl_addExternNames_root hroot]
  exact compilation.knows_externs

/-- The crates that names stand for in the end. -/
theorem crateOf_symbolTable (compilation : Compilation) :
    crateOf compilation.symbolTable.externs = compilation.crateBehind compilation.aliases := by
  funext name
  rw [crateOf, compilation.knows_externs_itemsOf.getD_eq]
  exact congrFun (ModuleBody.crateOf_foldl_addExternName rfl _) name

theorem get?_externs_of_mem_itemsOf {binding : String} (hself : crate ≠ "self")
    (hmem : .externCrate crate binding ∈ compilation.itemsOf .root) :
    compilation.symbolTable.externs.get? crate =
      some (compilation.crateBehind compilation.aliases crate) := by
  have hknown : compilation.symbolTable.externs.get? crate ≠ none := by
    rw [compilation.knows_externs_itemsOf]
    intro hnone
    exact ModuleBody.get?_foldl_addExternName_of_mem hself hmem (Option.or_eq_none_iff.1 hnone).1
  obtain ⟨identity, hidentity⟩ := Option.ne_none_iff_exists'.1 hknown
  rw [hidentity, ← crateOf_symbolTable, crateOf, hidentity, Option.getD_some]

/-- The crate root declares the name for an extern crate, and nothing else at the root binds it. -/
structure IsCrateAlias (compilation : Compilation) (name crate : String) : Prop where
  declared : ∃ before after,
    compilation.itemsOf .root = before ++ .externCrate crate name :: after ∧
      ∀ item ∈ before ++ after, ¬ item.Binds name
  isName : name ≠ "_"
  notMem : name ∉ SymbolTable.anchors
  isCrate : crate ≠ "self"

theorem IsCrateAlias.isAlias (h : compilation.IsCrateAlias name crate) :
    compilation.symbolTable.IsAlias .root name ⟨true, [crate]⟩ := by
  obtain ⟨before, after, hitems, hothers⟩ := h.declared
  obtain ⟨hbefore, hafter⟩ := List.forall_mem_append.1 hothers
  have hdeclares : ∀ item ∈ compilation.itemsOf .root,
      item.itemName? ≠ some name ∧ item.moduleName? ≠ some name := by
    intro item hitem
    rw [hitems, List.mem_append, List.mem_cons] at hitem
    rcases hitem with hitem | rfl | hitem
    · exact ⟨fun h => hbefore item hitem (.inl h), fun h => hbefore item hitem (.inr (.inl h))⟩
    · exact ⟨nofun, nofun⟩
    · exact ⟨fun h => hafter item hitem (.inl h), fun h => hafter item hitem (.inr (.inl h))⟩
  have hne : compilation.itemsOf .root ≠ [] := by simp [hitems]
  refine ⟨_, get?_scopes_of_itemsOf_ne_nil hne, ?_, ?_, ?_, .inl rfl⟩
  · have himported : ∀ item ∈ after, name ∉ item.importedNames :=
      fun item hitem h => hafter item hitem (.inr (.inr h))
    rw [hitems, List.append_cons, Scope.addItems, List.foldl_append]
    refine (Scope.get?_imports_addItems himported _).trans ?_
    rw [List.foldl_append, List.foldl_cons, List.foldl_nil, Scope.addItem, Scope.addExternCrate,
      if_neg h.isName, if_neg h.isCrate]
    exact Bindings.get?_insert_self _ _ _
  · rw [(Scope.declared_addItems _ _).1]
    simpa [Scope.empty] using fun item hitem => (hdeclares item hitem).1
  · rw [(Scope.declared_addItems _ _).2]
    simpa [Scope.empty] using fun item hitem => (hdeclares item hitem).2

/-- A path through an alias of an extern crate leads into the crate that the name of the crate
stands for in the end. This is the crate that the compilation itself calls so, unless the name is
given away: the last alias of this name, if there is one, has to be for the same crate again. -/
theorem resolve_externCrate (h : compilation.IsCrateAlias name crate) :
    (∀ rest, compilation.symbolTable.resolve .root ⟨false, name :: rest⟩ =
      some ⟨.foreign (compilation.crateBehind compilation.aliases crate), rest⟩) ∧
    (compilation.crateBehind compilation.aliases crate = crateOf compilation.externs crate ↔
      ∀ before other after, compilation.aliases = before ++ (crate, other) :: after →
        crate ∉ after.map Prod.fst →
        compilation.crateBehind before other = crateOf compilation.externs crate) := by
  refine ⟨fun rest => ?_, ?_, fun hlast => ?_⟩
  · -- The import of the name is asked first; what the aliases make of the name itself is not asked.
    obtain ⟨before, after, hitems, -⟩ := h.declared
    have hmem : .externCrate crate name ∈ compilation.itemsOf .root := by simp [hitems]
    exact SymbolTable.resolve_of_externAlias h.isAlias h.notMem
      (get?_externs_of_mem_itemsOf h.isCrate hmem)
  · intro heq before other after haliases hlast
    rw [← heq, haliases]
    exact (foldl_addAlias_of_last hlast).symm
  · by_cases hmem : crate ∈ compilation.aliases.map Prod.fst
    · obtain ⟨before, other, after, haliases, hafter⟩ := exists_last_alias hmem
      rw [← hlast before other after haliases hafter, haliases]
      exact foldl_addAlias_of_last hafter
    · exact foldl_addAlias_of_not_mem hmem

end Compilation

/-- A crate with `extern crate b as c; extern crate a as d;` at its root, where `a` and `b` are
names for `alpha` and `beta`. -/
def aliasedCrate : Compilation :=
  (((Compilation.empty "demo").addExtern "a" "alpha").addExtern "b" "beta").addFile
    ⟨"lib.rs", .root, [], ⟨[], [.externCrate "b" "c", .externCrate "a" "d"]⟩⟩

/-- No alias gives the name `b` away, so that `c` is an alias of `beta`. -/
theorem resolve_externCrate_of_aliasedCrate :
    aliasedCrate.IsCrateAlias "c" "b" ∧
      aliasedCrate.symbolTable.resolve .root ⟨false, ["c", "Item"]⟩ =
        some ⟨.foreign "beta", ["Item"]⟩ := by
  have halias : aliasedCrate.IsCrateAlias "c" "b" :=
    ⟨⟨[], [.externCrate "a" "d"], rfl, by decide⟩, by decide, by decide, by decide⟩
  obtain ⟨hresolve, -⟩ := Compilation.resolve_externCrate halias
  exact ⟨halias, hresolve ["Item"]⟩

/-- A crate with `extern crate b as c; extern crate a as b;` at its root, where `a` and `b` are
names for `alpha` and `beta`. -/
def crossedCrate : Compilation :=
  (((Compilation.empty "demo").addExtern "a" "alpha").addExtern "b" "beta").addFile
    ⟨"lib.rs", .root, [], ⟨[], [.externCrate "b" "c", .externCrate "a" "b"]⟩⟩

/-- The name `b` is given away to `alpha`, and `c` goes with it. -/
theorem alias_crossed :
    crossedCrate.IsCrateAlias "c" "b" ∧ (crossedCrate.aliases.map Prod.fst).Nodup ∧
      crossedCrate.externs.get? "b" = some "beta" ∧
      crossedCrate.symbolTable.resolve .root ⟨false, ["c", "Item"]⟩ =
        some ⟨.foreign "alpha", ["Item"]⟩ := by
  refine ⟨⟨⟨[], [.externCrate "a" "b"], rfl, by decide⟩, by decide, by decide, by decide⟩, ?_⟩
  decide

end DescriptionLookup
