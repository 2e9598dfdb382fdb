import DescriptionLookup.Names.Resolution

/-!
# One level of resolution

The recursion of `find` taken apart: what it does at any number of hops, in terms of following a
path (`hop`), of looking into another module (`beyond`) and of the search through globs
(`searchGlobs`). Each case of `find` has its equation here, so that nothing later opens the
recursion again.

* `anchor_of_not_mem`: a first name that is no anchor is looked up;
* `find_of_declared`, `find_of_imported`, `find_of_unbound`: the cases of `find`;
* `find_of_skip_ne`: where the import to be skipped makes no difference.
-/

namespace DescriptionLookup

variable {σ : Type}

namespace Scope

variable {scope : Scope} {module : ModulePath} {skip : Option String} {name : String}

/-- The module itself does not bind the name, an import to be skipped apart. -/
def Unbound (scope : Scope) (skip : Option String) (name : String) : Prop :=
  name ∉ scope.items ∧ name ∉ scope.modules ∧ (skip = some name ∨ scope.imports.get? name = none)

/-- What is declared is an item, or else a child module. -/
theorem declared_cases {target : Target}
    (h : scope.binding? module skip name = some (.declared target)) :
    (name ∈ scope.items ∧ target = .symbol (.ofLocal module name)) ∨
      (name ∉ scope.items ∧ name ∈ scope.modules ∧ target = .module (module.child name)) := by
  by_cases hitem : name ∈ scope.items
  · simp only [binding?, List.contains_iff_mem, hitem, if_true, Option.some.injEq,
      Binding.declared.injEq] at h
    exact Or.inl ⟨hitem, h.symm⟩
  by_cases hmodule : name ∈ scope.modules
  · simp only [binding?, List.contains_iff_mem, hitem, hmodule, if_true, if_false,
      Option.some.injEq, Binding.declared.injEq] at h
    exact Or.inr ⟨hitem, hmodule, h.symm⟩
  by_cases hskip : skip = some name
  · simp [binding?, hitem, hmodule, hskip] at h
  · simp [binding?, hitem, hmodule, hskip] at h

theorem imported_cases {path : Path}
    (h : scope.binding? module skip name = some (.imported path)) :
    name ∉ scope.items ∧ name ∉ scope.modules ∧ skip ≠ some name ∧
      scope.imports.get? name = some path := by
  by_cases hitem : name ∈ scope.items
  · simp [binding?, hitem] at h
  by_cases hmodule : name ∈ scope.modules
  · simp [binding?, hitem, hmodule] at h
  by_cases hskip : skip = some name
  · simp [binding?, hitem, hmodule, hskip] at h
  · simp only [binding?, List.contains_iff_mem, hitem, hmodule, hskip, if_false,
      Option.map_eq_some_iff, Binding.imported.injEq, exists_eq_right] at h
    exact ⟨hitem, hmodule, hskip, h⟩

theorem binding?_eq_none_iff :
    scope.binding? module skip name = none ↔ scope.Unbound skip name := by
  by_cases hitem : name ∈ scope.items
  · simp [binding?, Unbound, hitem]
  by_cases hmodule : name ∈ scope.modules
  · simp [binding?, Unbound, hitem, hmodule]
  by_cases hskip : skip = some name
  · simp [binding?, Unbound, hitem, hmodule, hskip]
  · simp [binding?, Unbound, hitem, hmodule, hskip]

/-- A name that is neither an item nor a child module is what an import of it says. -/
theorem binding?_of_import {path : Path} (hitem : name ∉ scope.items)
    (hmodule : name ∉ scope.modules) (himport : scope.imports.get? name = some path) :
    scope.binding? module none name = some (.imported path) := by
  simp [binding?, hitem, hmodule, himport]

/-- Only an import of the name itself can be skipped. -/
theorem binding?_of_skip_ne (h : skip ≠ some name) :
    scope.binding? module skip name = scope.binding? module none name := by
  simp [binding?, h]

end Scope

namespace SymbolTable

variable {table : SymbolTable} {memory : Memory σ} {hops : Nat} {skip : Option String}
  {module : ModulePath} {name : String} {scope : Scope}

/-- What a path in a module stands for, at the expense of one of so many hops. -/
def hop (table : SymbolTable) (memory : Memory σ) (hops : Nat) (module : ModulePath)
    (skip : Option String) (path : Path) : Query σ Target :=
  match hops with
  | 0 => memory.stop
  | hops + 1 => table.follow (table.lookup memory hops) skip module path

/-- How a name is found in another module, at the expense of one of so many hops. -/
def beyond (table : SymbolTable) (memory : Memory σ) (hops : Nat) (name : String)
    (module : ModulePath) : Query σ Finding :=
  match hops with
  | 0 => memory.stop
  | hops + 1 => table.find memory hops none module name

/-- The paths of the globs of a module. -/
def globs (table : SymbolTable) (module : ModulePath) : List Path :=
  ((table.scopes.get? module).map Scope.globs).getD []

/-- The search for a name through the globs of a module, with so many hops left. -/
def searchGlobs (table : SymbolTable) (memory : Memory σ) (hops : Nat) (module : ModulePath)
    (name : String) : Query σ Finding :=
  throughGlobs (table.hop memory hops module none) (table.beyond memory hops name)
    (table.guess name) name none (table.globs module)

/-- The words that stand for a module where they begin a path. -/
def anchors : List String := ["crate", "self", "super"]

/-- A first name that is no anchor is looked up, and then taken for that of an extern crate. -/
theorem anchor_of_not_mem {look : Look σ} (h : name ∉ anchors) :
    table.anchor look skip module false name =
      (look skip module name <|> OptionT.mk (pure (table.externRoot? name))) := by
  have hne : name ≠ "crate" ∧ name ≠ "self" ∧ name ≠ "super" := by
    simpa only [anchors, List.mem_cons, List.not_mem_nil, or_false, not_or] using h
  obtain ⟨hcrate, hself, hsuper⟩ := hne
  rw [anchor, if_neg Bool.false_ne_true, if_neg hcrate, if_neg hself, if_neg hsuper]

theorem globs_of_scope (hscope : table.scopes.get? module = some scope) :
    table.globs module = scope.globs := by
  rw [globs, hscope]
  rfl

theorem find_eq : table.find memory hops skip module name =
    table.findIn (memory.search hops module name) (table.hop memory hops module)
      (table.beyond memory hops name) skip module name := by
  cases hops <;> rfl

theorem find_of_no_scope (hscope : table.scopes.get? module = none) :
    table.find memory hops skip module name = failure := by
  rw [find_eq, findIn, hscope]

theorem find_of_declared {target : Target} (hscope : table.scopes.get? module = some scope)
    (h : scope.binding? module skip name = some (.declared target)) :
    table.find memory hops skip module name = pure (.bound target) := by
  rw [find_eq, findIn, hscope]
  simp only [h]

theorem find_of_imported {path : Path} (hscope : table.scopes.get? module = some scope)
    (h : scope.binding? module skip name = some (.imported path)) :
    table.find memory hops skip module name =
      Finding.bound <$> table.hop memory hops module (some name) path := by
  rw [find_eq, findIn, hscope]
  simp only [h]

theorem find_of_unbound (hscope : table.scopes.get? module = some scope)
    (h : scope.binding? module skip name = none) :
    table.find memory hops skip module name =
      memory.search hops module name (table.searchGlobs memory hops module name) := by
  rw [find_eq, findIn, hscope, searchGlobs, globs_of_scope hscope]
  simp only [h]

/-- Only an import of the name itself can be skipped. -/
theorem find_of_skip_ne (h : skip ≠ some name) :
    table.find memory hops skip module name = table.find memory hops none module name := by
  rw [find_eq, find_eq, findIn, findIn]
  simp only [Scope.binding?_of_skip_ne h]

end SymbolTable

end DescriptionLookup
