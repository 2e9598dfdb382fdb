import DescriptionLookup.Proofs.Journal

/-!
# Aliases

An import gives a module a name for what a path leads to. A path that begins with the name then
resolves to what it resolves to with the path of the import in place of the name. Following the
path takes a hop, and skips the import itself, so that the two queries are not run alike; they
agree as long as no hop is missing.

* `query_append`, `query_alias`: both queries have two parts, of which the path of the import is
  the first;
* `agree_hop_alias`, `agree_remainder`: the comparison of the parts.

Two imports for which this fails are at the end: of a word that is never looked up, and of an empty
path.
-/

namespace DescriptionLookup

namespace SymbolTable

variable {σ : Type} {table : SymbolTable} {memory : Memory σ} {module : ModulePath}
  {name : String} {path : Path} {rest : List String}

/-- The module imports the name, which it does not declare, for a path that does not itself begin
with the name. -/
def IsAlias (table : SymbolTable) (module : ModulePath) (name : String) (path : Path) : Prop :=
  ∃ scope, table.scopes.get? module = some scope ∧ scope.imports.get? name = some path ∧
    name ∉ scope.items ∧ name ∉ scope.modules ∧
    (path.absolute = true ∨ path.segments.head? ≠ some name)

/-- The query for a path in a module needs a hop when none is left. -/
def Exhausts (table : SymbolTable) (module : ModulePath) (path : Path) : Prop :=
  ((table.query .journal module path).outcome (.start [])).2.exhausted = true

instance : Decidable (table.Exhausts module path) := inferInstanceAs (Decidable (_ = true))

/-! ### The two queries -/

/-- What is left of a query once it is known what the path up to these names stands for. -/
def remainder (table : SymbolTable) (memory : Memory σ) (rest : List String) (target : Target) :
    Query σ Target :=
  rest.foldlM (enter (table.lookup memory maximalHops)) target

theorem query_append (hpath : path.segments ≠ []) :
    table.query memory module ⟨path.absolute, path.segments ++ rest⟩ =
      table.query memory module path >>= table.remainder memory rest := by
  obtain ⟨absolute, _ | ⟨first, names⟩⟩ := path
  · exact absurd rfl hpath
  · simp only [query, follow, List.cons_append, List.foldlM_append, bind_assoc]
    rfl

/-- What a query for a name asks first: what the import of the name leads to. -/
def queryImport (table : SymbolTable) (memory : Memory σ) (module : ModulePath) (name : String)
    (path : Path) : Query σ Target :=
  table.hop memory maximalHops module (some name) path <|>
    OptionT.mk (pure (table.externRoot? name))

theorem query_alias (halias : table.IsAlias module name path) (hname : name ∉ anchors) :
    table.query memory module ⟨false, name :: rest⟩ =
      table.queryImport memory module name path >>= table.remainder memory rest := by
  obtain ⟨scope, hscope, himport, hitem, hmodule, -⟩ := halias
  have hbinding : scope.binding? module none name = some (.imported path) :=
    Scope.binding?_of_import hitem hmodule himport
  have hlookup : table.lookup memory maximalHops none module name =
      table.hop memory maximalHops module (some name) path := by
    rw [lookup, find_of_imported hscope hbinding, Functor.map_map]
    exact id_map _
  show table.anchor _ none module false name >>= _ = _
  rw [anchor_of_not_mem hname, hlookup]
  rfl

/-! ### Comparison -/

/-- The path of an import leads to the same with one hop less and without the import, as long as no
hop is missing. -/
theorem agree_hop_alias (halias : table.IsAlias module name path) :
    Agree (Journal.forgetting true) (table.hop .journal maximalHops module (some name) path)
      (table.query .once module path) := by
  obtain ⟨-, -, -, -, -, hfirst⟩ := halias
  have hfind : ∀ skip module name, Agree (Journal.forgetting true)
      (table.find .journal 15 skip module name) (table.find .once (15 + 1) skip module name) :=
    table.agree_find_journal true (Or.inr rfl) 15
  refine agree_follow (fun first hhead habsolute => ?_)
    fun module name => (hfind none module name).map _
  have hne : some name ≠ some first := by
    rcases hfirst with habsolute' | hhead'
    · rw [habsolute'] at habsolute
      cases habsolute
    · rw [← hhead]
      exact hhead'.symm
  show Agree _ (Finding.target <$> table.find .journal 15 (some name) module first) _
  rw [find_of_skip_ne hne]
  exact (hfind none module first).map _

/-- The same for all that is left of both queries. -/
theorem agree_remainder (target : Target) :
    Agree (Journal.forgetting true) (table.remainder .journal rest target)
      (table.remainder .once rest target) :=
  Agree.foldlM (agree_enter fun module name =>
    (table.agree_find_journal true (Or.inl rfl) maximalHops none module name).map _) rest target

/-- A path that begins with an alias resolves as it does with the path of the import in place of the
alias, if no hop is missing. The alias must not be a word with a meaning of its own, and the path of
the import must not be empty. -/
theorem resolve_alias {symbol : Symbol} (halias : table.IsAlias module name path)
    (hname : name ∉ anchors) (hpath : path.segments ≠ [])
    (hhops : ¬ table.Exhausts module ⟨false, name :: rest⟩)
    (h : table.resolve module ⟨path.absolute, path.segments ++ rest⟩ = some symbol) :
    table.resolve module ⟨false, name :: rest⟩ = some symbol := by
  -- the import is compared with its path, and what is left of one query with that of the other
  have hagree : Agree (Journal.forgetting true) (table.query .journal module ⟨false, name :: rest⟩)
      ((table.query .once module path <|> OptionT.mk (pure (table.externRoot? name))) >>=
        table.remainder .once rest) := by
    rw [query_alias halias hname]
    exact ((agree_hop_alias halias).orElse (Agree.mk_pure _)).bind agree_remainder
  rcases hagree.agrees (.start []) [] rfl with ⟨-, hexhausted⟩ | ⟨hanswer, -⟩
  · exact absurd hexhausted hhops
  · rw [resolve, target?, query_append hpath, Query.outcome_bind] at h
    rw [resolve, target?_eq_journal, hanswer, Query.outcome_bind, Query.outcome_orElse]
    rcases hfollow : (table.query .once module path).outcome [] with ⟨_ | target, searched⟩
    · rw [hfollow] at h
      cases h
    · rw [hfollow] at h
      exact h

end SymbolTable

/-- A crate with `use shapes::Circle as Disk;` at its root, where `shapes` has a glob of its child
module `round`, which declares `Circle`. -/
def renamingCrate : Compilation :=
  (Compilation.empty "demo").addFile ⟨"lib.rs", .root, [], ⟨[],
    [.inlineModule ⟨[], .everywhere, "shapes"⟩
      [.inlineModule ⟨[], .everywhere, "round"⟩ [.named .struct "Circle"],
        .imports false (.path "round" .glob)],
      .imports false (.path "shapes" (.rename "Circle" "Disk"))]⟩⟩

/-- By its other name the item is found as well. -/
theorem resolve_alias_of_rename :
    renamingCrate.symbolTable.resolve .root ⟨false, ["shapes", "Circle", "Part"]⟩ =
        some ⟨.here, ["shapes", "round", "Circle", "Part"]⟩ ∧
      renamingCrate.symbolTable.resolve .root ⟨false, ["Disk", "Part"]⟩ =
        some ⟨.here, ["shapes", "round", "Circle", "Part"]⟩ := by
  have halias : renamingCrate.symbolTable.IsAlias .root "Disk" ⟨false, ["shapes", "Circle"]⟩ :=
    ⟨_, rfl, by decide, by decide, by decide, by decide⟩
  have hpath : renamingCrate.symbolTable.resolve .root ⟨false, ["shapes", "Circle", "Part"]⟩ =
      some ⟨.here, ["shapes", "round", "Circle", "Part"]⟩ := by decide
  exact ⟨hpath, SymbolTable.resolve_alias halias (by decide) (by decide) (by decide) hpath⟩

/-! ### Names by which nothing is found -/

/-- A crate with `use a::super;` and `use ::{self as x};` at its root, where `a` is an empty module.
The root declares `Item`. -/
def wordsCrate : Compilation :=
  ((Compilation.empty "demo").addExtern "macros" "macros").addFile ⟨"lib.rs", .root, [], ⟨[],
    [.inlineModule ⟨[], .everywhere, "a"⟩ [],
      .named .struct "Item",
      .imports false (.path "a" (.name "super")),
      .imports true (.group [.rename "self" "x"])]⟩⟩

/-- A word that has a meaning of its own is never looked up, and an empty path leads nowhere. -/
theorem alias_lost :
    (wordsCrate.symbolTable.IsAlias .root "super" ⟨false, ["a", "super"]⟩ ∧
      ¬ wordsCrate.symbolTable.Exhausts .root ⟨false, ["a", "super", "Item"]⟩ ∧
      ¬ wordsCrate.symbolTable.Exhausts .root ⟨false, ["super", "Item"]⟩ ∧
      wordsCrate.symbolTable.resolve .root ⟨false, ["a", "super", "Item"]⟩ =
        some ⟨.here, ["Item"]⟩ ∧
      wordsCrate.symbolTable.resolve .root ⟨false, ["super", "Item"]⟩ = none) ∧
    (wordsCrate.symbolTable.IsAlias .root "x" ⟨true, []⟩ ∧
      ¬ wordsCrate.symbolTable.Exhausts .root ⟨true, ["macros", "X"]⟩ ∧
      ¬ wordsCrate.symbolTable.Exhausts .root ⟨false, ["x", "macros", "X"]⟩ ∧
      wordsCrate.symbolTable.resolve .root ⟨true, ["macros", "X"]⟩ =
        some ⟨.foreign "macros", ["X"]⟩ ∧
      wordsCrate.symbolTable.resolve .root ⟨false, ["x", "macros", "X"]⟩ = none) := by
  have hsuper : wordsCrate.symbolTable.IsAlias .root "super" ⟨false, ["a", "super"]⟩ :=
    ⟨_, rfl, by decide, by decide, by decide, by decide⟩
  have hself : wordsCrate.symbolTable.IsAlias .root "x" ⟨true, []⟩ :=
    ⟨_, rfl, by decide, by decide, by decide, by decide⟩
  refine ⟨⟨hsuper, ?_⟩, ⟨hself, ?_⟩⟩
  · decide
  · decide

end DescriptionLookup
