import DescriptionLookup.Names.Query
import DescriptionLookup.Names.Table

/-!
# Resolution

A path resolves to a module of the crate or to a symbol. A leading `::` names an extern crate; the
words `crate`, `self` and `super` are anchors; any other first name is looked up in the module where
the path stands, and then among the extern crates. Looking up follows imports and globs, each of
which is a hop, and the number of hops is bounded. `find` is recursive in the number of hops that
are left, so that it ends on every table, whatever cycles the imports form.

The recursion is written for any memory of a query. The one in use is `Memory.once`: a name is not
searched through the globs of a module a second time.
-/

namespace DescriptionLookup

/-- The number of hops that a query may take. -/
def maximalHops : Nat := 16

/-! ### Direct bindings -/

/-- What a module binds a name to directly, that is, not through its globs. -/
inductive Binding
  /-- A declared item or a child module. -/
  | declared (target : Target)
  /-- An import of what this path leads to. -/
  | imported (path : Path)

/-- What a scope binds a name to directly: declared items come before child modules, and these
before imports. The import of a name to be skipped is not considered. -/
def Scope.binding? (scope : Scope) (module : ModulePath) (skip : Option String) (name : String) :
    Option Binding :=
  if scope.items.contains name then some (.declared (.symbol (.ofLocal module name)))
  else if scope.modules.contains name then some (.declared (.module (module.child name)))
  else if skip = some name then none
  else (scope.imports.get? name).map .imported

namespace SymbolTable

variable {σ : Type}

/-! ### Paths -/

/-- The root of the extern crate that a name stands for. -/
def externRoot? (table : SymbolTable) (name : String) : Option Target :=
  (table.externs.get? name).map fun crate => .symbol (.ofCrate crate)

/-- Looks a name up in a module; an import of the name to be skipped is not considered. -/
abbrev Look (σ : Type) := (skip : Option String) → ModulePath → String → Query σ Target

/-- What a name stands for inside a target. -/
def enter (look : Look σ) : Target → String → Query σ Target
  | .symbol symbol, name => return .symbol (symbol.child name)
  | .module module, name =>
    if name = "super" then OptionT.mk (pure (module.parent?.map .module)) else look none module name

/-- What the first name of a path in a module stands for. -/
def anchor (table : SymbolTable) (look : Look σ) (skip : Option String) (module : ModulePath)
    (absolute : Bool) (name : String) : Query σ Target :=
  if absolute then OptionT.mk (pure (table.externRoot? name))
  else if name = "crate" then return .module .root
  else if name = "self" then return .module module
  else if name = "super" then OptionT.mk (pure (module.parent?.map .module))
  else look skip module name <|> OptionT.mk (pure (table.externRoot? name))

/-- What a path in a module stands for. -/
def follow (table : SymbolTable) (look : Look σ) (skip : Option String) (module : ModulePath)
    (path : Path) : Query σ Target :=
  match path.segments with
  | [] => failure
  | first :: rest => do
    rest.foldlM (enter look) (← table.anchor look skip module path.absolute first)

/-! ### Names -/

/-- What to make of a guess when no module has the name: it counts only if no extern crate is called
so. -/
def guess (table : SymbolTable) (name : String) (symbol : Option Symbol) : Query σ Finding :=
  if table.externs.contains name then failure else OptionT.mk (pure (symbol.map .guessed))

/-- Search for a name through globs in turn. `followGlob` says what the path of a glob stands for,
and `look` looks the name up in a module. The names in an extern crate are unknown: the first glob
of one yields a guess, of which `last` makes what it can when no module has the name. -/
def throughGlobs (followGlob : Path → Query σ Target) (look : ModulePath → Query σ Finding)
    (last : Option Symbol → Query σ Finding) (name : String) (guess : Option Symbol) :
    List Path → Query σ Finding
  | [] => last guess
  | glob :: rest => do
    match ← OptionT.lift (followGlob glob).run with
    | some (.module module) => look module <|> throughGlobs followGlob look last name guess rest
    | some (.symbol symbol) =>
      let guess := if symbol.isForeign then guess <|> some (symbol.child name) else guess
      throughGlobs followGlob look last name guess rest
    | none => throughGlobs followGlob look last name guess rest

/-- Look a name up in a module: among what is bound directly, and then through globs. `hop` follows
a path, at the expense of one hop, with an import to be skipped; `look` looks the name up in another
module, at the same expense; `search` is asked before the globs are. -/
def findIn (table : SymbolTable) (search : Query σ Finding → Query σ Finding)
    (hop : Option String → Path → Query σ Target) (look : ModulePath → Query σ Finding)
    (skip : Option String) (module : ModulePath) (name : String) : Query σ Finding :=
  match table.scopes.get? module with
  | none => failure
  | some scope =>
    match scope.binding? module skip name with
    | some (.declared target) => return .bound target
    | some (.imported path) => Finding.bound <$> hop (some name) path
    | none => search (throughGlobs (hop none) look (table.guess name) name none scope.globs)

/-- Look a name up in a module with this many hops left, and say how it is found. -/
def find (table : SymbolTable) (memory : Memory σ) :
    (hops : Nat) → (skip : Option String) → ModulePath → String → Query σ Finding
  | 0, skip, module, name =>
    table.findIn (memory.search 0 module name) (fun _ _ => memory.stop) (fun _ => memory.stop) skip
      module name
  | hops + 1, skip, module, name =>
    let look : Look σ := fun skip module name =>
      Finding.target <$> table.find memory hops skip module name
    table.findIn (memory.search (hops + 1) module name)
      (fun skip' path => table.follow look skip' module path)
      (fun module' => table.find memory hops none module' name) skip module name

/-- Look a name up in a module with this many hops left. A guess is as good as any other answer. -/
def lookup (table : SymbolTable) (memory : Memory σ) (hops : Nat) : Look σ :=
  fun skip module name => Finding.target <$> table.find memory hops skip module name

/-! ### Resolution -/

/-- The query for what a path in a module stands for. -/
def query (table : SymbolTable) (memory : Memory σ) (module : ModulePath) (path : Path) :
    Query σ Target :=
  table.follow (table.lookup memory maximalHops) none module path

/-- What a path in a module stands for. -/
def target? (table : SymbolTable) (module : ModulePath) (path : Path) : Option Target :=
  ((table.query .once module path).outcome []).1

/-- The symbol of the item that a path in a module names. -/
def resolve (table : SymbolTable) (module : ModulePath) (path : Path) : Option Symbol :=
  (table.target? module path).bind Target.symbol?

/-- The symbol of the item that a path in a configuration names. Such a path names an extern crate
by its own name, so that one that is renamed in the source is still found. -/
def resolveQualified (table : SymbolTable) (path : Path) : Option Symbol :=
  match path.segments with
  | [] => none
  | first :: rest =>
    if table.externs.values.contains first then some (rest.foldl Symbol.child (.ofCrate first))
    else table.resolve .root path

end SymbolTable

end DescriptionLookup
