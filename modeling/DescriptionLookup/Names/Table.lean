import DescriptionLookup.Names.Scope

/-!
# Symbol tables

The scopes of all modules of a crate, the modules that the crate root cannot name, and the names of
extern crates. The three are collected independently of each other from the module bodies.
-/

namespace DescriptionLookup

/-! ### Visibility from the crate root -/

/-- One step of a scope's path: the enclosing module, or a module inside. -/
def ModulePath.go (module : ModulePath) (name : String) : Option ModulePath :=
  if name = "super" then module.parent? else some (module.child name)

/-- The module to which a path restricts the visibility of an item; `module` declares the item. -/
def ModulePath.restriction? (module : ModulePath) (path : Path) : Option ModulePath :=
  match path.segments with
  | "crate" :: rest => rest.foldlM ModulePath.go .root
  | "self" :: rest => rest.foldlM ModulePath.go module
  | "super" :: rest => module.parent?.bind (rest.foldlM ModulePath.go)
  | _ => none

/-- Whether the crate root can name an item of this visibility that a module declares, as far as
the item itself is concerned. Without a visibility it can only if it declares the item. -/
def Visibility.reachesRoot (module : ModulePath) : Visibility → Bool
  | .everywhere => true
  | .inherited => module.isRoot
  | .within path => (module.restriction? path).any ModulePath.isRoot

/-! ### Tables -/

/-- What the names in a crate are bound to. -/
structure SymbolTable where
  scopes : Bindings ModulePath Scope
  /-- The modules with a declaration that the crate root cannot name. -/
  hidden : List ModulePath
  /-- The names of extern crates, and the crates they stand for. -/
  externs : Bindings String String

namespace ModuleBody

/-- The scopes with what this body binds. Several bodies of one module share a scope. -/
def addScope (scopes : Bindings ModulePath Scope) (body : ModuleBody) : Bindings ModulePath Scope :=
  scopes.insert body.module
    (((scopes.get? body.module).getD .empty).addItems body.items)

/-- The module that an item declares with a visibility that does not reach the crate root. -/
def hiddenModule? (module : ModulePath) : Item → Option ModulePath
  | .inlineModule head _ | .fileModule head =>
    if head.visibility.reachesRoot module then none else some (module.child head.name)
  | _ => none

/-- The modules that this body declares out of reach of the crate root. -/
def hiddenModules (body : ModuleBody) : List ModulePath :=
  body.items.filterMap (hiddenModule? body.module)

/-- The names of extern crates with those that an item of this module adds. A crate is known under
its own name wherever it is declared; the crate root can give it another name for all modules. -/
def addExternName (module : ModulePath) (externs : Bindings String String) :
    Item → Bindings String String
  | .externCrate name binding =>
    if name = "self" then externs
    else
      let crate := (externs.get? name).getD name
      let aliased :=
        if module.isRoot ∧ binding ≠ "_" then externs.insert binding crate else externs
      aliased.insertIfNew name crate
  | _ => externs

/-- The names of extern crates with those that this body adds. -/
def addExternNames (externs : Bindings String String) (body : ModuleBody) :
    Bindings String String :=
  body.items.foldl (addExternName body.module) externs

end ModuleBody

/-- The symbol table of a crate. -/
def Compilation.symbolTable (compilation : Compilation) : SymbolTable where
  scopes := compilation.bodies.foldl ModuleBody.addScope .empty
  hidden := compilation.bodies.flatMap ModuleBody.hiddenModules
  externs := compilation.bodies.foldl ModuleBody.addExternNames compilation.externs

namespace SymbolTable

/-- Whether the crate root can name what is inside a module, as far as the modules on the way are
concerned. -/
def isReachable (table : SymbolTable) (module : ModulePath) : Bool :=
  module.chain.all fun around => !table.hidden.contains around

end SymbolTable

end DescriptionLookup
