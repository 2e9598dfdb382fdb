import DescriptionLookup.Crate.Compilation

/-!
# Scopes

What is bound directly in a module: the items and child modules it declares, the names it imports,
and the globs through which further names may come. Imports are kept as they are written; following
them is the business of resolution.
-/

namespace DescriptionLookup

/-! ### Imports -/

/-- One thing that a tree of imports brings in. -/
inductive Import
  /-- A name for what a path leads to. -/
  | single (binding : String) (path : List String)
  /-- All names in what a path leads to. -/
  | glob (path : List String)
deriving DecidableEq

mutual

/-- What a tree of imports brings in, in the order of the text; `lead` is the path before the tree.
The word `self` stands for that path itself, and the low line binds nothing. -/
def UseTree.imports (lead : List String) : UseTree → List Import
  | .path first tree => UseTree.imports (lead ++ [first]) tree
  | .name last =>
    if last = "self" then (lead.getLast?.map fun binding => Import.single binding lead).toList
    else [.single last (lead ++ [last])]
  | .rename last binding =>
    if binding = "_" then []
    else [.single binding (if last = "self" then lead else lead ++ [last])]
  | .glob => [.glob lead]
  | .group trees => UseTree.importsAll lead trees

/-- What several trees of imports bring in. -/
def UseTree.importsAll (lead : List String) : List UseTree → List Import
  | [] => []
  | tree :: rest => UseTree.imports lead tree ++ UseTree.importsAll lead rest

end

/-! ### Scopes -/

/-- What is bound directly in a module. -/
structure Scope where
  /-- The names of declared items. -/
  items : List String
  /-- The names of child modules. -/
  modules : List String
  /-- The imported names, and the paths they stand for. -/
  imports : Bindings String Path
  /-- The paths of globs, in the order of the text. -/
  globs : List Path

namespace Scope

/-- The scope in which nothing is bound. -/
def empty : Scope := ⟨[], [], .empty, []⟩

/-- The scope with one more import; `absolute` says whether its path begins with `::`. -/
def addImport (absolute : Bool) (scope : Scope) : Import → Scope
  | .single binding path =>
    { scope with imports := scope.imports.insert binding ⟨absolute, path⟩ }
  | .glob path => { scope with globs := scope.globs ++ [⟨absolute, path⟩] }

/-- The scope with one more extern crate. The crate at hand is called `self`. -/
def addExternCrate (scope : Scope) (name binding : String) : Scope :=
  if binding = "_" then scope
  else
    let path : Path := if name = "self" then ⟨false, ["crate"]⟩ else ⟨true, [name]⟩
    { scope with imports := scope.imports.insert binding path }

/-- The scope with one more item of its module. -/
def addItem (scope : Scope) : Item → Scope
  | .enumeration decl => { scope with items := scope.items ++ [decl.name] }
  | .inlineModule head _ => { scope with modules := scope.modules ++ [head.name] }
  | .fileModule head => { scope with modules := scope.modules ++ [head.name] }
  | .imports absolute tree => (tree.imports []).foldl (addImport absolute) scope
  | .externCrate name binding => scope.addExternCrate name binding
  | .named _ name => { scope with items := scope.items ++ [name] }
  | .irregular | .unnamed => scope

/-- The scope with the items of one more body of its module. -/
def addItems (scope : Scope) (items : List Item) : Scope := items.foldl addItem scope

end Scope

end DescriptionLookup
