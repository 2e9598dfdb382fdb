import DescriptionLookup.Crate.Gate
import DescriptionLookup.Crate.ModulePath
import DescriptionLookup.Grammar.Source
import DescriptionLookup.Names.Bindings

/-!
# Compilations

A compilation is the parsed source of one crate, file by file, together with the extern crates that
its code may name. The bodies of all its modules, those of files and those in braces, are listed by
`Compilation.bodies`.
-/

namespace DescriptionLookup

/-- A parsed file of a crate. -/
structure SourceFile where
  /-- Where the text came from. -/
  path : String
  /-- The module that the file is the body of. -/
  module : ModulePath
  /-- The gates of the module, the outermost first; those inside the file come last. -/
  gates : List String
  source : SourceText

/-- The parsed source of a crate, and the extern crates it may name. -/
structure Compilation where
  crateName : String
  /-- The files in the order in which they were added. -/
  files : List SourceFile
  /-- The names of extern crates in the source, and the crates they stand for. -/
  externs : Bindings String String

/-- The spelling of a crate name in source code, where hyphens are low lines. -/
def crateIdentifier (name : String) : String :=
  String.ofList (name.toList.map fun c => if c = '-' then '_' else c)

namespace Compilation

/-- The compilation of a crate without files and extern crates. -/
def empty (crateName : String) : Compilation := ⟨crateIdentifier crateName, [], .empty⟩

/-- The compilation with one more file. -/
def addFile (compilation : Compilation) (file : SourceFile) : Compilation :=
  { compilation with files := compilation.files ++ [file] }

/-- The compilation with the text of one more file as the body of a module. Modules that it
declares without a body are not followed. -/
def addSource (compilation : Compilation) (module : ModulePath) (path text : String) :
    Except Grammar.Fault Compilation := do
  let source ← Grammar.parseFile text
  return compilation.addFile { path, module, gates := gates source.attributes, source }

/-- The compilation in which a name stands for an extern crate. -/
def addExtern (compilation : Compilation) (name crate : String) : Compilation :=
  { compilation with
    externs := compilation.externs.insert (crateIdentifier name) (crateIdentifier crate) }

/-- The compilation in which each of the names stands for an extern crate, the last one counting. -/
def addExterns (compilation : Compilation) (pairs : List (String × String)) : Compilation :=
  pairs.foldl (fun compilation (name, crate) => compilation.addExtern name crate) compilation

end Compilation

/-! ### Module bodies -/

/-- The items of a module, or some of them: a module may have several bodies. -/
structure ModuleBody where
  module : ModulePath
  items : List Item

mutual

/-- The bodies in braces that an item of a module is or holds, in the order of the text. -/
def Item.bodies (module : ModulePath) : Item → List ModuleBody
  | .inlineModule head items =>
    ⟨module.child head.name, items⟩ :: innerBodies (module.child head.name) items
  | _ => []

/-- The bodies in braces among the items of a module, in the order of the text. -/
def innerBodies (module : ModulePath) : List Item → List ModuleBody
  | [] => []
  | item :: rest => Item.bodies module item ++ innerBodies module rest

end

/-- The body that a file is, and the bodies in it. -/
def SourceFile.bodies (file : SourceFile) : List ModuleBody :=
  ⟨file.module, file.source.items⟩ :: innerBodies file.module file.source.items

/-- All module bodies of a crate. -/
def Compilation.bodies (compilation : Compilation) : List ModuleBody :=
  compilation.files.flatMap SourceFile.bodies

end DescriptionLookup
