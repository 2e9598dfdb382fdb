import DescriptionLookup.Crate.Compilation
import DescriptionLookup.Disk.Basic

/-!
# Loading a crate

A crate is loaded from its root file by following the modules that are declared without a body.
Where such a module is looked for depends on the file that declares it, on the modules in braces
around the declaration and on a `path` attribute. A module whose file is not found is left out; a
file that cannot be read or parsed ends the loading.

The files that a crate leads to need not be finitely many, since a `path` attribute may lead back to
a file that is being loaded. Loading therefore takes a bound on how deeply files may be nested, and
fails with a cause of its own beyond it.
-/

namespace DescriptionLookup

/-- A module declared without a body. -/
structure PendingModule where
  module : ModulePath
  /-- The files that may hold its body; the first that exists does. -/
  places : List String
  /-- The gates of the modules around it and then those of its declaration. -/
  gates : List String

/-- The files that may hold the body of a module declared in a place; `directory` is where the
files of child modules are. -/
def modulePlaces (directory : String) (head : ModuleHead) : List String :=
  match location? head.attributes with
  | some path => [Location.join directory path]
  | none =>
    let name := unraw head.name
    [Location.join directory (name ++ ".rs"),
      Location.join (Location.join directory name) "mod.rs"]

/-- Where the files of the child modules of a module in braces are. -/
def innerDirectory (directory : String) (head : ModuleHead) : String :=
  Location.join directory ((location? head.attributes).getD (unraw head.name))

mutual

/-- The modules without a body that an item of a module is or holds, in the order of the text. Those
that are there for tests alone are passed over. -/
def Item.pending (module : ModulePath) (directory : String) (outer : List String) :
    Item → List PendingModule
  | .inlineModule head items =>
    if isTestOnly head.attributes then []
    else
      pendingModules (module.child head.name) (innerDirectory directory head)
        (outer ++ gates head.attributes) items
  | .fileModule head =>
    if isTestOnly head.attributes then []
    else [⟨module.child head.name, modulePlaces directory head, outer ++ gates head.attributes⟩]
  | _ => []

/-- The modules without a body among the items of a module, in the order of the text. -/
def pendingModules (module : ModulePath) (directory : String) (outer : List String) :
    List Item → List PendingModule
  | [] => []
  | item :: rest =>
    Item.pending module directory outer item ++ pendingModules module directory outer rest

end

/-- Where the files of the child modules of a file module are. A file called `mod.rs` has them
beside it, any other file in a directory of its own name. -/
def childDirectory (file : String) : String :=
  let directory := Location.parent file
  if Location.name? file = some "mod.rs" then directory
  else
    match Location.stem? file with
    | some stem => Location.join directory stem
    | none => directory

namespace Compilation

variable {m : Type → Type} [Monad m]

/-- Load a file as the body of a module, and then the files of the modules it declares. `directory`
is where these are, `outer` are the gates of the module's declaration, and files may be nested as
deeply as the number says. -/
def loadFile (disk : Disk m) : Nat → (path : String) → (module : ModulePath) →
    (directory : String) → (outer : List String) → Compilation → ExceptT Failure m Compilation
  | 0, path, _, _, _, _ => throw (.endlessModules path)
  | depth + 1, path, module, directory, outer, compilation => do
    let text ← disk.readText path
    match Grammar.parseFile text with
    | .error fault => throw (.source path fault)
    | .ok source =>
      let file : SourceFile :=
        { path, module, gates := outer ++ gates source.attributes, source }
      (pendingModules module directory file.gates source.items).foldlM
        (fun compilation pending => do
          match ← (pending.places.findM? fun place => disk.isFile place : m (Option String)) with
          | none => return compilation
          | some found =>
            loadFile disk depth found pending.module (childDirectory found) pending.gates
              compilation)
        (compilation.addFile file)

/-- Load a crate from its root file, with files nested at most this deeply. -/
def loadWithin (disk : Disk m) (depth : Nat) (crateName root : String) :
    ExceptT Failure m Compilation :=
  loadFile disk depth root .root (Location.parent root) [] (.empty crateName)

/-- How deeply files may be nested. It is more than any chain of files with ever longer paths
reaches, since a path of 4096 bytes cannot be opened. -/
def maximalDepth : Nat := 4096

/-- Load a crate from its root file. -/
def load (disk : Disk m) (crateName root : String) : ExceptT Failure m Compilation :=
  loadWithin disk maximalDepth crateName root

end Compilation

end DescriptionLookup
