import DescriptionLookup.Crate.Compilation

/-!
# Enum candidates

Every enum that is an item of some module of the crate, with the place where it was found. Modules
that exist for tests alone are passed over. Whether an enum gets a lookup is decided later: one
without any attribute may be registered by its path.
-/

namespace DescriptionLookup

/-- An enum and where it is declared. -/
structure Candidate where
  decl : EnumDecl
  /-- The module that declares it. -/
  module : ModulePath
  /-- The file that declares it. -/
  file : String
  /-- The gates of the modules around it and then its own, the outermost first. -/
  gates : List String

namespace Candidate

mutual

/-- The enums that an item of a module is or holds, in the order of the text; `outer` are the gates
of the module. -/
def ofItem (file : String) (module : ModulePath) (outer : List String) : Item → List Candidate
  | .enumeration decl =>
    [{ decl, module, file, gates := outer ++ DescriptionLookup.gates decl.attributes }]
  | .inlineModule head items =>
    if isTestOnly head.attributes then []
    else
      ofItems file (module.child head.name) (outer ++ DescriptionLookup.gates head.attributes) items
  | _ => []

/-- The enums among the items of a module in the order of the text. -/
def ofItems (file : String) (module : ModulePath) (outer : List String) :
    List Item → List Candidate
  | [] => []
  | item :: rest => ofItem file module outer item ++ ofItems file module outer rest

end

/-- The enums of a file. -/
def ofFile (file : SourceFile) : List Candidate :=
  ofItems file.path file.module file.gates file.source.items

end Candidate

/-- The enums of a crate, file by file and in the order of the text. -/
def Compilation.candidates (compilation : Compilation) : List Candidate :=
  compilation.files.flatMap Candidate.ofFile

end DescriptionLookup
