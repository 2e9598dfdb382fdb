import DescriptionLookup.Crate.Loading
import DescriptionLookup.Lookup.Pass

/-!
# Builds

A build writes the support file, loads the crate, runs one pass over it and writes the file with the
lookups. The support file is written before any source is read, and the other one only when the pass
succeeded; neither is touched if it holds its text already. What a build prints are directives for
the build tool: the files it depends on, and a warning for each skipped enum.
-/

namespace DescriptionLookup

/-- The settings of a build. Those that are not given come from the environment. -/
structure BuildOptions where
  /-- The root file of the crate. -/
  root? : Option String := none
  /-- The directory of the generated files. -/
  outDirectory? : Option String := none
  crateName? : Option String := none
  /-- Names for extern crates; the crate of the usual marker is known under its own name. -/
  externs : List (String × String) := [(markerCrate, markerCrate)]
  configuration : Configuration := {}
  /-- Whether directives are printed. -/
  directives : Bool := true

/-- The variables of the environment that are set. -/
abbrev Environment := String → Option String

/-- What a successful build did. -/
structure BuildReport where
  /-- The support file. -/
  supportPath : String
  /-- The file with the lookups. -/
  outputPath : String
  /-- The files that were read, which are those that the build depends on. -/
  inputs : List String
  result : PassResult
  /-- Whether the file with the lookups was written. -/
  written : Bool

/-- What a build printed, and what became of it. -/
structure BuildOutcome where
  printed : List String
  report : Except Failure BuildReport

namespace BuildOptions

variable {m : Type → Type} [Monad m]

/-- The value of a variable. -/
def required (environment : Environment) (name : String) : Except Failure String :=
  match environment name with
  | some value => .ok value
  | none => .error (.missingVariable name)

/-- The directory of the generated files. -/
def outDirectory (options : BuildOptions) (environment : Environment) : Except Failure String :=
  match options.outDirectory? with
  | some directory => .ok directory
  | none => required environment "OUT_DIR"

/-- The root file of the crate: the one that is given, or else that of the library of the package,
or else that of its program. -/
def root (disk : Disk m) (options : BuildOptions) (environment : Environment) :
    ExceptT Failure m String := do
  match options.root? with
  | some root => return root
  | none =>
    match required environment "CARGO_MANIFEST_DIR" with
    | .error failure => throw failure
    | .ok package =>
      let sources := Location.join package "src"
      let library := Location.join sources "lib.rs"
      if ← disk.isFile library then return library else return Location.join sources "main.rs"

/-- The name of the crate. -/
def crateName (options : BuildOptions) (environment : Environment) : Except Failure String :=
  match options.crateName? with
  | some name => .ok name
  | none => required environment "CARGO_PKG_NAME"

/-- Writes the support file: the directory of the generated files, and the path of the support
file in it. -/
def prepare (disk : Disk m) (options : BuildOptions) (environment : Environment) :
    ExceptT Failure m (String × String) := do
  match options.outDirectory environment with
  | .error failure => throw failure
  | .ok directory =>
    disk.ensureDirectories directory
    let support := Location.join directory GeneratedUnit.support.fileName
    let _ ← disk.writeIfChanged support GeneratedUnit.support.text
    return (directory, support)

/-- Loads the crate, with the extern crates it may name. -/
def loadCrate (disk : Disk m) (options : BuildOptions) (environment : Environment) :
    ExceptT Failure m Compilation := do
  let root ← options.root disk environment
  match options.crateName environment with
  | .error failure => throw failure
  | .ok name => return (← Compilation.load disk name root).addExterns options.externs

/-- The directives for the files that were read. -/
def inputDirectives (options : BuildOptions) (inputs : List String) : List String :=
  if options.directives then inputs.map ("cargo:rerun-if-changed=" ++ ·) else []

/-- The directives for the enums that were skipped. -/
def warningDirectives (options : BuildOptions) (skipped : List SkippedEnum) : List String :=
  if options.directives then skipped.map fun e => "cargo:warning=" ++ e.report else []

/-- Runs a pass over a loaded crate and writes the file with the lookups into a directory. -/
def finish (disk : Disk m) (options : BuildOptions) (directory support : String)
    (compilation : Compilation) : m BuildOutcome := do
  let inputs := compilation.files.map SourceFile.path
  let printed := options.inputDirectives inputs
  match compilation.generate options.configuration with
  | .error failure => return ⟨printed, .error failure⟩
  | .ok result =>
    let output := Location.join directory result.unit.fileName
    match ← (disk.writeIfChanged output result.unit.text).run with
    | .error failure => return ⟨printed, .error failure⟩
    | .ok written =>
      return ⟨printed ++ options.warningDirectives result.skipped,
        .ok { supportPath := support, outputPath := output, inputs, result, written }⟩

/-- Runs a build. -/
def run (disk : Disk m) (options : BuildOptions) (environment : Environment) :
    m BuildOutcome := do
  match ← (options.prepare disk environment).run with
  | .error failure => return ⟨[], .error failure⟩
  | .ok (directory, support) =>
    match ← (options.loadCrate disk environment).run with
    | .error failure => return ⟨[], .error failure⟩
    | .ok compilation => options.finish disk directory support compilation

end BuildOptions

end DescriptionLookup
