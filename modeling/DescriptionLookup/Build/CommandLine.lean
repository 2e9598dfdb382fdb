import DescriptionLookup.Build.Arguments
import DescriptionLookup.Build.Builder

/-!
# The command line

A run of the program on its arguments: what it prints, what it reports, and the code it ends with.
The lookups are printed, or written to a directory together with the support file; the traits alone
can be printed as well. Skipped enums are reported as warnings.
-/

namespace DescriptionLookup

/-- What a run of the program leaves behind. -/
structure RunOutcome where
  /-- Zero for success, one for a failure, two for arguments that cannot be read. -/
  code : Nat
  printed : String
  reported : String
deriving DecidableEq

namespace CommandLine

/-- The answer to the question for the version. -/
def versionText : String := "enum-describe 0.1.0\n"

/-- How the program is used. -/
def usage : List String :=
  ["Build-time generator of description lookups for marked Rust enums",
    "",
    "Usage: enum-describe [OPTIONS] <ROOT>",
    "",
    "Arguments:",
    "  <ROOT>  Crate root file (e.g. `src/lib.rs`)",
    "",
    "Options:",
    "      --crate-name <NAME>        Crate name. Defaults to the name of the directory above `src/`",
    "      --extern <NAME[=CRATE]>    Extern crate visible to the sources, optionally renamed",
    "      --marker <PATH>            Fully-qualified path of the marker derive",
    "      --description-attr <NAME>  Name of the per-variant override attribute",
    "      --register <PATH>          Describe this enum even without the marker (repeatable)",
    "      --mount <PATH>             Module where the generated files are included",
    "      --out-dir <DIR>            Write both generated files into this directory instead of stdout",
    "      --support                  Print the support file instead of the descriptions",
    "  -h, --help                     Print help",
    "  -V, --version                  Print version"]

/-- Lines, each with its line break. -/
def textOfLines (ls : List String) : String := String.join (ls.map (· ++ "\n"))

/-- The outcome of a failure. -/
def failed (failure : Failure) : RunOutcome := ⟨1, "", "error: " ++ failure.message ++ "\n"⟩

/-- The warnings about skipped enums. -/
def warnings (skipped : List SkippedEnum) : String :=
  textOfLines (skipped.map fun e => "warning: " ++ e.report)

/-- The configuration that arguments set. -/
def configuration (a : Arguments) : Configuration :=
  let usual : Configuration := {}
  { marker := a.marker?.getD usual.marker
    textAttribute := a.textAttribute?.getD usual.textAttribute
    mount := a.mount?.getD usual.mount
    registered := a.registered }

variable {m : Type → Type} [Monad m]

/-- The name of the crate: the one that is given, or else the name of the directory above the one
that holds the root file. -/
def crateName (disk : Disk m) (a : Arguments) (root : String) : ExceptT Failure m String := do
  match a.crateName? with
  | some name => return name
  | none =>
    match (Location.parent? root).bind Location.parent? with
    | none => throw (.noCrateName root)
    | some package =>
      match ← disk.realName? (if package.isEmpty then "." else package) with
      | some name => return name
      | none => throw (.noCrateName root)

/-- The build that arguments with an output directory ask for. -/
def buildOptions (a : Arguments) (root name directory : String) : BuildOptions where
  root? := some root
  outDirectory? := some directory
  crateName? := some name
  externs := (markerCrate, markerCrate) :: a.externs.map externOf
  configuration := configuration a
  directives := false

/-- Writes both files into a directory. -/
def runBuild (disk : Disk m) (options : BuildOptions) : m RunOutcome := do
  match (← options.run disk fun _ => none).report with
  | .error failure => return failed failure
  | .ok report =>
    return ⟨0, textOfLines [report.supportPath, report.outputPath],
      warnings report.result.skipped⟩

/-- Prints the lookups. -/
def runPrint (disk : Disk m) (a : Arguments) (root name : String) : m RunOutcome := do
  match ← (Compilation.load disk name root).run with
  | .error failure => return failed failure
  | .ok compilation =>
    let externs := (markerCrate, markerCrate) :: a.externs.map externOf
    match (compilation.addExterns externs).generate (configuration a) with
    | .error failure => return failed failure
    | .ok result => return ⟨0, result.unit.text, warnings result.skipped⟩

/-- Does what the arguments ask for. -/
def runArguments (disk : Disk m) (a : Arguments) (root : String) : m RunOutcome := do
  match ← (crateName disk a root).run with
  | .error failure => return failed failure
  | .ok name =>
    match a.outDirectory? with
    | some directory => runBuild disk (buildOptions a root name directory)
    | none =>
      if a.support then return ⟨0, GeneratedUnit.support.text, ""⟩ else runPrint disk a root name

/-- Runs the program. -/
def run (disk : Disk m) (args : List String) : m RunOutcome := do
  match Request.ofArguments args with
  | .version => return ⟨0, versionText, ""⟩
  | .help => return ⟨0, textOfLines usage, ""⟩
  | .refused => return ⟨2, "", "error: these arguments cannot be read; see --help\n"⟩
  | .run a =>
    match a.root? with
    | some root => runArguments disk a root
    | none => return ⟨2, "", "error: no root file is given; see --help\n"⟩

end CommandLine

end DescriptionLookup
