import DescriptionLookup.Disk.Fault
import DescriptionLookup.Grammar.Fault

/-!
# Failures

The causes that end a pass without a result, and the wording of each.
-/

namespace DescriptionLookup

/-- The settings of a configuration that are paths. -/
inductive Setting
  | marker
  | mount
  | registered
deriving DecidableEq

/-- The words for a setting. -/
def Setting.describe : Setting → String
  | .marker => "marker"
  | .mount => "mount"
  | .registered => "registered enum"

/-- What a configured text should denote. -/
inductive Denotation
  | attributeName
  | declaredEnum
deriving DecidableEq

/-- The words for what a text should denote. -/
def Denotation.describe : Denotation → String
  | .attributeName => "an attribute name"
  | .declaredEnum => "an enum declared in this crate"

/-- Why a pass has no result. -/
inductive Failure
  /-- A file or directory cannot be read or written. -/
  | disk (path : String) (fault : DiskFault)
  /-- A source text breaks the grammar. -/
  | source (path : String) (fault : Grammar.Fault)
  /-- The marker names nothing in this crate. -/
  | unresolvedMarker (path crate : String)
  /-- A configured text does not denote what it should. -/
  | unresolved (path : String) (wanted : Denotation)
  /-- A setting is not a path. -/
  | notAPath (setting : Setting) (text : String) (fault : Grammar.Fault)
  /-- The name of the crate is neither given nor to be seen from its root file. -/
  | noCrateName (root : String)
  /-- A variable of the environment is not set. -/
  | missingVariable (name : String)
  /-- The modules of a crate lead to ever more files. -/
  | endlessModules (path : String)

/-- The wording of a failure. -/
def Failure.message : Failure → String
  | .disk path fault => path ++ ": " ++ fault.message
  | .source path fault =>
    path ++ ":" ++ toString fault.pos.line ++ ":" ++ toString fault.pos.column ++ ": " ++
      fault.message
  | .unresolvedMarker path crate =>
    "marker `" ++ path ++ "` cannot be resolved in crate `" ++ crate ++ "`"
  | .unresolved path wanted => "`" ++ path ++ "` does not resolve to " ++ wanted.describe
  | .notAPath setting text fault =>
    "invalid configuration: " ++ setting.describe ++ " `" ++ text ++ "` is not a path: " ++
      fault.message
  | .noCrateName root =>
    "invalid configuration: cannot infer a crate name from `" ++ root ++ "`; pass --crate-name"
  | .missingVariable name =>
    "environment variable `" ++ name ++ "` is not set (not running inside a build script?)"
  | .endlessModules path => path ++ ": modules are nested without end"

end DescriptionLookup
