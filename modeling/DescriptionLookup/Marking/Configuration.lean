import DescriptionLookup.Failure
import DescriptionLookup.Grammar.Source

/-!
# Configuration

What can be set for a pass: the marker by which enums opt in, the attribute that carries the text of
a variant, enums that count as marked without the marker, and the module where the generated text
is included. A configuration is valid if everything in it that should be a path is one.
-/

namespace DescriptionLookup

/-- The crate that provides the usual marker. -/
def markerCrate : String := "enum_describe_macros"

/-- The settings of a pass. -/
structure Configuration where
  /-- The path of the marker, by which enums opt in. -/
  marker : String := "enum_describe_macros::GenerateEnumDescription"
  /-- The attribute of a variant that carries its text. -/
  textAttribute : String := "description"
  /-- The paths of enums that count as marked without the marker. -/
  registered : List String := []
  /-- The module where the generated text is included. -/
  mount : String := "crate"
deriving DecidableEq, Inhabited

namespace Configuration

/-- The path that a setting is. -/
def path (setting : Setting) (text : String) : Except Failure Path :=
  (Grammar.parsePath text).mapError (.notAPath setting text)

/-- Checks that everything that should be a path is one: the marker, the mount and the registered
enums in this order. -/
def validate (configuration : Configuration) : Except Failure Unit := do
  let _ ← path .marker configuration.marker
  let _ ← path .mount configuration.mount
  for text in configuration.registered do
    let _ ← path .registered text

end Configuration

end DescriptionLookup
