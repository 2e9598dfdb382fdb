import DescriptionLookup.Lookup.GeneratedUnit
import DescriptionLookup.Marking.Selection

/-!
# A pass over a crate

From a parsed crate to the unit with the lookups of its marked enums, together with a report on the
enums that have a lookup and on those that were skipped. A failure leaves nothing half done: there
is a complete unit or none.
-/

namespace DescriptionLookup

/-- An enum that has a lookup. -/
structure DescribedEnum where
  symbol : Symbol
  origin : Origin
  gates : List String
deriving DecidableEq

/-- What a pass yields. -/
structure PassResult where
  /-- The lookups, also when there are none. -/
  unit : GeneratedUnit
  /-- The enums that have a lookup, in the order of the unit. -/
  described : List DescribedEnum
  /-- The marked enums without a lookup. -/
  skipped : List SkippedEnum
deriving DecidableEq

namespace MarkedEnum

/-- The enum in a report. -/
def report (e : MarkedEnum) : DescribedEnum := ⟨e.symbol, e.origin, e.gates⟩

/-- The lookups of the enum. -/
def lookup (e : MarkedEnum) (textAttribute : String) : EnumLookup :=
  .ofDecl e.symbol.text e.gates textAttribute e.decl

end MarkedEnum

/-- The marked enums of a crate, and the attribute that carries the text of a variant. -/
def Compilation.select (compilation : Compilation) (configuration : Configuration) :
    Except Failure (Selection × String) := do
  configuration.validate
  let table := compilation.symbolTable
  let marker ← configuration.resolveMarker table compilation.crateName
  let registered ← configuration.registrations table
  let selection ← Selection.ofCandidates table marker.symbol registered compilation.candidates
  return (selection, marker.textAttribute)

/-- One pass over a crate. -/
def Compilation.generate (compilation : Compilation) (configuration : Configuration) :
    Except Failure PassResult := do
  let (selection, textAttribute) ← compilation.select configuration
  return {
    unit := .descriptions configuration.mount
      (selection.marked.map fun e => e.lookup textAttribute)
    described := selection.marked.map MarkedEnum.report
    skipped := selection.skipped }

end DescriptionLookup
