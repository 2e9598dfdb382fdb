import DescriptionLookup.Crate.Candidate
import DescriptionLookup.Marking.Configuration
import DescriptionLookup.Names.Resolution

/-!
# Which enums get a lookup

An enum is marked if one of its derives resolves to the same symbol as the marker, or if the
configuration registers it. Symbols are compared and never names, so that a derive of another crate
does not count however it is called. A marked enum is selected unless an earlier one has the same
symbol and the same gates, or generated code at the crate root cannot name it.
-/

namespace DescriptionLookup

/-! ### The marker and the registrations -/

/-- The marker as a symbol, and the attribute that carries the text of a variant. -/
structure Marker where
  symbol : Symbol
  textAttribute : String

/-- The marker that a configuration sets. -/
def Configuration.resolveMarker (configuration : Configuration) (table : SymbolTable)
    (crateName : String) : Except Failure Marker := do
  let path ← Configuration.path .marker configuration.marker
  match table.resolveQualified path with
  | none => throw (.unresolvedMarker configuration.marker crateName)
  | some symbol =>
    match Grammar.parseIdentifier configuration.textAttribute with
    | .error _ => throw (.unresolved configuration.textAttribute .attributeName)
    | .ok _ => return { symbol, textAttribute := configuration.textAttribute }

/-- The symbol of a registered enum, which must belong to the crate at hand. -/
def registration (table : SymbolTable) (text : String) : Except Failure Symbol := do
  let path ← Configuration.path .registered text
  match table.resolveQualified path with
  | none => throw (.unresolved text .declaredEnum)
  | some symbol =>
    if symbol.isForeign then throw (.unresolved text .declaredEnum) else return symbol

/-- The symbols of the registered enums. -/
def Configuration.registrations (configuration : Configuration) (table : SymbolTable) :
    Except Failure (List Symbol) :=
  configuration.registered.mapM (registration table)

/-! ### Candidates -/

/-- The paths among the derives of an enum. A derive attribute that is no list of paths counts for
nothing. -/
def EnumDecl.derives (decl : EnumDecl) : List Path :=
  (decl.attributes.filter (·.isNamed "derive")).flatMap fun a =>
    (Grammar.listArgument? Grammar.typePath a).getD []

namespace Candidate

/-- The symbol of the enum. -/
def symbol (c : Candidate) : Symbol := .ofLocal c.module c.decl.name

/-- What distinguishes declarations that can exist in one build. -/
def key (c : Candidate) : Symbol × List String := (c.symbol, c.gates)

/-- Whether one of the derives is the marker. -/
def carries (c : Candidate) (table : SymbolTable) (marker : Symbol) : Bool :=
  c.decl.derives.any fun path => table.resolve c.module path == some marker

/-- Whether generated code at the crate root can name the enum. -/
def isNameable (c : Candidate) (table : SymbolTable) : Bool :=
  c.decl.visibility.reachesRoot c.module && table.isReachable c.module

end Candidate

/-! ### Selection -/

/-- How an enum opted in. -/
inductive Origin
  | derived
  | registered
deriving DecidableEq

/-- How a candidate opted in, if it did. -/
def Candidate.origin? (c : Candidate) (table : SymbolTable) (marker : Symbol)
    (registered : List Symbol) : Option Origin :=
  if c.carries table marker then some .derived
  else if registered.contains c.symbol then some .registered
  else none

/-- Why a marked enum gets no lookup. -/
inductive SkipReason
  /-- Generated code at the crate root cannot name it. -/
  | notNameable
  /-- An earlier declaration has its symbol and its gates. -/
  | duplicate
deriving DecidableEq

/-- The words for a reason. -/
def SkipReason.describe : SkipReason → String
  | .notNameable =>
    "not visible from the crate root; make it and its modules at least `pub(crate)`"
  | .duplicate => "declared more than once under the same `cfg`; only the first is described"

/-- An enum that gets a lookup. -/
structure MarkedEnum where
  symbol : Symbol
  decl : EnumDecl
  origin : Origin
  gates : List String

/-- What distinguishes declarations that can exist in one build. -/
def MarkedEnum.key (e : MarkedEnum) : Symbol × List String := (e.symbol, e.gates)

/-- A marked enum that gets no lookup. -/
structure SkippedEnum where
  symbol : Symbol
  reason : SkipReason
deriving DecidableEq

/-- The line that reports a skipped enum. -/
def SkippedEnum.report (e : SkippedEnum) : String :=
  "enum `" ++ e.symbol.text ++ "` not described: " ++ e.reason.describe

/-- The marked enums with a lookup and those without, each in the order of the candidates. -/
structure Selection where
  marked : List MarkedEnum
  skipped : List SkippedEnum

namespace Selection

/-- Nothing is selected. -/
def empty : Selection := ⟨[], []⟩

/-- Why a marked candidate is skipped, if it is. -/
def skipReason? (selection : Selection) (table : SymbolTable) (c : Candidate) :
    Option SkipReason :=
  if selection.marked.any fun e => e.key == c.key then some .duplicate
  else if c.isNameable table then none
  else some .notNameable

/-- The selection with one more candidate considered. -/
def add (table : SymbolTable) (marker : Symbol) (registered : List Symbol)
    (selection : Selection) (c : Candidate) : Selection :=
  match c.origin? table marker registered with
  | none => selection
  | some origin =>
    match selection.skipReason? table c with
    | some reason =>
      { selection with skipped := selection.skipped ++ [⟨c.symbol, reason⟩] }
    | none =>
      { selection with
        marked := selection.marked ++ [⟨c.symbol, c.decl, origin, c.gates⟩] }

/-- The selection among candidates. Every registered enum has to be one of them. -/
def ofCandidates (table : SymbolTable) (marker : Symbol) (registered : List Symbol)
    (candidates : List Candidate) : Except Failure Selection :=
  match registered.find? fun symbol => !candidates.any fun c => c.symbol == symbol with
  | some symbol => throw (.unresolved symbol.text .declaredEnum)
  | none => return candidates.foldl (add table marker registered) empty

end Selection

end DescriptionLookup
