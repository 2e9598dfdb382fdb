import DescriptionLookup.Syntax.Item

/-!
# Gates

A gate is a `cfg` attribute: what it applies to exists only in the builds that its predicate
selects. The predicates cannot be evaluated here, so gates are carried along as text. Only the
predicate that is the word `test` alone is recognised, since tests are no part of the crate itself.
-/

namespace DescriptionLookup

/-- The gates among attributes, each as it is written in front of what it applies to. -/
def gates (attributes : List Attribute) : List String :=
  (attributes.filter (·.isNamed "cfg")).map Attribute.text

/-- Whether an attribute is the gate for tests. -/
def Attribute.isTestGate (a : Attribute) : Bool :=
  a.isNamed "cfg" &&
    match a.argument with
    | .list _ [.word name _] => name == "test"
    | _ => false

/-- Whether one of the attributes is the gate for tests. -/
def isTestOnly (attributes : List Attribute) : Bool := attributes.any Attribute.isTestGate

/-- The file or directory that an attribute names for a module. -/
def Attribute.location? (a : Attribute) : Option String :=
  if a.isNamed "path" then
    match a.argument with
    | .value expression => expression.text?
    | _ => none
  else none

/-- The file or directory that the first attribute that names one names for a module. -/
def location? (attributes : List Attribute) : Option String :=
  attributes.findSome? Attribute.location?

end DescriptionLookup
