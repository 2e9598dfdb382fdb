import DescriptionLookup.Grammar.Nonterminals

/-!
# Reading attributes and visibilities

The path of an attribute is plain: its segments have no arguments and are identifiers or the words
`super`, `self`, `Self` and `crate`.
-/

namespace DescriptionLookup.Grammar

open Grammar.Parser

/-- Read the names of a plain path, with the ones found so far in reverse. -/
def plainSegments : Parser (List String) :=
  repeated (fun found => do
    if ← seesAny [.identifier, .word "super", .word "self", .word "Self", .word "crate"] then
      let name ← anyWord
      if ← optionalMark "::" then return .again (name :: found)
      return .done (name :: found).reverse
    match found with
    | [] =>
      let _ ← identifier
      return .done []
    | _ => missing .pathSegment) []

/-- Read a plain path. -/
def plainPath : Parser Path := do
  let absolute ← optionalMark "::"
  return { absolute, segments := ← plainSegments }

/-- The shape of a literal as an expression. -/
def literalShape (literal : String) : Expression.Shape :=
  match Text.literalText? literal with
  | some value => .text value
  | none => .other

/-- Read a literal that is all that is left. -/
def onlyLiteral : Parser Expression.Shape := do
  let text ← literal
  if ← atEnd then return literalShape text
  missing .literal

/-- Read what follows the equals sign of an attribute. -/
def attributeValue (g : Nonterminals) : Parser Expression.Shape := do
  if ← sees .literal then
    match ← attempt onlyLiteral with
    | some shape => return shape
    | none => pure ()
  if (← seesMark "#") && (← seesSecond (.group .bracket)) then complain .attributeInAttribute
  g.expression true

/-- Read what follows the path of an attribute. It does not matter where an attribute stands, and so
the places of its tokens are not kept. -/
def attributeArgument (g : Nonterminals) : Parser Attribute.Argument := do
  if ← sees .anyGroup then
    let (d, tokens) ← anyGroup
    return .list d (TokenTree.placelessAll tokens)
  if (← seesMark "=") && !(← seesMark "==") && !(← seesMark "=>") then
    mark "="
    let (shape, tokens) ← captured (attributeValue g)
    record tokens
    return .value ⟨shape, TokenTree.placelessAll tokens⟩
  return .nothing

/-- Read an attribute from inside its brackets. -/
def attributeBody (g : Nonterminals) : Parser Attribute := do
  let path ←
    if ← seesWord "unsafe" then
      word "unsafe"
      pure (Path.ofName "unsafe")
    else plainPath
  return { path, argument := ← attributeArgument g }

/-- Read an attribute in front of what it applies to. -/
def outerAttribute (g : Nonterminals) : Parser Attribute := do
  mark "#"
  brackets (attributeBody g)

/-- Read the attributes in front of what they apply to. -/
def outerAttributes (g : Nonterminals) : Parser (List Attribute) :=
  repeated (fun found => do
    if ← seesMark "#" then return .again ((← outerAttribute g) :: found)
    return .done found.reverse) []

/-- Read the attributes at the beginning of what they apply to. -/
def innerAttributes (g : Nonterminals) : Parser (List Attribute) :=
  repeated (fun found => do
    if (← seesMark "#") && (← seesSecond (.mark "!")) then
      mark "#"
      mark "!"
      return .again ((← brackets (attributeBody g)) :: found)
    return .done found.reverse) []

/-! ### Visibility -/

/-- Read the scope of a restricted visibility from inside its parentheses: one word and nothing
else, or a path behind `in`. The answer is `none` if it is no scope. -/
def restriction : Parser (Option Path) := do
  if ← seesAny [.word "crate", .word "self", .word "super"] then
    let name ← anyWord
    if ← atEnd then return some (Path.ofName name) else return none
  if ← optionalWord "in" then
    return some (← plainPath)
  return none

/-- Read the parentheses behind `pub` if they hold a scope. A fault in a path behind `in` is a fault
of the whole. -/
def restricted? : Parser (Option Path) := do
  let state ← get
  match ← parentheses restriction with
  | some path => return some path
  | none =>
    set state
    return none

/-- Read a visibility. -/
def visibility : Parser Visibility := do
  if ← optionalWord "pub" then
    if ← seesParentheses then
      match ← restricted? with
      | some path => return .within path
      | none => return .everywhere
    return .everywhere
  return .inherited

end DescriptionLookup.Grammar
