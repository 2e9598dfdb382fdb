import DescriptionLookup.Grammar.Type

/-!
# Reading generic parameters and where clauses
-/

namespace DescriptionLookup.Grammar

open Grammar.Parser

/-- Whether angle brackets behind `impl` or `for` declare parameters, and are not the beginning of a
qualified path. -/
def seesDeclaration : Parser Bool := do
  if !(← seesMark "<") then return false
  if (← seesSecond (.mark ">")) || (← seesSecond (.mark "#")) || (← seesSecond (.word "const")) then
    return true
  if (← seesSecond .lifetime) || (← seesSecond .identifier) then
    return (← seesThird (.mark ">")) || (← seesThird (.mark ",")) ||
      ((← seesThird (.mark ":")) && !(← seesThird (.mark "::"))) || (← seesThird (.mark "="))
  return false

/-- Whether angle brackets behind the next word declare parameters. -/
def seesDeclarationBehindWord : Parser Bool := do
  let declares ← lookAhead do
    let _ ← anyWord
    seesDeclaration
  return declares.getD false

/-- Read one of the parameters that an item declares. -/
def declaredParam (g : Nonterminals) : Parser GenericParam := do
  let (_, attributes) ← captured (outerAttributes g)
  if ← sees .lifetime then lifetimeParam attributes
  else if ← sees .identifier then typeParam g attributes
  else if ← seesWord "const" then constParam g attributes
  else if ← seesWord "_" then
    let (_, name) ← captured anyWord
    return { kind := .type, attributes, name, bounds := [], default := [], comma := false }
  else missingOneOf [.lifetime, .identifier, .word "const"]

/-- Read the parameters that an item declares, if it does; the answer says whether it does. An empty
list of parameters has no transcript. -/
def generics (g : Nonterminals) : Parser (Option Generics) := do
  if !(← seesMark "<") then return none
  silently (mark "<")
  let params ← repeated (fun found => do
    if ← seesMark ">" then return .done found.reverse
    let param ← declaredParam g
    if ← seesMark ">" then return .done (param :: found).reverse
    silently (mark ",")
    return .again ({ param with comma := true } :: found)) ([] : List GenericParam)
  silently (mark ">")
  if !params.isEmpty then
    record (angled (params.map fun p => ⟨p.kind == .lifetime, p.complete, p.comma⟩))
  return some params

/-- Whether a list of predicates or bounds ends here. -/
def seesPredicateEnd : Parser Bool := do
  if ← atEnd then return true
  if ← seesAny [.group .brace, .mark ",", .mark ";", .mark "="] then return true
  return (← seesMark ":") && !(← seesMark "::")

/-- Whether the bounds of a lifetime end here. -/
def seesLifetimeBoundsEnd : Parser Bool := do
  if ← atEnd then return true
  seesAny [.group .brace, .mark ",", .mark ";", .mark ":", .mark "="]

/-- Read a predicate of a where clause. -/
def predicate (g : Nonterminals) : Parser Unit := do
  if (← sees .lifetime) && (← seesSecond (.mark ":")) then
    lifetime
    mark ":"
    boundsUntil seesLifetimeBoundsEnd lifetime
  else
    let _ ← binder g
    anyType g
    mark ":"
    boundsUntil seesPredicateEnd (paramBound g)

/-- Read a where clause: the tokens of its predicates. Without any it has no transcript. -/
def whereClause (g : Nonterminals) : Parser (List (List TokenTree)) :=
  omittedIf List.isEmpty do
    word "where"
    if ← seesDeclaration then complain .parametersOnWhere
    repeated (fun found => do
      if ← seesPredicateEnd then return .done found.reverse
      let (_, tokens) ← captured (predicate g)
      record tokens
      if ← optionalMark "," then return .again (tokens :: found)
      return .done (tokens :: found).reverse) []

/-- Read a where clause, if there is one, and say whether there is. -/
def optionalWhere (g : Nonterminals) : Parser (Option (List (List TokenTree))) := do
  if ← seesWord "where" then return some (← whereClause g)
  return none

end DescriptionLookup.Grammar
