import DescriptionLookup.Grammar.Attribute

/-!
# Reading paths with arguments, and bounds

The segments of a path may have arguments in angle brackets: in a type directly behind the name, in
an expression behind `::`. In the bound by a trait, and nowhere else, the last segment may have
arguments in parentheses instead. A bound is a lifetime, a trait, or the list of parameters that a
hidden type captures.
-/

namespace DescriptionLookup.Grammar

open Grammar.Parser

/-- Read a bound of a parameter. -/
def paramBound (g : Nonterminals) : Parser Unit := do
  let _ ← g.bound false true

/-! ### Generic parameters -/

/-- Read bounds with plus signs between them until something in `stops` comes next; nothing needs to
stand between the colon and the stop, or behind the last plus. -/
def boundsUntil (stops : Parser Bool) (bound : Parser Unit) : Parser Unit :=
  repeated (fun _ => do
    if ← stops then return .done ()
    bound
    if ← optionalMark "+" then return .again ()
    return .done ()) ()

/-- A type parameter from behind its attributes. -/
def typeParam (g : Nonterminals) (attributes : List TokenTree) :
    Parser GenericParam := do
  let (_, name) ← captured identifier
  let (bounded, colon) ← captured (optionalMark ":")
  let (_, bounds) ← captured do
    if bounded then
      boundsUntil (do if ← atEnd then return true else seesAny [.mark ",", .mark ">", .mark "="])
        (paramBound g)
  let (_, default) ← captured do
    if ← optionalMark "=" then
      let _ ← g.type true
  return { kind := .type, attributes, name,
           bounds := if bounds.isEmpty then [] else colon ++ bounds, default, comma := false }

/-- A lifetime parameter from behind its attributes. -/
def lifetimeParam (attributes : List TokenTree) : Parser GenericParam := do
  let (_, name) ← captured lifetime
  let (bounded, colon) ← captured (optionalMark ":")
  let (_, bounds) ← captured do
    if bounded then
      boundsUntil (do if ← atEnd then return true else seesAny [.mark ",", .mark ">"]) lifetime
  return { kind := .lifetime, attributes, name,
           bounds := if bounds.isEmpty then [] else colon ++ bounds, default := [],
           comma := false }

/-- Read a block: a group in braces with attributes and statements. -/
def block (g : Nonterminals) : Parser Unit :=
  braces do
    let _ ← innerAttributes g
    g.statements

/-- Read a constant that stands for a generic parameter. -/
def constArgument (g : Nonterminals) : Parser Unit := do
  if ← sees .literal then
    let _ ← literal
  else if ← sees .identifier then
    let _ ← identifier
  else if ← seesBraces then block g
  else complain (.missing [])

/-- A constant parameter from behind its attributes. -/
def constParam (g : Nonterminals) (attributes : List TokenTree) : Parser GenericParam := do
  silently (word "const")
  let (_, name) ← captured identifier
  let (_, bounds) ← captured do
    mark ":"
    let _ ← g.type true
  let (_, default) ← captured do
    if ← optionalMark "=" then constArgument g
  return { kind := .const, attributes, name, bounds, default, comma := false }

/-- Read a generic parameter, without a transcript. -/
def genericParam (g : Nonterminals) : Parser GenericParam := do
  let (_, attributes) ← captured (outerAttributes g)
  if ← sees .identifier then typeParam g attributes
  else if ← sees .lifetime then lifetimeParam attributes
  else if ← seesWord "const" then constParam g attributes
  else missingOneOf [.identifier, .lifetime, .word "const"]

/-- Read the lifetimes that a bound or function type introduces with `for`, if it does, and say
whether it does. -/
def binder (g : Nonterminals) : Parser Bool := do
  if ← optionalWord "for" then
    mark "<"
    repeated (fun _ => do
      if ← seesMark ">" then return .done ()
      record (← genericParam g).complete
      if ← seesMark ">" then return .done ()
      mark ","
      return .again ()) ()
    mark ">"
    return true
  return false

/-! ### Arguments -/

/-- Read a generic argument and say whether it is a lifetime. -/
def genericArgument (g : Nonterminals) : Parser Bool := do
  if (← sees .lifetime) && !(← seesSecond (.mark "+")) then
    lifetime
    return true
  if ← seesAny [.literal, .group .brace] then
    constArgument g
    return false
  match ← g.type true with
  | .path shape =>
    if !shape.path.absolute && shape.path.segments.length == 1 then
      if ← optionalMark "=" then
        if ← seesAny [.literal, .group .brace] then constArgument g
        else
          let _ ← g.type true
      else if ← optionalMark ":" then
        boundsUntil (seesAny [.mark ",", .mark ">"]) (paramBound g)
    return false
  | _ => return false

/-- Read generic arguments in angle brackets, and count them. -/
def angleArguments (g : Nonterminals) : Parser Nat := do
  silently (mark "<")
  let entries ← repeated (fun found => do
    if ← seesMark ">" then return .done found.reverse
    let (isLifetime, tokens) ← captured (genericArgument g)
    if ← seesMark ">" then return .done (⟨isLifetime, tokens, false⟩ :: found).reverse
    silently (mark ",")
    return .again (⟨isLifetime, tokens, true⟩ :: found)) ([] : List AngleEntry)
  silently (mark ">")
  record (angled entries)
  return entries.length

/-- Read the result type of a function, if it has one. -/
def resultType (g : Nonterminals) (plus : Bool) : Parser Unit := do
  if ← optionalMark "->" then
    let _ ← g.type plus

/-- Read arguments in parentheses and a result type. -/
def parenthesizedArguments (g : Nonterminals) : Parser Unit := do
  parentheses do
    let _ ← commaSeparated (g.type true)
  resultType g false

/-! ### Paths -/

/-- The keywords that are segments of their own and have no arguments. -/
def bareSegments : List String := ["super", "self", "crate", "try"]

/-- Read a segment of a path: its name, and the number of its arguments if it lists them. -/
def segment (g : Nonterminals) (inExpression : Bool) : Parser (String × Option Nat) := do
  if ← seesAny (bareSegments.map .word) then
    return (← anyWord, none)
  let name ← if ← seesWord "Self" then anyWord else identifier
  if !inExpression && (← seesMark "<") && !(← seesMark "<=") && !(← seesMark "<<=") then
    return (name, some (← angleArguments g))
  if (← seesMark "::") && (← seesThird (.mark "<")) then
    mark "::"
    return (name, some (← angleArguments g))
  return (name, none)

/-- A path with one more segment. -/
def PathShape.snoc (shape : PathShape) (name : String) (arguments : Option Nat) : PathShape where
  path := { shape.path with segments := shape.path.segments ++ [name] }
  plain := shape.plain && arguments.isNone
  arguments := arguments

/-- Read a path. -/
def path (g : Nonterminals) (inExpression : Bool) : Parser PathShape := do
  let absolute ← optionalMark "::"
  let (name, arguments) ← segment g inExpression
  repeated (fun shape => do
    if (← seesMark "::") && !(← seesThird (.group .parenthesis)) then
      mark "::"
      let (name, arguments) ← segment g inExpression
      return .again (shape.snoc name arguments)
    return .done shape) ⟨⟨absolute, [name]⟩, arguments.isNone, arguments⟩

/-- Read a path that may be qualified by a type in angle brackets; the answer is `none` if it is. -/
def qualifiedPath (g : Nonterminals) (inExpression : Bool) :
    Parser (Option PathShape) := do
  if ← optionalMark "<" then
    let _ ← g.type true
    if ← optionalWord "as" then
      let _ ← path g false
    mark ">"
    mark "::"
    repeated (fun _ => do
      let _ ← segment g inExpression
      if ← optionalMark "::" then return .again ()
      return .done ()) ()
    return none
  return some (← path g inExpression)

/-! ### Bounds -/

/-- Read a parameter that a hidden type captures, and say whether it is a lifetime. -/
def capturedParam : Parser Bool := do
  if ← optionalLifetime then return true
  if (← sees .identifier) || (← seesWord "Self") then
    let _ ← anyWord
    return false
  missingOneOf [.lifetime, .identifier, .mark ">"]

/-- Read the parameters that a hidden type captures. -/
def capturedParams : Parser Unit := do
  word "use"
  silently (mark "<")
  let entries ← repeated (fun found => do
    if ← seesMark ">" then return .done found.reverse
    let (isLifetime, tokens) ← captured capturedParam
    if ← silently (optionalMark ",") then return .again (⟨isLifetime, tokens, true⟩ :: found)
    if ← seesMark ">" then return .done (⟨isLifetime, tokens, false⟩ :: found).reverse
    missingOneOf [.mark ",", .mark ">"]) ([] : List AngleEntry)
  silently (mark ">")
  record (angled entries)

/-- Read the word that makes a trait bound one for constants, in brackets or bare, and say whether
there is one. -/
def constModifier (constants : Bool) : Parser Bool := do
  let pos ← here
  if ← seesBrackets then
    brackets (word "const")
    if constants then return true
    complainAt pos .conditionalConstNotAllowed
  if ← optionalWord "const" then
    if constants then return true
    complainAt pos .constNotAllowed
  return false

/-- The tokens of a path without the empty list of arguments at its end. -/
def withoutEmptyArguments (tokens : List TokenTree) : List TokenTree :=
  (tokens.reverse.dropWhile TokenTree.isPunctuation).reverse

/-- Read the path of a trait; arguments in parentheses may stand behind it, and take the place of an
empty list of arguments in angle brackets. -/
def traitPath (g : Nonterminals) : Parser Unit := do
  let (shape, tokens) ← captured (path g false)
  if shape.arguments.getD 0 = 0 && (← seesPathParentheses) then
    record (withoutEmptyArguments tokens)
    let _ ← silently (optionalMark "::")
    parenthesizedArguments g
  else record tokens

/-- Read a trait bound, and say whether it is one for constants. -/
def traitBound (g : Nonterminals) (constants : Bool) : Parser Bool := do
  let binds ← binder g
  let forConst ← constModifier constants
  let pos ← here
  let relaxed ← optionalMark "?"
  let binds ← if relaxed && !binds then binder g else pure binds
  traitPath g
  if binds && relaxed then complainAt pos .binderWithModifier
  return forConst

/-- Read a bound. A bound for constants is kept as it is spelled. -/
def bound (g : Nonterminals) (captures constants : Bool) : Parser BoundKind := do
  if ← sees .lifetime then
    lifetime
    return .lifetime
  if ← seesWord "use" then
    let pos ← here
    capturedParams
    if captures then return .capture
    complainAt pos .captureNotAllowed
  let forConst ← verbatimIf (fun forConst => forConst) do
    if ← seesParentheses then parentheses (traitBound g constants)
    else traitBound g constants
  return .trait forConst

/-- Read bounds with plus signs between them, and say whether a plus follows the last; without
`plus`, read one bound. -/
def boundList (g : Nonterminals) (plus captures constants : Bool) :
    Parser (List BoundKind × Bool) :=
  repeated (fun found => do
    let kind ← g.bound captures constants
    if !(plus && (← seesMark "+")) then return .done ((kind :: found).reverse, false)
    mark "+"
    if (← seesAnyWord) || (← seesAny [.mark "::", .mark "?", .lifetime, .group .parenthesis]) ||
        (constants && (← seesBrackets)) then
      return .again (kind :: found)
    return .done ((kind :: found).reverse, true)) []

end DescriptionLookup.Grammar
