import DescriptionLookup.Grammar.Path

/-!
# Reading types
-/

namespace DescriptionLookup.Grammar

open Grammar.Parser

/-- What a type may begin with. -/
def typeBeginnings : List Expected :=
  [.word "for", .group .parenthesis, .word "fn", .word "unsafe", .word "extern", .identifier,
    .mark "::", .mark "<", .word "dyn", .group .bracket, .mark "*", .mark "&", .mark "!",
    .word "impl", .word "_", .lifetime]

/-- What a type may begin with behind the lifetimes that `for` introduces. -/
def boundTypeBeginnings : List Expected :=
  [.identifier, .word "fn", .word "unsafe", .word "extern", .word "super", .word "self",
    .word "Self", .word "crate"]

/-- Read a type, whatever it is. -/
def anyType (g : Nonterminals) : Parser Unit := do
  let _ ← g.type true

/-- Whether some bound is a trait, for constants or not. -/
def BoundKind.isTrait : BoundKind → Bool
  | .trait _ => true
  | _ => false

/-- Read the bounds of an object type that begins at a place. -/
def objectBounds (g : Nonterminals) (pos : Position) (plus : Bool) : Parser Bool := do
  let (kinds, trailing) ← boundList g plus false false
  if kinds.any BoundKind.isTrait then return kinds.length == 1 && !trailing
  complainAt pos .objectWithoutTrait

/-- Read an object type without `dyn`. -/
def bareObject (g : Nonterminals) (plus : Bool) : Parser TypeShape := do
  return .bareObject (← objectBounds g (← here) plus)

/-- Read further bounds, each behind a plus, and say whether there is none. -/
def moreBounds (g : Nonterminals) : Parser Bool :=
  repeated (fun none => do
    if ← optionalMark "+" then
      let _ ← g.bound false false
      return .again false
    return .done none) true

/-- Read further bounds, each behind a plus; the last plus may have none behind it. The answer says
whether there is neither. -/
def looseBounds (g : Nonterminals) : Parser Bool :=
  repeated (fun none => do
    if ← optionalMark "+" then
      if (← seesAnyWord) || (← seesAny [.mark "::", .mark "?", .lifetime,
          .group .parenthesis]) then
        let _ ← g.bound false false
        return .again false
      return .done false
    return .done none) true

/-! ### Parentheses -/

/-- What stands between the parentheses of a type. -/
inductive ParenthesizedType
  /-- A bound with a question mark. -/
  | relaxedBound
  /-- A type. -/
  | single (shape : TypeShape)
  /-- Nothing, a tuple, or bounds that begin with a lifetime. -/
  | other

/-- Read what stands between the parentheses of a type. -/
def insideParentheses (g : Nonterminals) : Parser ParenthesizedType := do
  if ← atEnd then return .other
  if ← sees .lifetime then
    let _ ← bareObject g true
    return .other
  if ← seesMark "?" then
    let _ ← traitBound g false
    return .relaxedBound
  let first ← g.type true
  if ← optionalMark "," then
    let _ ← commaSeparated (g.type true)
    return .other
  return .single first

/-- A bound in parentheses without further parentheses inside them. -/
def withoutInnerParentheses : TokenTree → TokenTree
  | .group .parenthesis [.group .parenthesis content _ _] opened closed =>
    .group .parenthesis content opened closed
  | tree => tree

/-- Read what follows a type in parentheses, and say whether it was a bound with further bounds
behind it. -/
def behindParentheses (g : Nonterminals) (plus : Bool) (inside : ParenthesizedType) :
    Parser (Option Bool) := do
  match inside with
  | .relaxedBound => return some (← moreBounds g)
  | .single (.path _) | .single (.bareObject true) =>
    if plus && (← seesMark "+") then return some (← moreBounds g)
    return none
  | _ => return none

/-- Read a type that begins with parentheses. A bound that others follow has one pair of them. -/
def parenthesizedType (g : Nonterminals) (plus : Bool) : Parser TypeShape := do
  let ((inside, left), tokens) ← captured (openGroup .parenthesis (insideParentheses g))
  let (alone, behind) ← captured (behindParentheses g plus inside)
  record ((if behind.isEmpty then tokens else tokens.map withoutInnerParentheses) ++ behind)
  remember left
  match alone with
  | some alone => return .bareObject alone
  | none => return .other

/-! ### Functions -/

/-- Read the convention of a function: `extern` and perhaps a string. -/
def convention : Parser Unit := do
  word "extern"
  if ← sees .stringLiteral then
    let _ ← literal

/-- Read the convention of a function, if it has one. -/
def optionalConvention : Parser Unit := do
  if ← seesWord "extern" then convention

/-- Whether a name or a low line comes next. -/
def seesName : Parser Bool := seesAny [.identifier, .word "_"]

/-- Whether a single colon comes behind the next tree. -/
def seesSecondColon : Parser Bool := do
  return (← seesSecond (.mark ":")) && !(← seesSecond (.mark "::"))

/-- Whether the dots of a variable argument list come next, perhaps behind a name. -/
def seesVariadic : Parser Bool := do
  if ← seesMark "..." then return true
  return (← seesName) && (← seesSecond (.mark ":")) && (← seesThird (.mark "..."))

/-- Whether a mutable receiver comes next. -/
def seesMutableSelf : Parser Bool := do
  return (← seesWord "mut") && (← seesSecond (.word "self"))

/-- Read an argument of a function type; the first may be the receiver. One with a mutable receiver
is kept as it is spelled. -/
def functionTypeArgument (g : Nonterminals) (first : Bool) : Parser Unit := do
  let _ ← verbatimIf (fun irregular => irregular) do
    let mutable := first && (← seesMutableSelf)
    if mutable then word "mut"
    let receives := first && (← seesWord "self")
    let named := ((← seesName) || receives) && (← seesSecondColon)
    if named then
      let _ ← anyWord
      mark ":"
    if first && !(named && receives) && (← seesMutableSelf) then
      word "mut"
      word "self"
      return true
    if mutable && !named then word "self"
    else anyType g
    return mutable

/-- Read the arguments of a function type from inside their parentheses. -/
def functionTypeArguments (g : Nonterminals) : Parser Unit :=
  repeated (fun first => do
    if ← atEnd then return .done ()
    let _ ← outerAttributes g
    if ← seesVariadic then
      if ← seesName then
        let _ ← anyWord
        mark ":"
      mark "..."
      let _ ← optionalMark ","
      return .done ()
    functionTypeArgument g first
    if ← atEnd then return .done ()
    mark ","
    return .again false) true

/-- Read a function type from behind the lifetimes it introduces. -/
def functionType (g : Nonterminals) : Parser TypeShape := do
  let _ ← optionalWord "unsafe"
  optionalConvention
  word "fn"
  let (_, left) ← openGroup .parenthesis (functionTypeArguments g)
  resultType g false
  remember left
  return .other

/-! ### Types -/

/-- Read what only a compiler's own library may use: a name and tokens for it. -/
def builtin : Parser Unit := do
  word "builtin"
  mark "#"
  let _ ← identifier
  parentheses everything

/-- Read a type that begins with a path. `introduced` holds the lifetimes that `for` introduced in
front of it, if it did; an invocation does not keep them. -/
def pathType (g : Nonterminals) (introduced : List TokenTree) (plus : Bool) :
    Parser TypeShape := do
  let (shape, tokens) ← captured (qualifiedPath g false)
  if (← seesMark "!") && !(← seesMark "!=") && shape.any (·.plain) then
    record tokens
    mark "!"
    let _ ← anyGroup
    return .other
  record (introduced ++ tokens)
  let some shape := shape | return .other
  if !introduced.isEmpty || (plus && (← seesMark "+")) then
    let alone ← if plus then looseBounds g else pure true
    return .bareObject alone
  return .path shape

/-- Read a type from behind the lifetimes that `for` introduced in front of it. -/
def typeBehind (g : Nonterminals) (introduced : List TokenTree) (plus : Bool) :
    Parser TypeShape := do
  if ← seesAny [.word "fn", .word "unsafe", .word "extern"] then
    record introduced
    functionType g
  else if (← seesWord "builtin") && (← seesSecond (.mark "#")) then
    builtin
    return .builtin
  else if ← seesAny [.identifier, .word "super", .word "self", .word "Self", .word "crate",
      .mark "::", .mark "<"] then
    pathType g introduced plus
  else if ← seesParentheses then parenthesizedType g plus
  else if ← seesWord "dyn" then
    let pos ← here
    let _ ← verbatimIf (fun starred => starred) do
      word "dyn"
      let starred ← optionalMark "*"
      let _ ← objectBounds g pos plus
      return starred
    return .other
  else if ← seesBrackets then
    brackets do
      anyType g
      if ← optionalMark ";" then
        let _ ← g.expression true
    return .other
  else if ← optionalMark "*" then
    if !(← optionalWord "const") && !(← optionalWord "mut") then
      missingOneOf [.word "const", .word "mut"]
    let _ ← g.type false
    return .other
  else if ← optionalMark "&" then
    let _ ← optionalLifetime
    let _ ← optionalWord "mut"
    let _ ← g.type false
    return .other
  else if ← optionalMark "!" then return .other
  else if ← seesWord "impl" then
    let pos ← here
    word "impl"
    let (kinds, _) ← boundList g plus true true
    if kinds.any BoundKind.isTrait then return .other
    complainAt pos .opaqueWithoutTrait
  else if ← optionalWord "_" then return .other
  else if ← sees .lifetime then bareObject g true
  else missingOneOf typeBeginnings

/-- Whether a type is one that only a compiler's own library may use. -/
def TypeShape.isBuiltin : TypeShape → Bool
  | .builtin => true
  | _ => false

/-- Read a type. -/
def type (g : Nonterminals) (plus : Bool) : Parser TypeShape :=
  verbatimIf TypeShape.isBuiltin do
    let (binds, introduced) ← captured (binder g)
    if binds && !(← seesAny boundTypeBeginnings) then missingOneOf boundTypeBeginnings
    typeBehind g introduced plus

end DescriptionLookup.Grammar
