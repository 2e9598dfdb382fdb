import DescriptionLookup.Grammar.Type

/-!
# Reading patterns
-/

namespace DescriptionLookup.Grammar

open Grammar.Parser

/-- What a pattern may begin with. -/
def patternBeginnings : List Expected :=
  [.identifier, .mark "::", .mark "<", .word "_", .literal, .word "const", .word "ref", .word "mut",
    .mark "&", .group .parenthesis, .group .bracket, .mark "..", .word "const"]

/-- What a range may begin or end with in a pattern. -/
def rangeEndBeginnings : List Expected :=
  [.literal, .identifier, .mark "::", .mark "<", .word "self", .word "Self", .word "super",
    .word "crate", .word "const"]

/-- Whether a single bar comes next, which separates alternatives. -/
def seesBar : Parser Bool := do
  return (← seesMark "|") && !(← seesMark "||") && !(← seesMark "|=")

/-- Read a pattern with alternatives. -/
def alternatives (g : Nonterminals) : Parser PatternShape := do
  let leading ← optionalMark "|"
  let shape ← g.pattern
  repeated (fun shape => do
    if ← seesBar then
      mark "|"
      let _ ← g.pattern
      return .again .other
    return .done shape) (if leading then .other else shape)

/-- Read alternatives with commas between them, until no tree is left. -/
def alternativesList (g : Nonterminals) : Parser Unit := do
  let _ ← commaSeparated (alternatives g)

/-! ### Ranges -/

/-- The dots of a range: whether they include the end. -/
def rangeDots : Parser Bool := do
  if ← seesMark "..=" then
    mark "..="
    return true
  if ← seesMark "..." then missing (.mark "..=")
  if ← seesMark ".." then
    mark ".."
    return false
  missing (.mark "..")

/-- The dots of a range in a pattern, where three dots mean the same as `..=`. -/
def patternDots : Parser Bool := do
  let pos ← here
  if ← seesMark "..." then
    silently (mark "...")
    record (operatorTokens pos "..=".toList)
    return true
  rangeDots

/-- Whether a range pattern ends without an end. -/
def seesRangeStop : Parser Bool := do
  if ← atEnd then return true
  if ← seesAny [.mark "|", .mark "=", .mark ",", .mark ";", .word "if"] then return true
  return (← seesMark ":") && !(← seesMark "::")

/-- Read the end of a range pattern and say whether there is one. -/
def rangeEnd (g : Nonterminals) : Parser Bool := do
  if ← seesRangeStop then return false
  if ← sees .literal then
    let _ ← literal
    return true
  if ← seesAny [.identifier, .mark "::", .mark "<", .word "self", .word "Self", .word "super",
      .word "crate"] then
    let _ ← qualifiedPath g true
    return true
  if ← seesWord "const" then
    word "const"
    block g
    return true
  missingOneOf rangeEndBeginnings

/-- Read a range pattern from behind its beginning. -/
def rangeFromDots (g : Nonterminals) : Parser PatternShape := do
  let pos ← here
  let closed ← patternDots
  if ← rangeEnd g then return .range none
  if closed then missing .upperBound
  return .range (some pos)

/-- Read a range pattern without a beginning, or two dots alone. -/
def rangeWithoutBeginning (g : Nonterminals) : Parser PatternShape := do
  let pos ← here
  let closed ← rangeDots
  if ← rangeEnd g then return .range (some pos)
  if closed then missing .upperBound
  return .rest

/-! ### Members of structs -/

/-- Whether an exponent has a sign, or digits and perhaps a suffix behind them. -/
def isExponent (valued : Bool) : List Char → Bool
  | [] => valued
  | c :: rest =>
    if c == '+' || c == '-' then true
    else if c.isDigit then isExponent true rest
    else if c == '_' then isExponent valued rest
    else valued

/-- Whether a number goes on with a point or an exponent. -/
def isFraction : List Char → Bool
  | [] => false
  | c :: rest =>
    if c.isDigit || c == '_' then isFraction rest
    else if c == '.' then true
    else (c == 'e' || c == 'E') && isExponent false rest

/-- The base of a number and its digits, with a suffix behind them. -/
def baseAndDigits : List Char → Nat × List Char
  | '0' :: 'x' :: rest => (16, rest)
  | '0' :: 'o' :: rest => (8, rest)
  | '0' :: 'b' :: rest => (2, rest)
  | text => (10, text)

/-- A number without the minus sign that may stand before it. -/
def unsigned : List Char → List Char
  | '-' :: rest => rest
  | text => text

/-- Whether a literal is a number with a point or an exponent. -/
def isFloat (text : List Char) : Bool :=
  let digits := unsigned text
  digits.head?.any Char.isDigit && (baseAndDigits digits).1 == 10 && isFraction digits

/-- The value of digits in a base; low lines do not count. -/
def digitsValue? (base : Nat) (digits : List Char) : Option Nat :=
  digits.foldl (fun value c =>
    if c = '_' then value
    else
      match value, Text.hexDigit? c with
      | some n, some d => if d < base then some (n * base + d) else none
      | _, _ => none) (some 0)

/-- The numbers of fields are below this bound, so that they fit 32 bits. -/
def fieldIndexBound : Nat := 0x100000000

/-- The number of a field that a literal denotes: whole, without a suffix or sign, and below the
bound. -/
def fieldIndex (text : List Char) : Except Complaint Nat :=
  let number := unsigned text
  if !number.head?.any Char.isDigit || isFloat number then .error (.missing [.integerLiteral])
  else
    let (base, digits) := baseAndDigits number
    match digitsValue? base digits with
    | none => .error .suffixedInteger
    | some n =>
      if number.length < text.length then .error .signedInteger
      else if n < fieldIndexBound then .ok n
      else .error .integerTooLarge

/-- Record the number of a field that stood at a place. -/
def recordIndex (pos : Position) (text : List Char) : Parser Unit :=
  match fieldIndex text with
  | .ok n => record [.literal (toString n) pos]
  | .error complaint => complainAt pos complaint

/-- The number at the front of the trees with the sign before it, and the trees behind it. -/
def numberAhead? : List TokenTree → Option (List Char × List TokenTree)
  | .literal text _ :: rest => if isNumber text then some (text.toList, rest) else none
  | .mark '-' _ _ :: .literal text _ :: rest =>
    if isNumber text then some ('-' :: text.toList, rest) else none
  | _ => none

/-- Read the name or number of a field, and say whether it is a name. -/
def member : Parser Bool := do
  if ← sees .identifier then
    let _ ← identifier
    return true
  match numberAhead? (← get).rest with
  | some (text, rest) =>
    if isFloat text then missingOneOf [.identifier, .integer]
    recordIndex (← here) text
    goOn rest
    return false
  | none => missingOneOf [.identifier, .integer]

/-- Read a field of a struct pattern. -/
def fieldPattern (g : Nonterminals) : Parser Unit := do
  let boxed ← optionalWord "box"
  let byRef ← optionalWord "ref"
  let mutable ← optionalWord "mut"
  if boxed || byRef || mutable then
    let _ ← identifier
  else
    let isName ← member
    if (← seesMark ":") || !isName then
      mark ":"
      let _ ← alternatives g

/-- Read the fields of a struct pattern from inside its braces. -/
def fieldPatterns (g : Nonterminals) : Parser Unit :=
  repeated (fun _ => do
    if ← atEnd then return .done ()
    let _ ← outerAttributes g
    if ← optionalMark ".." then return .done ()
    fieldPattern g
    if ← atEnd then return .done ()
    mark ","
    return .again ()) ()

/-! ### Patterns -/

/-- Read a pattern that begins with a path. -/
def pathPattern (g : Nonterminals) : Parser PatternShape := do
  let shape ← qualifiedPath g true
  let plain := shape.any (·.plain)
  if (← seesMark "!") && !(← seesMark "!=") && plain then
    mark "!"
    let _ ← anyGroup
    return .other
  if ← seesBraces then
    braces (fieldPatterns g)
    return .other
  if ← seesParentheses then
    parentheses (alternativesList g)
    return .other
  if ← seesMark ".." then rangeFromDots g
  else return .other

/-- Read a pattern that binds a name. -/
def namePattern (g : Nonterminals) : Parser PatternShape := do
  let _ ← optionalWord "ref"
  let _ ← optionalWord "mut"
  if ← seesWord "self" then word "self"
  else
    let _ ← identifier
  if ← optionalMark "@" then
    let _ ← g.pattern
  return .other

/-- Read a pattern in parentheses or a tuple of patterns. -/
def tuplePattern (g : Nonterminals) : Parser PatternShape := do
  parentheses (alternativesList g)
  return .other

/-- Read the patterns of a slice from inside its brackets. -/
def slicePatterns (g : Nonterminals) : Parser Unit := do
  let _ ← commaSeparated do
    match ← alternatives g with
    | .range (some pos) => complainAt pos .rangeInSlice
    | _ => pure ()

/-- Whether the next tree is a path and not a name. -/
def seesPathPattern : Parser Bool := do
  if ← sees .identifier then
    if (← seesSecond (.mark "::")) || (← seesSecond (.mark "!")) ||
        (← seesSecond (.group .brace)) || (← seesSecond (.group .parenthesis)) ||
        (← seesSecond (.mark "..")) then return true
  if (← seesWord "self") && (← seesSecond (.mark "::")) then return true
  seesAny [.mark "::", .mark "<", .word "Self", .word "super", .word "crate"]

/-- Read a pattern without alternatives. -/
def pattern (g : Nonterminals) : Parser PatternShape := do
  if ← seesPathPattern then pathPattern g
  else if ← optionalWord "_" then return .other
  else if ← seesWord "box" then
    verbatim do
      word "box"
      let _ ← g.pattern
    return .verbatim
  else if ← seesAny [.mark "-", .literal, .word "const"] then
    let _ ← rangeEnd g
    if ← seesMark ".." then rangeFromDots g
    else return .other
  else if ← seesAny [.word "ref", .word "mut", .word "self", .identifier] then namePattern g
  else if ← optionalMark "&" then
    let _ ← optionalWord "mut"
    let _ ← g.pattern
    return .other
  else if ← seesParentheses then tuplePattern g
  else if ← seesBrackets then
    brackets (slicePatterns g)
    return .other
  else if (← seesMark "..") && !(← seesMark "...") then rangeWithoutBeginning g
  else missingOneOf patternBeginnings

end DescriptionLookup.Grammar
