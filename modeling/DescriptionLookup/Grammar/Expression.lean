import DescriptionLookup.Grammar.Generics
import DescriptionLookup.Grammar.Pattern

/-!
# Reading expressions

Operators are read by precedence: `operators` takes the operators behind a left operand as long as
they bind tightly enough, and a right operand takes those that bind more tightly than the operator
before it. A range is no left operand, and comparisons are not chained.
-/

namespace DescriptionLookup.Grammar

open Grammar.Parser

/-- Read an expression, whatever it is. -/
def anyExpression (g : Nonterminals) : Parser Unit := do
  let _ ← g.expression true

/-! ### Binary operators -/

/-- The binary operators, longer ones before those they begin with. -/
def binaryOperators : List (String × Precedence) :=
  [("<<=", .assign), (">>=", .assign), ("+=", .assign), ("-=", .assign), ("*=", .assign),
    ("/=", .assign), ("%=", .assign), ("^=", .assign), ("&=", .assign), ("|=", .assign),
    ("&&", .and), ("||", .or), ("<<", .shift), (">>", .shift), ("==", .compare), ("<=", .compare),
    ("!=", .compare), (">=", .compare), ("+", .sum), ("-", .sum), ("*", .product), ("/", .product),
    ("%", .product), ("^", .bitXor), ("&", .bitAnd), ("|", .bitOr), ("<", .compare),
    (">", .compare)]

/-- The binary operator that comes next. -/
def seesBinary : Parser (Option (String × Precedence)) := do
  let rest := (← get).rest
  return binaryOperators.find? fun (text, _) => (Expected.mark text).begins rest

/-- Whether an equals sign comes next that assigns. -/
def seesAssignment : Parser Bool := do
  return (← seesMark "=") && !(← seesMark "=>")

/-- How tightly the operator binds that comes next. -/
def nextPrecedence : Parser Precedence := do
  match ← seesBinary with
  | some (_, precedence) => return precedence
  | none =>
    if ← seesAssignment then return .assign
    if ← seesMark ".." then return .range
    if ← seesWord "as" then return .cast
    return .jump

/-- Read the right operand of an operator. -/
def rightOperand (g : Nonterminals) (structs : Bool) (precedence : Precedence) :
    Parser Expression.Shape := do
  let first ← g.operand structs
  repeated (fun shape => do
    let next ← nextPrecedence
    if precedence.rank < next.rank || (next == .assign && precedence == .assign) then
      let before := (← get).rest.length
      let shape ← g.operators structs shape next
      if (← get).rest.length = before then return .done shape
      return .again shape
    return .done shape) first

/-- Whether a range ends without an end. -/
def seesOpenEnd (structs : Bool) : Parser Bool := do
  if ← atEnd then return true
  if (← seesMark ".") && !(← seesMark "..") then return true
  if !structs && (← seesBraces) then return true
  seesAny [.mark ",", .mark ";", .mark "?", .mark "=>", .mark "=", .mark "+", .mark "/", .mark "%",
    .mark "^", .mark ">", .mark "<=", .mark "!=", .mark "-=", .mark "*=", .mark "&=", .mark "|=",
    .mark "<<=", .word "as"]

/-- Read the dots and the end of a range. -/
def rangeTail (g : Nonterminals) (structs : Bool) : Parser Unit := do
  let closed ← rangeDots
  if !closed && (← seesOpenEnd structs) then return ()
  let _ ← rightOperand g structs .range

/-- What comes behind a cast and needs the cast in parentheses. -/
def castFollower? : Parser (Option CastFollower) := do
  if (← seesMark ".") && !(← seesMark "..") then
    if ← seesSecond (.word "await") then return some .await
    if (← seesSecond .identifier) &&
        ((← seesThird (.group .parenthesis)) || (← seesThird (.mark "::"))) then
      return some .methodCall
    return some .fieldAccess
  if ← seesMark "?" then return some .question
  if ← seesBrackets then return some .indexing
  if ← seesParentheses then return some .call
  return none

/-- Read the operators behind a left operand that bind at least as tightly as `base`. -/
def operators (g : Nonterminals) (structs : Bool) (left : Expression.Shape) (base : Precedence) :
    Parser Expression.Shape :=
  repeated (fun left => do
    if let .range := left then return .done left
    match ← seesBinary with
    | some (text, precedence) =>
      if precedence.rank < base.rank then return .done left
      if let (.comparison, .compare) := (left, precedence) then complain .chainedComparison
      mark text
      let _ ← rightOperand g structs precedence
      return .again (if precedence == .compare then .comparison else .other)
    | none =>
      if base.rank ≤ Precedence.assign.rank && (← seesAssignment) then
        mark "="
        let _ ← rightOperand g structs .assign
        return .again .other
      if base.rank ≤ Precedence.range.rank && (← seesMark "..") then
        rangeTail g structs
        return .again .range
      if base.rank ≤ Precedence.cast.rank && (← seesWord "as") then
        word "as"
        let _ ← g.type false
        if let some follower ← castFollower? then complain (.castFollowedBy follower)
        return .again .other
      return .done left) left

/-! ### Control flow -/

/-- Whether an expression may begin here. -/
def seesExpression : Parser Bool := do
  if (← seesAnyWord) && !(← seesWord "as") then return true
  if ← seesAny [.group .parenthesis, .group .bracket, .group .brace, .literal, .mark "..",
      .mark "::", .lifetime, .mark "#"] then return true
  if (← seesMark "!") && !(← seesMark "!=") then return true
  if (← seesMark "-") && !(← seesMark "-=") && !(← seesMark "->") then return true
  if (← seesMark "*") && !(← seesMark "*=") then return true
  if (← seesMark "|") && !(← seesMark "|=") then return true
  if (← seesMark "&") && !(← seesMark "&=") then return true
  return (← seesMark "<") && !(← seesMark "<=") && !(← seesMark "<<=")

/-- Read a choice with all its alternatives. -/
def ifExpression (g : Nonterminals) : Parser Unit :=
  repeated (fun _ => do
    word "if"
    let _ ← g.expression false
    braces g.statements
    if ← optionalWord "else" then
      if ← seesWord "if" then return .again ()
      if ← seesBraces then
        braces g.statements
        return .done ()
      missingOneOf [.word "if", .group .brace]
    return .done ()) ()

/-- Read a loop over a condition, from behind its label. -/
def whileLoop (g : Nonterminals) : Parser Unit := do
  word "while"
  let _ ← g.expression false
  block g

/-- Read a loop over the elements of something, from behind its label. -/
def forLoop (g : Nonterminals) : Parser Unit := do
  word "for"
  let _ ← alternatives g
  word "in"
  let _ ← g.expression false
  block g

/-- Read a loop without an end of its own, from behind its label. -/
def endlessLoop (g : Nonterminals) : Parser Unit := do
  word "loop"
  block g

/-- Read an expression with a label. -/
def labeled (g : Nonterminals) : Parser Unit := do
  lifetime
  mark ":"
  if ← seesWord "while" then whileLoop g
  else if ← seesWord "for" then forLoop g
  else if ← seesWord "loop" then endlessLoop g
  else if ← seesBraces then block g
  else missing .loopOrBlock

/-- Read one arm of a match. -/
def arm (g : Nonterminals) : Parser Unit := do
  let _ ← outerAttributes g
  let _ ← alternatives g
  if ← optionalWord "if" then anyExpression g
  mark "=>"
  match ← g.standalone false with
  | .block =>
    let _ ← optionalMark ","
  | _ => if !(← atEnd) then mark ","

/-- Read a match. -/
def matchExpression (g : Nonterminals) : Parser Unit := do
  word "match"
  let _ ← g.expression false
  braces do
    let _ ← innerAttributes g
    let _ ← untilEnd (arm g)

/-- Read a jump out of a loop or block. -/
def breakExpression (g : Nonterminals) (structs : Bool) : Parser Unit := do
  word "break"
  let pos ← here
  if (← sees .lifetime) && (← seesSecond (.mark ":")) then
    anyExpression g
    complainAt pos .parenthesesRequired
  let _ ← optionalLifetime
  if (← seesExpression) && (structs || !(← seesBraces)) then anyExpression g

/-- Read a word that may have an expression behind it. -/
def withOperand (g : Nonterminals) (text : String) : Parser Unit := do
  word text
  if ← seesExpression then anyExpression g

/-! ### Closures -/

/-- A phrase in parentheses that stand at a place. -/
def inParentheses (pos : Position) (tokens : List TokenTree) : List TokenTree :=
  [.group .parenthesis tokens pos pos]

/-- Whether a pattern is a range. -/
def PatternShape.isRange : PatternShape → Bool
  | .range _ => true
  | _ => false

/-- Whether a pattern is kept as it is spelled. -/
def PatternShape.isVerbatim : PatternShape → Bool
  | .verbatim => true
  | _ => false

/-- Read an argument of a closure. Without a type, a range with attributes gets parentheses, and a
pattern that is kept as it is spelled loses its attributes. -/
def closureArgument (g : Nonterminals) : Parser Unit := do
  let pos ← here
  let (attributes, marks) ← captured (outerAttributes g)
  let (shape, tokens) ← captured g.pattern
  if ← seesMark ":" then
    record (marks ++ tokens)
    mark ":"
    anyType g
  else if shape.isRange && !attributes.isEmpty then
    record (marks ++ inParentheses pos tokens)
  else if shape.isVerbatim then record tokens
  else record (marks ++ tokens)

/-- Read a closure. -/
def closure (g : Nonterminals) (structs : Bool) : Parser Unit := do
  let _ ← binder g
  let _ ← optionalWord "const"
  let _ ← optionalWord "static"
  let _ ← optionalWord "async"
  let _ ← optionalWord "move"
  mark "|"
  repeated (fun _ => do
    if ← seesMark "|" then return .done ()
    closureArgument g
    if ← seesMark "|" then return .done ()
    mark ","
    return .again ()) ()
  mark "|"
  if ← optionalMark "->" then
    anyType g
    braces g.statements
  else
    let _ ← g.expression structs

/-! ### Paths, groups and literals -/

/-- Read a field of a struct expression. -/
def fieldValue (g : Nonterminals) : Parser Unit := do
  let _ ← outerAttributes g
  let isName ← member
  if (← seesMark ":") || !isName then
    mark ":"
    anyExpression g

/-- Read the fields of a struct expression from inside its braces. -/
def fieldValues (g : Nonterminals) : Parser Unit :=
  repeated (fun _ => do
    if ← atEnd then return .done ()
    if ← optionalMark ".." then
      if !(← atEnd) then anyExpression g
      return .done ()
    fieldValue g
    if ← atEnd then return .done ()
    mark ","
    return .again ()) ()

/-- Read an expression that begins with a path. -/
def pathExpression (g : Nonterminals) (structs : Bool) : Parser Expression.Shape := do
  let shape ← qualifiedPath g true
  let plain := shape.any (·.plain)
  if (← seesMark "!") && !(← seesMark "!=") && plain then
    mark "!"
    let (d, _) ← anyGroup
    return .invocation (d == .brace)
  if structs && (← seesBraces) then braces (fieldValues g)
  return .other

/-- Read expressions with commas between them. -/
def expressions (g : Nonterminals) : Parser Unit := do
  let _ ← commaSeparated (g.expression true)

/-- Read an array from inside its brackets. -/
def arrayExpression (g : Nonterminals) : Parser Unit := do
  if ← atEnd then return ()
  anyExpression g
  if ← optionalMark ";" then anyExpression g
  else if (← atEnd) || (← seesMark ",") then
    if ← optionalMark "," then expressions g
  else missingOneOf [.mark ",", .mark ";"]

/-- Whether a closure begins here. -/
def seesClosure : Parser Bool := do
  if ← seesAny [.mark "|", .word "move", .word "static"] then return true
  if (← seesWord "for") && (← seesDeclarationBehindWord) then return true
  if (← seesWord "const") && !(← seesSecond (.group .brace)) then return true
  return (← seesWord "async") && ((← seesSecond (.mark "|")) || (← seesSecond (.word "move")))

/-- Whether an asynchronous block begins here. -/
def seesAsyncBlock : Parser Bool := do
  if !(← seesWord "async") then return false
  if ← seesSecond (.group .brace) then return true
  return (← seesSecond (.word "move")) && (← seesThird (.group .brace))

/-- Whether a path begins here. -/
def seesPath : Parser Bool := do
  if ← seesAny [.identifier, .mark "::", .mark "<", .word "self", .word "Self", .word "super",
      .word "crate"] then return true
  return (← seesWord "try") && ((← seesSecond (.mark "!")) || (← seesSecond (.mark "::")))

/-- Read an expression that no operator belongs to. -/
def atom (g : Nonterminals) (structs : Bool) : Parser Expression.Shape := do
  if ← sees .literal then return literalShape (← literal)
  if ← seesAsyncBlock then
    word "async"
    let _ ← optionalWord "move"
    braces g.statements
    return .other
  if (← seesWord "try") && (← seesSecond (.group .brace)) then
    word "try"
    braces g.statements
    return .block
  if ← seesClosure then
    closure g structs
    return .other
  if (← seesWord "builtin") && (← seesSecond (.mark "#")) then
    verbatim builtin
    return .verbatim
  if ← seesPath then return ← pathExpression g structs
  if ← seesParentheses then
    parentheses (expressions g)
    return .other
  if ← seesWord "break" then
    breakExpression g structs
    return .other
  if ← optionalWord "continue" then
    let _ ← optionalLifetime
    return .other
  if ← seesWord "return" then
    withOperand g "return"
    return .other
  if ← seesWord "become" then
    verbatim do
      word "become"
      anyExpression g
    return .verbatim
  if ← seesBrackets then
    brackets (arrayExpression g)
    return .other
  if ← optionalWord "let" then
    let _ ← alternatives g
    mark "="
    let first ← g.operand structs
    let _ ← g.operators structs first .compare
    return .other
  if ← seesWord "if" then
    ifExpression g
    return .block
  if ← seesWord "while" then
    whileLoop g
    return .block
  if ← seesWord "for" then
    forLoop g
    return .block
  if ← seesWord "loop" then
    endlessLoop g
    return .block
  if ← seesWord "match" then
    matchExpression g
    return .block
  if ← seesWord "yield" then
    withOperand g "yield"
    return .other
  if ← optionalWord "unsafe" then
    block g
    return .block
  if ← optionalWord "const" then
    block g
    return .block
  if ← seesBraces then
    block g
    return .block
  if ← seesMark ".." then
    rangeTail g structs
    return .range
  if ← optionalWord "_" then return .other
  if ← sees .lifetime then
    labeled g
    return .block
  missing .expression

/-! ### Operators before and behind an operand -/

/-- The parts of a text between its points. -/
def splitPoints (text : List Char) : List (List Char) := text.splitOn '.'

/-- Read the numbers of fields that were written with a point between them and so look like one
number. The answer says whether a point stands behind the last. -/
def joinedIndices (text : List Char) (pos : Position) : Parser Bool := do
  let parts := splitPoints text
  let numbers := parts.filter fun part => !part.isEmpty
  let unfinished := parts.getLast?.any (·.isEmpty)
  repeatUpTo (fun numbers => do
    match numbers with
    | [] => return .done ()
    | [last] =>
      recordIndex pos last
      if unfinished then record [.mark '.' false pos]
      return .done ()
    | number :: rest =>
      recordIndex pos number
      record [.mark '.' false pos]
      return .again rest) (numbers.length + 1) numbers
  return unfinished

/-- Read a member or a call of a method, from behind the point. -/
def memberOrCall (g : Nonterminals) : Parser Unit := do
  if ← optionalWord "await" then return ()
  let isName ← member
  let turbofish := isName && (← seesMark "::")
  if turbofish then
    mark "::"
    let _ ← angleArguments g
  if turbofish || (isName && (← seesParentheses)) then parentheses (expressions g)

/-- Read what stands behind a point. -/
def behindPoint (g : Nonterminals) : Parser Unit := do
  match numberAhead? (← get).rest with
  | some (text, rest) =>
    if isFloat text then
      let pos ← here
      goOn rest
      if ← joinedIndices text pos then memberOrCall g
    else memberOrCall g
  | none => memberOrCall g

/-- Whether an expression is a range. -/
def isRange : Expression.Shape → Bool
  | .range => true
  | _ => false

/-- Whether an expression is kept as it is spelled. -/
def isVerbatim : Expression.Shape → Bool
  | .verbatim => true
  | _ => false

/-- Read the operators behind an operand. -/
def trailers (g : Nonterminals) (first : Expression.Shape) : Parser Expression.Shape :=
  repeated (fun shape => do
    if ← seesParentheses then
      parentheses (expressions g)
      return .again .other
    if (← seesMark ".") && !(← seesMark "..") && !isRange shape then
      mark "."
      behindPoint g
      return .again .other
    if ← seesBrackets then
      brackets (anyExpression g)
      return .again .other
    if (← seesMark "?") && !isRange shape then
      mark "?"
      return .again .other
    return .done shape) first

/-- Read an operand with the operators before and behind it. -/
def operand (g : Nonterminals) (structs : Bool) : Parser Expression.Shape :=
  verbatimIf isVerbatim do
    let attributes ← outerAttributes g
    if ← optionalMark "&" then
      if (← seesWord "raw") && ((← seesSecond (.word "mut")) || (← seesSecond (.word "const"))) then
        word "raw"
        if !(← optionalWord "mut") then word "const"
      else
        let _ ← optionalWord "mut"
      let _ ← g.operand structs
      return .other
    if ← seesAny [.mark "*", .mark "!", .mark "-"] then
      if !(← optionalMark "*") && !(← optionalMark "!") then mark "-"
      let _ ← g.operand structs
      return .other
    let pos ← here
    let shape ← trailers g (← atom g structs)
    if isRange shape && !attributes.isEmpty then complainAt pos .attributeOnRange
    return shape

/-- Read an expression. -/
def expression (g : Nonterminals) (structs : Bool) : Parser Expression.Shape := do
  g.operators structs (← g.operand structs) .jump

/-- Read an expression that ends in a block, if one begins here. -/
def blockExpression? (g : Nonterminals) : Parser Bool := do
  if ← seesWord "if" then ifExpression g
  else if ← seesWord "while" then whileLoop g
  else if (← seesWord "for") && !(← seesDeclarationBehindWord) then forLoop g
  else if ← seesWord "loop" then endlessLoop g
  else if ← seesWord "match" then matchExpression g
  else if (← seesWord "try") && (← seesSecond (.group .brace)) then
    word "try"
    braces g.statements
  else if ← optionalWord "unsafe" then block g
  else if (← seesWord "const") && (← seesSecond (.group .brace)) then
    word "const"
    block g
  else if ← seesBraces then block g
  else if ← sees .lifetime then labeled g
  else return false
  return true

/-- Read an expression as a statement or an arm has it. Its attributes belong to its first operand,
but those of a statement that is a range belong to the whole of it. A range that they belong to gets
parentheses; an operand that is kept as it is spelled keeps none, unless it is everything. -/
def standalone (g : Nonterminals) (statement : Bool) : Parser Expression.Shape :=
  verbatimIf isVerbatim do
    let (attributes, marks) ← captured (outerAttributes g)
    let marked (shape : Expression.Shape) : Bool := isRange shape && !attributes.isEmpty
    let pos ← here
    let ((first, shape), tokens) ← captured do
      if ← blockExpression? g then
        if ((← seesMark ".") && !(← seesMark "..")) || (← seesMark "?") then
          let first ← trailers g .block
          return (first, ← g.operators true first .jump)
        return (.block, .block)
      let (first, tokens) ← captured (operand g true)
      record (if !statement && marked first then inParentheses pos tokens else tokens)
      return (first, ← g.operators true first .jump)
    record (if isVerbatim first then [] else marks)
    record (if statement && marked shape then inParentheses pos tokens else tokens)
    return shape

end DescriptionLookup.Grammar
