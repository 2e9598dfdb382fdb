import DescriptionLookup.Grammar.Expression

/-!
# Reading statements

A statement is an item, a declaration of variables, an invocation with braces, or an expression. An
expression that does not end in a block needs a semicolon unless it is the last of its block.
-/

namespace DescriptionLookup.Grammar

open Grammar.Parser

/-- How a statement that begins with the name of a rule goes on. -/
inductive InvocationStart
  /-- The invocation has a name of its own, and so is an item. -/
  | item
  /-- The invocation has braces, and nothing behind them makes it an operand. -/
  | statement
  | expression

/-- Look at a statement that may begin with the name of a rule. -/
def invocationStart : Parser InvocationStart := do
  let start ← lookAhead do
    let _ ← plainPath
    if !(← seesMark "!") then return .expression
    if (← seesSecond .identifier) || (← seesSecond (.word "try")) then return .item
    if !(← seesSecond (.group .brace)) then return .expression
    if (← seesThird (.mark "?")) || ((← seesThird (.mark ".")) && !(← seesThird (.mark ".."))) then
      return .expression
    return .statement
  return start.getD .expression

/-- Whether a constant is declared here, and no closure or block begins. -/
def seesConstItem : Parser Bool := do
  if !(← seesWord "const") then return false
  if (← seesSecond (.group .brace)) || (← seesSecond (.word "static")) ||
      (← seesSecond (.word "move")) || (← seesSecond (.mark "|")) then return false
  if ← seesSecond (.word "async") then
    return (← seesThird (.word "unsafe")) || (← seesThird (.word "extern")) ||
      (← seesThird (.word "fn"))
  return true

/-- Whether an item begins here. -/
def seesItem : Parser Bool := do
  if ← seesAny [.word "pub", .word "extern", .word "use", .word "fn", .word "mod", .word "type",
      .word "struct", .word "enum", .word "trait", .word "impl", .word "macro"] then return true
  if (← seesWord "crate") && !(← seesSecond (.mark "::")) then return true
  if (← seesWord "static") && ((← seesSecond (.word "mut")) || (← seesSecond .identifier)) then
    return true
  if ← seesConstItem then return true
  if (← seesWord "unsafe") && !(← seesSecond (.group .brace)) then return true
  if (← seesWord "async") && ((← seesSecond (.word "unsafe")) || (← seesSecond (.word "extern")) ||
      (← seesSecond (.word "fn"))) then return true
  if (← seesWord "union") && (← seesSecond .identifier) then return true
  if (← seesWord "auto") && (← seesSecond (.word "trait")) then return true
  return (← seesWord "default") &&
    ((← seesSecond (.word "unsafe")) || (← seesSecond (.word "impl")))

/-- Read the declaration of variables. -/
def letStatement (g : Nonterminals) : Parser Unit := do
  word "let"
  let _ ← g.pattern
  if ← optionalMark ":" then anyType g
  if ← optionalMark "=" then
    anyExpression g
    let braced := (← get).read.head?.any TokenTree.isBraceGroup
    if !braced && (← seesWord "else") then
      word "else"
      braces g.statements
  mark ";"

/-- Whether an expression needs a semicolon behind it to be a statement. -/
def needsSemicolon : Expression.Shape → Bool
  | .block => false
  | .invocation braced => !braced
  | _ => true

/-- Read a statement, and say whether another one cannot follow it. -/
def statement (g : Nonterminals) : Parser Bool := do
  let start ← get
  let _ ← outerAttributes g
  match ← invocationStart with
  | .statement =>
    let _ ← plainPath
    mark "!"
    let _ ← anyGroup
    let _ ← optionalMark ";"
    return false
  | .item =>
    set start
    let _ ← g.item
    return false
  | .expression =>
    if ← seesWord "let" then
      letStatement g
      return false
    if ← seesItem then
      set start
      let _ ← g.item
      return false
    set start
    let shape ← g.standalone true
    if ← optionalMark ";" then return false
    return needsSemicolon shape

/-- Read the statements of a block. -/
def statements (g : Nonterminals) : Parser Unit :=
  repeated (fun _ => do
    if ← optionalMark ";" then return .again ()
    if ← atEnd then return .done ()
    let last ← statement g
    if ← atEnd then return .done ()
    if last then complain .statementNotEnded
    return .again ()) ()

end DescriptionLookup.Grammar
