import DescriptionLookup.Grammar.Fault
import DescriptionLookup.Token.Literal

/-!
# Reading token trees

A parser consumes token trees from the front and keeps a transcript of what it consumed. In the
transcript every operator stands apart: only the marks of one operator are joint, whatever stood
next to them in the text. Printing the transcript of a phrase therefore prints the phrase from its
structure and not from its spelling.

Running out of tokens is reported where the surrounding group closes, or at the start of the text.
Tokens that remain at the end of a group are no error at once: the first of them is remembered, and
counts when everything else was in order.
-/

namespace DescriptionLookup.Grammar

open Text

/-- The words that are no identifiers. -/
def reservedWords : List String :=
  ["_", "abstract", "as", "async", "await", "become", "box", "break", "const", "continue", "crate",
    "do", "dyn", "else", "enum", "extern", "false", "final", "fn", "for", "if", "impl", "in", "let",
    "loop", "macro", "match", "mod", "move", "mut", "override", "priv", "pub", "ref", "return",
    "Self", "self", "static", "struct", "super", "trait", "true", "try", "type", "typeof", "unsafe",
    "unsized", "use", "virtual", "where", "while", "yield"]

/-- Whether a word is an identifier: it is spelled as one, and not reserved. -/
def isIdentifier (word : String) : Bool :=
  !reservedWords.contains word && Token.isWord word.toList

/-- What the trees are after these punctuation marks without a gap. An apostrophe is no mark on its
own, only the beginning of a lifetime. -/
def afterMarks? : List Char → List TokenTree → Option (List TokenTree)
  | [c], .mark d _ _ :: rest => if c = d ∧ d ≠ '\x27' then some rest else none
  | c :: cs, .mark d true _ :: rest => if c = d ∧ d ≠ '\x27' then afterMarks? cs rest else none
  | _, _ => none

/-- The marks of one operator, joint with each other and with nothing else. -/
def operatorTokens (pos : Position) : List Char → List TokenTree
  | [] => []
  | [c] => [.mark c false pos]
  | c :: cs => .mark c true pos :: operatorTokens pos cs

/-- Whether a literal is a number that a minus sign may precede. -/
def isNumber (literal : String) : Bool := literal.toList.head?.any Char.isDigit

/-- Whether a literal denotes a text. -/
def isText (literal : String) : Bool :=
  match literal.toList with
  | '\x22' :: _ => true
  | 'r' :: _ => true
  | _ => false

/-- Whether something expected stands at the front of the trees. -/
def Expected.begins : Expected → List TokenTree → Bool
  | .word text, .word name _ :: _ => name == text
  | .mark text, trees => (afterMarks? text.toList trees).isSome
  | .identifier, .word name _ :: _ => isIdentifier name
  | .lifetime, .mark '\x27' true _ :: .word _ _ :: _ => true
  | .literal, .literal _ _ :: _ => true
  | .literal, .word name _ :: _ => name == "true" || name == "false"
  | .literal, .mark '-' _ _ :: .literal text _ :: _ => isNumber text
  | .stringLiteral, .literal text _ :: _ => isText text
  | .group d, .group d' _ _ _ :: _ => d == d'
  | .anyGroup, .group _ _ _ _ :: _ => true
  | _, _ => false

/-- The trees behind the first one; a lifetime counts as one. -/
def behindFirst : List TokenTree → List TokenTree
  | .mark '\x27' true _ :: .word _ _ :: rest => rest
  | _ :: rest => rest
  | [] => []

/-- What a parser has before it, and what it has read. -/
structure State where
  /-- The trees still to be read. -/
  rest : List TokenTree
  /-- Where running out of trees is reported. -/
  close : Position
  /-- The delimiter of the group that holds the trees. -/
  within : Option Delimiter
  /-- The complaint about the first group that was not read to its end. -/
  leftover : Option Fault
  /-- The transcript, in reverse. -/
  read : List TokenTree

/-- Reads a phrase from the front of the trees, or finds a fault. -/
abbrev Parser := StateT State (Except Fault)

namespace Parser

variable {α β σ : Type}

/-! ### Looking ahead -/

/-- Whether no tree is left. -/
def atEnd : Parser Bool := return (← get).rest.isEmpty

/-- The place of the next tree, or of the end. -/
def here : Parser Position := do
  let state ← get
  match state.rest with
  | tree :: _ => return tree.pos
  | [] => return state.close

/-- Whether this comes next. -/
def sees (e : Expected) : Parser Bool := return e.begins (← get).rest

/-- Whether this comes behind the next tree. -/
def seesSecond (e : Expected) : Parser Bool := return e.begins (behindFirst (← get).rest)

/-- Whether this comes behind the next two trees. -/
def seesThird (e : Expected) : Parser Bool :=
  return e.begins (behindFirst (behindFirst (← get).rest))

/-- Whether this word comes next. -/
def seesWord (text : String) : Parser Bool := sees (.word text)

/-- Whether these marks come next. -/
def seesMark (text : String) : Parser Bool := sees (.mark text)

/-- Whether one of these comes next. -/
def seesAny (es : List Expected) : Parser Bool := do
  let rest := (← get).rest
  return es.any fun e => e.begins rest

/-- Whether a group in parentheses comes next. -/
def seesParentheses : Parser Bool := sees (.group .parenthesis)

/-- Whether a group in square brackets comes next. -/
def seesBrackets : Parser Bool := sees (.group .bracket)

/-- Whether a group in braces comes next. -/
def seesBraces : Parser Bool := sees (.group .brace)

/-- Whether any word comes next, reserved or not. -/
def seesAnyWord : Parser Bool := do
  match (← get).rest with
  | .word _ _ :: _ => return true
  | _ => return false

/-- Whether a path separator comes next with parentheses behind it. -/
def seesPathParentheses : Parser Bool := do
  if ← seesParentheses then return true
  if ← seesMark "::" then seesThird (.group .parenthesis) else return false

/-! ### Faults -/

/-- Complain about the next tree, or about the end. -/
def complain (complaint : Complaint) : Parser α := do
  throw { pos := ← here, complaint, ranOut := ← atEnd }

/-- Complain about a place. -/
def complainAt (pos : Position) (complaint : Complaint) : Parser α :=
  throw { pos, complaint }

/-- Complain that something is missing here. -/
def missing (e : Expected) : Parser α := complain (.missing [e])

/-- Complain that none of these is here. What does begin here, but was refused for what follows it,
is not listed. -/
def missingOneOf (es : List Expected) : Parser α := do
  let rest := (← get).rest
  complain (.missing (es.filter fun e => !e.begins rest))

/-! ### Single tokens -/

/-- Add trees to the transcript. -/
def record (trees : List TokenTree) : Parser Unit :=
  modify fun state => { state with read := trees.reverse ++ state.read }

/-- Go on with these trees. -/
def goOn (rest : List TokenTree) : Parser Unit :=
  modify fun state => { state with rest }

/-- Read the marks of an operator. -/
def mark (text : String) : Parser Unit := do
  match afterMarks? text.toList (← get).rest with
  | some rest =>
    record (operatorTokens (← here) text.toList)
    goOn rest
  | none => throw { pos := ← here, complaint := .missingMark text }

/-- Read an operator if it comes next, and say whether it did. -/
def optionalMark (text : String) : Parser Bool := do
  if ← seesMark text then
    mark text
    return true
  else return false

/-- Read this word. -/
def word (text : String) : Parser Unit := do
  match (← get).rest with
  | .word name pos :: rest =>
    if name = text then
      record [.word name pos]
      goOn rest
    else missing (.word text)
  | _ => missing (.word text)

/-- Read a word if it comes next, and say whether it did. -/
def optionalWord (text : String) : Parser Bool := do
  if ← seesWord text then
    word text
    return true
  else return false

/-- Read any word. -/
def anyWord : Parser String := do
  match (← get).rest with
  | .word name pos :: rest =>
    record [.word name pos]
    goOn rest
    return name
  | _ => missing .identifier

/-- Read an identifier. -/
def identifier : Parser String := do
  match (← get).rest with
  | .word name _ :: _ =>
    if isIdentifier name then anyWord
    else throw { pos := ← here, complaint := .reserved name }
  | _ => missing .identifier

/-- Read a lifetime. -/
def lifetime : Parser Unit := do
  match (← get).rest with
  | .mark '\x27' true pos :: .word name pos' :: rest =>
    record [.mark '\x27' true pos, .word name pos']
    goOn rest
  | _ => missing .lifetime

/-- Read a lifetime if one comes next, and say whether one did. -/
def optionalLifetime : Parser Bool := do
  if ← sees .lifetime then
    lifetime
    return true
  else return false

/-- Read a literal; the words for the truth values and a number behind a minus sign are literals. -/
def literal : Parser String := do
  match (← get).rest with
  | .literal text pos :: rest =>
    record [.literal text pos]
    goOn rest
    return text
  | .word name pos :: rest =>
    if name = "true" ∨ name = "false" then
      record [.word name pos]
      goOn rest
      return name
    else missing .literal
  | .mark '-' _ pos :: .literal text pos' :: rest =>
    if isNumber text then
      record [.mark '-' false pos, .literal text pos']
      goOn rest
      return "-" ++ text
    else missing .literal
  | _ => missing .literal

/-! ### Groups -/

/-- The complaint about what is left at the end of a group. -/
def leftoverOf (state : State) : Option Fault :=
  state.rest.head?.map fun tree => { pos := tree.pos, complaint := .leftover state.within }

/-- Remember what a group left unread, unless something is remembered already. -/
def remember (left : Option Fault) : Parser Unit :=
  modify fun state => { state with leftover := state.leftover <|> left }

/-- Read a group with this delimiter, and its content with a parser. What the content leaves unread
is not remembered yet, but part of the answer: it counts after the faults of this kind in what still
belongs to the phrase that the group is a part of. -/
def openGroup (d : Delimiter) (inner : Parser α) : Parser (α × Option Fault) := do
  let state ← get
  match state.rest with
  | .group d' content opened closed :: rest =>
    if d = d' then
      set { state with rest := content, close := closed, within := some d, read := [] }
      let result ← inner
      let inside ← get
      set { state with
        rest
        leftover := inside.leftover
        read := .group d inside.read.reverse opened closed :: state.read }
      return (result, leftoverOf inside)
    else missing (.group d)
  | _ => missing (.group d)

/-- Read a group with this delimiter, and its content with a parser. -/
def group (d : Delimiter) (inner : Parser α) : Parser α := do
  let (result, left) ← openGroup d inner
  remember left
  return result

/-- Read a group in parentheses. -/
def parentheses (inner : Parser α) : Parser α := group .parenthesis inner

/-- Read a group in square brackets. -/
def brackets (inner : Parser α) : Parser α := group .bracket inner

/-- Read a group in braces. -/
def braces (inner : Parser α) : Parser α := group .brace inner

/-- Read all trees that are left, as they are. -/
def everything : Parser Unit := do
  record (← get).rest
  goOn []

/-- Read a group of any kind as it is: its delimiter and content. -/
def anyGroup : Parser (Delimiter × List TokenTree) := do
  match (← get).rest with
  | .group d content opened closed :: rest =>
    record [.group d content opened closed]
    goOn rest
    return (d, content)
  | _ => missing .anyGroup

/-! ### Transcripts -/

/-- Read a phrase, and take its transcript out of the surrounding one. -/
def captured (p : Parser α) : Parser (α × List TokenTree) := do
  let outer := (← get).read
  modify fun state => { state with read := [] }
  let result ← p
  let inner := (← get).read.reverse
  modify fun state => { state with read := outer }
  return (result, inner)

/-- Read a phrase without a transcript. -/
def silently (p : Parser α) : Parser α := do
  return (← captured p).1

/-- Read a phrase; where the answer asks for it, its transcript is its own spelling. -/
def verbatimIf (asks : α → Bool) (p : Parser α) : Parser α := do
  let start := (← get).rest
  let (result, transcript) ← captured p
  let rest := (← get).rest
  record (if asks result then start.take (start.length - rest.length) else transcript)
  return result

/-- Read a phrase, and leave its transcript out where the answer asks for it. -/
def omittedIf (asks : α → Bool) (p : Parser α) : Parser α := do
  let (result, transcript) ← captured p
  record (if asks result then [] else transcript)
  return result

/-- Read a phrase whose transcript is its own spelling. -/
def verbatim (p : Parser α) : Parser α := verbatimIf (fun _ => true) p

/-! ### Choice and repetition -/

/-- Try a parser; if it finds a fault, nothing was read. -/
def attempt (p : Parser α) : Parser (Option α) := fun state =>
  match p state with
  | .ok (result, state') => .ok (some result, state')
  | .error _ => .ok (none, state)

/-- Try a parser, and read nothing in any case. -/
def lookAhead (p : Parser α) : Parser (Option α) := fun state =>
  match p state with
  | .ok (result, _) => .ok (some result, state)
  | .error _ => .ok (none, state)

/-- What one round of a repetition comes to. -/
inductive Round (σ β : Type)
  | again (next : σ)
  | done (result : β)

/-- Repeat a round at most this many times. -/
def repeatUpTo (step : σ → Parser (Round σ β)) : Nat → σ → Parser β
  | 0, _ => complain .nestedTooDeeply
  | n + 1, current => do
    match ← step current with
    | .done result => return result
    | .again next => repeatUpTo step n next

/-- Repeat a round until it is done. Every round but the last reads a tree, so that the number of
trees bounds the number of rounds. -/
def repeated (step : σ → Parser (Round σ β)) (first : σ) : Parser β := do
  repeatUpTo step ((← get).rest.length + 1) first

/-- Read phrases until no tree is left. -/
def untilEnd (p : Parser α) : Parser (List α) :=
  repeated (fun found => do
    if ← atEnd then return .done found.reverse
    return .again ((← p) :: found)) []

/-- Read phrases with commas between them, until no tree is left; a comma may follow the last. -/
def commaSeparated (p : Parser α) : Parser (List α) :=
  repeated (fun found => do
    if ← atEnd then return .done found.reverse
    let result ← p
    if ← atEnd then return .done (result :: found).reverse
    mark ","
    return .again (result :: found)) []

/-- Read all trees of a text with one parser, which may leave none, in no group. -/
def readAll (p : Parser α) (trees : List TokenTree) : Except Fault α := do
  let (result, state) ← p ⟨trees, Position.start, none, none, []⟩
  match state.leftover <|> leftoverOf state with
  | some fault => throw fault
  | none => return result

end Parser

end DescriptionLookup.Grammar
