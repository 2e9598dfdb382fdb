import DescriptionLookup.Grammar.Item
import DescriptionLookup.Token.Lexer

/-!
# Reading whole texts

The phrases that contain each other are tied together by the depth to which they are nested. A text
with `n` tokens cannot nest them more deeply than a multiple of `n`, since every phrase that contains
another one of the same kind has a token of its own.
-/

namespace DescriptionLookup.Grammar

open Grammar.Parser

/-- The recursive phrases, nested at most this deeply. -/
def nonterminals : Nat → Nonterminals
  | 0 => .exhausted
  | depth + 1 =>
    { expression := fun structs state => expression (nonterminals depth) structs state
      standalone := fun statement state => standalone (nonterminals depth) statement state
      operand := fun structs state => operand (nonterminals depth) structs state
      operators := fun structs left base state =>
        operators (nonterminals depth) structs left base state
      type := fun plus state => type (nonterminals depth) plus state
      bound := fun captures constants state =>
        bound (nonterminals depth) captures constants state
      pattern := fun state => pattern (nonterminals depth) state
      statements := fun state => statements (nonterminals depth) state
      fields := fun state => namedFields (nonterminals depth) state
      item := fun state => item (nonterminals depth) state }

/-- The recursive phrases, nested deeply enough for these trees. -/
def nonterminalsFor (trees : List TokenTree) : Nonterminals :=
  nonterminals (8 * (TokenTree.sizeAll trees + 1))

/-- Read token trees as one phrase. -/
def parseTrees {α : Type} (phrase : Nonterminals → Parser α) (trees : List TokenTree) :
    Except Fault α :=
  readAll (phrase (nonterminalsFor trees)) trees

/-- Read a text as one phrase. -/
def parseText {α : Type} (phrase : Nonterminals → Parser α) (text : String) : Except Fault α :=
  match TokenTree.ofText text with
  | .error pos => .error { pos, complaint := .unreadable }
  | .ok trees => parseTrees phrase trees

/-! ### Files -/

/-- The attributes and items of a file. -/
def file (g : Nonterminals) : Parser SourceText := do
  let attributes ← innerAttributes g
  return { attributes, items := ← untilEnd g.item }

/-- What follows blanks and ordinary comments, with at most this many of them in turn. -/
def skipBlanks : Nat → List Char → List Char
  | 0, text => text
  | n + 1, text =>
    match text with
    | [] => []
    | c :: rest =>
      if Text.isBlank c then skipBlanks n rest
      else
        match Lexeme.comment? text with
        | some (.plain, rest') => skipBlanks n rest'
        | _ => text

/-- The text of a file from behind a first line that names its interpreter. That line begins with
`#!`, and no square bracket follows as it would in an attribute. Its line break remains. -/
def withoutInterpreter (text : List Char) : List Char :=
  match text with
  | '#' :: '!' :: rest =>
    if (skipBlanks rest.length rest).head? = some '[' then text
    else text.dropWhile (· != '\n')
  | _ => text

/-- The text of a file without a byte order mark and a first line that names its interpreter. -/
def fileText (text : String) : String :=
  match text.toList with
  | '\ufeff' :: rest => String.ofList (withoutInterpreter rest)
  | chars => String.ofList (withoutInterpreter chars)

/-- Read a file. -/
def parseFile (text : String) : Except Fault SourceText := parseText file (fileText text)

/-! ### Smaller phrases -/

/-- A path with arguments as a type has them: its names. -/
def typePath (g : Nonterminals) : Parser Path := return (← path g false).path

/-- Read a path. -/
def parsePath (text : String) : Except Fault Path := parseText typePath text

/-- Read an identifier. -/
def parseIdentifier (text : String) : Except Fault String := parseText (fun _ => identifier) text

/-- Read an enum with its attributes and visibility. -/
def parseEnum (text : String) : Except Fault EnumDecl :=
  parseText (fun g => do
    let attributes ← outerAttributes g
    let visible ← visibility
    enumDecl g attributes visible) text

/-- Read the list of an attribute as phrases with commas between them. -/
def parseList {α : Type} (phrase : Nonterminals → Parser α) (trees : List TokenTree) :
    Option (List α) :=
  (parseTrees (fun g => commaSeparated (phrase g)) trees).toOption

/-- The phrases in the list of an attribute; `none` if it has no list, or one of other phrases. -/
def listArgument? {α : Type} (phrase : Nonterminals → Parser α) (a : Attribute) :
    Option (List α) :=
  match a.argument with
  | .list _ trees => parseList phrase trees
  | _ => none

/-- An expression with its tokens. -/
def expressionPhrase (g : Nonterminals) : Parser Expression := do
  let (shape, tokens) ← captured (g.expression true)
  return ⟨shape, tokens⟩

end DescriptionLookup.Grammar
