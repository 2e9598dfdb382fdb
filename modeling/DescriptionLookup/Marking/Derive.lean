import DescriptionLookup.Grammar.Source

/-!
# The marker as a derive

What the marker expands to where it is derived. It adds no lookups, which are generated for the
crate as a whole. It only refuses what is no enum, and has the compiler check that the values of
the enum are printable. An enum with parameters is not checked here, since what is generated for it
asks for that itself.
-/

namespace DescriptionLookup

/-- What a derive is applied to. -/
structure Derivable where
  isEnum : Bool
  name : String
  /-- Where the name stands. -/
  pos : Position
  generics : Generics

namespace Grammar

open Grammar.Parser

/-- The place of the tree behind the next one. -/
def placeOfSecond : Parser Position := do
  match (← get).rest with
  | _ :: tree :: _ => return tree.pos
  | _ => return (← get).close

/-- Read a struct, an enum or a union with its attributes and visibility. -/
def derivable (g : Nonterminals) : Parser Derivable := do
  let attributes ← outerAttributes g
  let visible ← visibility
  let pos ← placeOfSecond
  if ← seesWord "struct" then
    let (name, generics) ← structDecl g
    return { isEnum := false, name, pos, generics }
  else if ← seesWord "enum" then
    let decl ← enumDecl g attributes visible
    return { isEnum := true, name := decl.name, pos, generics := decl.generics }
  else if ← seesWord "union" then
    let (name, generics) ← unionDecl g
    return { isEnum := false, name, pos, generics }
  else missingOneOf [.word "struct", .word "enum", .word "union"]

end Grammar

/-- Why a derive is refused: where, and in which words. -/
structure Refusal where
  pos : Position
  message : String
deriving DecidableEq

namespace Refusal

/-- A fault of the grammar. -/
def ofFault (fault : Grammar.Fault) : Refusal := ⟨fault.pos, fault.message⟩

/-- The tokens that report the refusal to the compiler. -/
def tokens (refusal : Refusal) : String :=
  ":: core :: compile_error ! \x7b " ++ Text.quoted refusal.message ++ " \x7d"

end Refusal

namespace Derivable

/-- The words for what is no enum. -/
def notEnum : String := "GenerateEnumDescription can only be derived for enums"

/-- The tokens that have the compiler check that the values of a type are printable. -/
def check (name : String) : String :=
  "const _ : fn () = || \x7b fn assert_debug < T : ? :: core :: marker :: Sized" ++
    " + :: core :: fmt :: Debug > () \x7b \x7d assert_debug :: < " ++ name ++ " > () ; \x7d ;"

/-- What the marker expands to. -/
def expand (d : Derivable) : Except Refusal String :=
  if !d.isEnum then .error ⟨d.pos, notEnum⟩
  else if d.generics.isEmpty then .ok (check d.name)
  else .ok ""

/-- What the marker expands to where it is derived for the item that a text declares. -/
def expandText (text : String) : Except Refusal String :=
  match Grammar.parseText Grammar.derivable text with
  | .error fault => .error (.ofFault fault)
  | .ok d => d.expand

end Derivable

end DescriptionLookup
