import DescriptionLookup.Syntax.Path
import DescriptionLookup.Token.Printer

/-!
# Attributes

An attribute is a path with nothing behind it, a delimited list of tokens, or an equals sign and an
expression. The tokens of a list are kept as they are, though not their places: what they mean
depends on the attribute, and is found out on use.
-/

namespace DescriptionLookup

/-- What the grammar has to know of an expression, apart from its tokens. -/
inductive Expression.Shape
  /-- A string literal of the text kind. -/
  | text (value : String)
  /-- A range, which cannot be an operand. -/
  | range
  /-- Two operands that are compared, which cannot be compared again. -/
  | comparison
  /-- An expression that ends in a block, so that it may be a statement without a semicolon. -/
  | block
  /-- An invocation of a rule by name, with or without braces. -/
  | invocation (braced : Bool)
  /-- An expression that is kept as it is spelled. -/
  | verbatim
  | other
deriving DecidableEq

/-- An expression: what kind it is, and its tokens. -/
structure Expression where
  shape : Expression.Shape
  tokens : List TokenTree
deriving DecidableEq

/-- The text of an expression that is a string literal. -/
def Expression.text? (expression : Expression) : Option String :=
  match expression.shape with
  | .text value => some value
  | _ => none

/-- What follows the path of an attribute. -/
inductive Attribute.Argument
  | nothing
  | list (delimiter : Delimiter) (tokens : List TokenTree)
  | value (expression : Expression)
deriving DecidableEq

/-- An attribute, without the number sign and the brackets around it. -/
structure Attribute where
  path : Path
  argument : Attribute.Argument
deriving DecidableEq

namespace Attribute

/-- Whether the attribute is called by this name alone. -/
def isNamed (a : Attribute) (name : String) : Bool := a.path.isName name

/-- The tokens between the brackets of the attribute. -/
def tokens (a : Attribute) : List TokenTree :=
  a.path.tokens ++
    match a.argument with
    | .nothing => []
    | .list d content => [.group d content .start .start]
    | .value expression => .mark '=' false .start :: expression.tokens

/-- The attribute written in front of what it applies to. -/
def text (a : Attribute) : String := "#[" ++ TokenTree.text a.tokens ++ "]"

end Attribute

end DescriptionLookup
