import DescriptionLookup.Grammar.Parser
import DescriptionLookup.Syntax.Item

/-!
# The recursive phrases of the grammar

Expressions, types, patterns, statements and items contain each other. Each rule of the grammar is an
ordinary function that takes parsers for these phrases as an argument; `Grammar.Source` ties the
knot by the depth to which phrases are nested.
-/

namespace DescriptionLookup.Grammar

/-- What the grammar has to know of a path, apart from its names. -/
structure PathShape where
  path : Path
  /-- No segment has a list of arguments, not even an empty one. -/
  plain : Bool
  /-- How many arguments the last segment lists, if it has a list. -/
  arguments : Option Nat

/-- What the grammar has to know of a type. -/
inductive TypeShape
  /-- A path that is not qualified by a type. -/
  | path (shape : PathShape)
  /-- Bounds without `dyn`; whether they are a single one without a plus behind it. -/
  | bareObject (single : Bool)
  /-- A type that only a compiler's own library may use. -/
  | builtin
  | other

/-- What the grammar has to know of a pattern. -/
inductive PatternShape
  /-- Two dots alone. -/
  | rest
  /-- A range; where it lacks one of its ends, the place of its dots. -/
  | range (openAt : Option Position)
  /-- A pattern that is kept as it is spelled. -/
  | verbatim
  | other

/-- The kinds of bounds. -/
inductive BoundKind
  | lifetime
  /-- A trait; whether it is one for constants. -/
  | trait (forConst : Bool)
  /-- The parameters that a hidden type captures. -/
  | capture

/-- How tightly an operator binds, from loosest to tightest. -/
inductive Precedence
  | jump
  | assign
  | range
  | or
  | and
  | binding
  | compare
  | bitOr
  | bitXor
  | bitAnd
  | shift
  | sum
  | product
  | cast
deriving DecidableEq

/-- The order of precedences. -/
def Precedence.rank : Precedence → Nat
  | .jump => 0
  | .assign => 1
  | .range => 2
  | .or => 3
  | .and => 4
  | .binding => 5
  | .compare => 6
  | .bitOr => 7
  | .bitXor => 8
  | .bitAnd => 9
  | .shift => 10
  | .sum => 11
  | .product => 12
  | .cast => 13

/-- Parsers for the phrases that contain each other. `structs` says whether a brace behind a path
begins the fields of a struct. -/
structure Nonterminals where
  /-- An expression. -/
  expression (structs : Bool) : Parser Expression.Shape
  /-- An expression as a statement or an arm has it: one that ends in a block ends there. -/
  standalone (statement : Bool) : Parser Expression.Shape
  /-- An operand with the operators before and behind it. -/
  operand (structs : Bool) : Parser Expression.Shape
  /-- The operators behind a left operand that bind at least as tightly as `base`. -/
  operators (structs : Bool) (left : Expression.Shape) (base : Precedence) :
    Parser Expression.Shape
  /-- A type; `plus` says whether several bounds may be joined. -/
  type (plus : Bool) : Parser TypeShape
  /-- A bound of a parameter or type. `captures` and `constants` say whether it may list captured
  parameters, and whether it may be a bound for constants. -/
  bound (captures constants : Bool) : Parser BoundKind
  /-- A pattern without alternatives. -/
  pattern : Parser PatternShape
  /-- The statements of a block. -/
  statements : Parser Unit
  /-- Fields with names, in braces. -/
  fields : Parser Unit
  item : Parser Item

/-- Phrases that are nested too deeply to be read. -/
def Nonterminals.exhausted : Nonterminals where
  expression _ := Parser.complain .nestedTooDeeply
  standalone _ := Parser.complain .nestedTooDeeply
  operand _ := Parser.complain .nestedTooDeeply
  operators _ _ _ := Parser.complain .nestedTooDeeply
  type _ := Parser.complain .nestedTooDeeply
  bound _ _ := Parser.complain .nestedTooDeeply
  pattern := Parser.complain .nestedTooDeeply
  statements := Parser.complain .nestedTooDeeply
  fields := Parser.complain .nestedTooDeeply
  item := Parser.complain .nestedTooDeeply

end DescriptionLookup.Grammar
