import DescriptionLookup.Token.Basic

/-!
# What is wrong with a source text

A fault is a place and a complaint. Most complaints say what was expected there; `Fault.message`
holds the wording of all of them. A complaint that arises where the tokens run out says so first,
unless a punctuation mark alone was expected.
-/

namespace DescriptionLookup.Grammar

/-- Something that may be expected at a place. -/
inductive Expected
  /-- This word. -/
  | word (text : String)
  /-- These punctuation marks, without a gap between them. -/
  | mark (text : String)
  /-- A word that is not reserved. -/
  | identifier
  | lifetime
  | literal
  | stringLiteral
  | integerLiteral
  | integer
  | underscore
  | group (delimiter : Delimiter)
  | anyGroup
  | expression
  | loopOrBlock
  | pathSegment
  | upperBound
deriving DecidableEq

/-- The words for something expected. -/
def Expected.describe : Expected → String
  | .word text => "`" ++ text ++ "`"
  | .mark text => "`" ++ text ++ "`"
  | .identifier => "identifier"
  | .lifetime => "lifetime"
  | .literal => "literal"
  | .stringLiteral => "string literal"
  | .integerLiteral => "integer literal"
  | .integer => "integer"
  | .underscore => "underscore"
  | .group .parenthesis => "parentheses"
  | .group .bracket => "square brackets"
  | .group .brace => "curly braces"
  | .anyGroup => "delimiter"
  | .expression => "an expression"
  | .loopOrBlock => "loop or block expression"
  | .pathSegment => "path segment after `::`"
  | .upperBound => "range upper bound"

/-- What may not follow a cast without parentheses. -/
inductive CastFollower
  | await
  | methodCall
  | fieldAccess
  | question
  | indexing
  | call

/-- The words for what may not follow a cast. -/
def CastFollower.describe : CastFollower → String
  | .await => "`.await`"
  | .methodCall => "a method call"
  | .fieldAccess => "a field access"
  | .question => "`?`"
  | .indexing => "indexing"
  | .call => "a function call"

/-- A rule of the grammar that a text breaks. -/
inductive Complaint
  /-- The text is not a sequence of tokens. -/
  | unreadable
  /-- Tokens follow a complete phrase; `closer` is the delimiter that should have followed it. -/
  | leftover (closer : Option Delimiter)
  /-- One of these was expected. -/
  | missing (wanted : List Expected)
  /-- This mark was expected; running out of tokens is not said apart. -/
  | missingMark (text : String)
  /-- A reserved word stands where an identifier should. -/
  | reserved (word : String)
  | statementNotEnded
  | attributeInAttribute
  | chainedComparison
  | castFollowedBy (follower : CastFollower)
  | captureNotAllowed
  | conditionalConstNotAllowed
  | constNotAllowed
  | binderWithModifier
  | parametersOnWhere
  | objectWithoutTrait
  | opaqueWithoutTrait
  | parenthesesRequired
  | attributeOnRange
  | rangeInSlice
  | negativeInherent
  | receiverRepeated
  | receiverMisplaced
  | suffixedInteger
  | signedInteger
  | integerTooLarge
  | nestedTooDeeply

/-- The words for one of several things expected. -/
def describeAll (ranOut : Bool) (wanted : List Expected) : String :=
  match wanted with
  | [] => if ranOut then "" else "unexpected token"
  | [a] => "expected " ++ a.describe
  | [a, b] => "expected " ++ a.describe ++ " or " ++ b.describe
  | many => "expected one of: " ++ ", ".intercalate (many.map Expected.describe)

/-- The wording of a complaint. -/
def Complaint.describe (ranOut : Bool) : Complaint → String
  | .unreadable => "cannot parse string into token stream"
  | .leftover none => "unexpected token"
  | .leftover (some d) => "unexpected token, expected `" ++ d.closing.toString ++ "`"
  | .missing wanted => describeAll ranOut wanted
  | .missingMark text => "expected `" ++ text ++ "`"
  | .reserved word => "expected identifier, found keyword `" ++ word ++ "`"
  | .statementNotEnded => "unexpected token, expected `;`"
  | .attributeInAttribute => "unexpected attribute inside of attribute"
  | .chainedComparison => "comparison operators cannot be chained"
  | .castFollowedBy follower => "casts cannot be followed by " ++ follower.describe
  | .captureNotAllowed => "`use<...>` precise capturing syntax is not allowed here"
  | .conditionalConstNotAllowed => "`[const]` is not allowed here"
  | .constNotAllowed => "`const` is not allowed here"
  | .binderWithModifier => "`for<...>` binder not allowed with `?` trait polarity modifier"
  | .parametersOnWhere => "generic parameters on `where` clauses are reserved for future use"
  | .objectWithoutTrait => "at least one trait is required for an object type"
  | .opaqueWithoutTrait => "at least one trait must be specified"
  | .parenthesesRequired => "parentheses required"
  | .attributeOnRange => "attributes are not allowed on range expressions starting with `..`"
  | .rangeInSlice => "range pattern is not allowed unparenthesized inside slice pattern"
  | .negativeInherent => "inherent impls cannot be negative"
  | .receiverRepeated => "unexpected second method receiver"
  | .receiverMisplaced => "unexpected method receiver"
  | .suffixedInteger => "expected unsuffixed integer"
  | .signedInteger => "invalid digit found in string"
  | .integerTooLarge => "number too large to fit in target type"
  | .nestedTooDeeply => "nested too deeply"

/-- A complaint and the place it is about. -/
structure Fault where
  pos : Position
  complaint : Complaint
  /-- The tokens ran out, and this is part of the complaint. -/
  ranOut : Bool := false

/-- The text that reports a fault. -/
def Fault.message (fault : Fault) : String :=
  let words := fault.complaint.describe fault.ranOut
  if fault.ranOut then
    if words.isEmpty then "unexpected end of input" else "unexpected end of input, " ++ words
  else words

end DescriptionLookup.Grammar
