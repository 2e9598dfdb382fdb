import DescriptionLookup.Token.Basic

/-!
# Printing tokens

Token trees are printed with one space between two trees, except that nothing follows a joint
mark. Parentheses and square brackets hug their content; braces keep a space on either side of it.
-/

namespace DescriptionLookup.TokenTree

/-- Whether nothing may be printed between this tree and the next. -/
def isJoint : TokenTree → Bool
  | .mark _ joint _ => joint
  | _ => false

mutual

/-- The printed form of one tree. -/
def print : TokenTree → List Char
  | .word name _ => name.toList
  | .mark c _ _ => [c]
  | .literal text _ => text.toList
  | .group .brace [] _ _ => ['\x7b', ' ', '\x7d']
  | .group .brace content _ _ => ['\x7b', ' '] ++ printAll content ++ [' ', '\x7d']
  | .group d content _ _ => d.opening :: (printAll content ++ [d.closing])

/-- The printed form of a list of trees. -/
def printAll : List TokenTree → List Char
  | [] => []
  | [t] => t.print
  | t :: rest => t.print ++ (if t.isJoint then [] else [' ']) ++ printAll rest

end

/-- The text of a list of trees. -/
def text (trees : List TokenTree) : String := String.ofList (printAll trees)

end DescriptionLookup.TokenTree
