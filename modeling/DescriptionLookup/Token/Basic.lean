import DescriptionLookup.Text.StringLiteral

/-!
# Token trees

A Rust source text is read as a list of token trees: words, punctuation marks, literals, and groups
between two matching delimiters. Each tree keeps the place it was read from. A mark is *joint* if
another mark stood right behind it in the text; this is what tells `>>` from `> >`.
-/

namespace DescriptionLookup

/-- A place in a text. Lines and columns count from one, columns in characters. -/
structure Position where
  line : Nat
  column : Nat
deriving DecidableEq, Inhabited

namespace Position

/-- Where every text begins. -/
def start : Position := ⟨1, 1⟩

/-- The place behind a character. -/
def after (p : Position) (c : Char) : Position :=
  if c = '\n' then ⟨p.line + 1, 1⟩ else ⟨p.line, p.column + 1⟩

/-- The place behind a stretch of text. -/
def afterAll (p : Position) (cs : List Char) : Position := cs.foldl after p

@[simp] theorem afterAll_nil (p : Position) : p.afterAll [] = p := rfl

@[simp] theorem afterAll_append (p : Position) (xs ys : List Char) :
    p.afterAll (xs ++ ys) = (p.afterAll xs).afterAll ys := by
  simp [afterAll]

end Position

/-- The pairs of brackets that hold a group together. -/
inductive Delimiter
  | parenthesis
  | bracket
  | brace
deriving DecidableEq, Inhabited

namespace Delimiter

/-- The character that opens a group. -/
def opening : Delimiter → Char
  | .parenthesis => '('
  | .bracket => '['
  | .brace => '\x7b'

/-- The character that closes a group. -/
def closing : Delimiter → Char
  | .parenthesis => ')'
  | .bracket => ']'
  | .brace => '\x7d'

/-- The delimiter that a character opens. -/
def ofOpening? (c : Char) : Option Delimiter :=
  if c = '(' then some .parenthesis
  else if c = '[' then some .bracket
  else if c = '\x7b' then some .brace
  else none

/-- The delimiter that a character closes. -/
def ofClosing? (c : Char) : Option Delimiter :=
  if c = ')' then some .parenthesis
  else if c = ']' then some .bracket
  else if c = '\x7d' then some .brace
  else none

@[simp] theorem ofOpening?_opening (d : Delimiter) : ofOpening? d.opening = some d := by
  cases d <;> decide

@[simp] theorem ofClosing?_closing (d : Delimiter) : ofClosing? d.closing = some d := by
  cases d <;> decide

end Delimiter

/-- A piece of source text as the grammar sees it. -/
inductive TokenTree
  /-- An identifier or reserved word, in its spelling with a possible `r#`. -/
  | word (name : String) (pos : Position)
  /-- A punctuation mark, and whether another one follows without a gap. -/
  | mark (char : Char) (joint : Bool) (pos : Position)
  /-- A number, character or string, as written. -/
  | literal (text : String) (pos : Position)
  /-- What stands between two delimiters, and where these are. -/
  | group (delimiter : Delimiter) (content : List TokenTree) (opened closed : Position)
deriving Inhabited

namespace TokenTree

/-- Where the tree begins. -/
def pos : TokenTree → Position
  | .word _ p | .mark _ _ p | .literal _ p | .group _ _ p _ => p

mutual

/-- The number of words, marks, literals and groups in a tree. -/
def size : TokenTree → Nat
  | .group _ content _ _ => sizeAll content + 1
  | _ => 1

/-- The number of words, marks, literals and groups in a list of trees. -/
def sizeAll : List TokenTree → Nat
  | [] => 0
  | t :: rest => t.size + sizeAll rest

end

mutual

/-- The tree without the places it was read from. -/
def placeless : TokenTree → TokenTree
  | .word name _ => .word name .start
  | .mark c joint _ => .mark c joint .start
  | .literal text _ => .literal text .start
  | .group d content _ _ => .group d (placelessAll content) .start .start

/-- The trees without the places they were read from. -/
def placelessAll : List TokenTree → List TokenTree
  | [] => []
  | t :: rest => t.placeless :: placelessAll rest

end

mutual

/-- Whether two trees are the same and were read from the same place. -/
def same : TokenTree → TokenTree → Bool
  | .word name p, .word name' p' => name == name' && p == p'
  | .mark c joint p, .mark c' joint' p' => c == c' && joint == joint' && p == p'
  | .literal text p, .literal text' p' => text == text' && p == p'
  | .group d content opened closed, .group d' content' opened' closed' =>
    d == d' && sameAll content content' && opened == opened' && closed == closed'
  | _, _ => false

/-- Whether two lists of trees are the same. -/
def sameAll : List TokenTree → List TokenTree → Bool
  | [], [] => true
  | t :: rest, t' :: rest' => t.same t' && sameAll rest rest'
  | _, _ => false

end

mutual

theorem same_iff (t t' : TokenTree) : t.same t' = true ↔ t = t' := by
  cases t with
  | group d content opened closed =>
    cases t' with
    | group d' content' opened' closed' =>
      simp [same, sameAll_iff content content', and_assoc]
    | _ => simp [same]
  | _ => cases t' <;> simp [same, and_assoc]

theorem sameAll_iff (ts ts' : List TokenTree) : sameAll ts ts' = true ↔ ts = ts' := by
  cases ts with
  | nil => cases ts' <;> simp [sameAll]
  | cons t rest =>
    cases ts' with
    | nil => simp [sameAll]
    | cons t' rest' => simp [sameAll, same_iff t t', sameAll_iff rest rest']

end

instance : DecidableEq TokenTree := fun t t' => decidable_of_iff _ (same_iff t t')

/-- Whether the tree is a punctuation mark. -/
def isPunctuation : TokenTree → Bool
  | .mark _ _ _ => true
  | _ => false

/-- Whether the tree is a group in braces. -/
def isBraceGroup : TokenTree → Bool
  | .group .brace _ _ _ => true
  | _ => false

end TokenTree

/-- The characters that are punctuation marks. -/
def markChars : List Char := "~!@#$%^&*-=+|;:,<.>/?'".toList

/-- Whether the character is a punctuation mark. -/
def isMark (c : Char) : Bool := markChars.contains c

end DescriptionLookup
