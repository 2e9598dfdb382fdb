import DescriptionLookup.Text.XidStart
import DescriptionLookup.Text.XidContinue

/-!
# Character classes

The classes of characters that the lexer and the trimming of module paths ask about. White space
is the Unicode property; a blank between tokens may also be a directional mark. Identifiers follow
the XID properties, with the low line as one more way to begin.
-/

namespace DescriptionLookup.Text

/-- The Unicode property White_Space. -/
def isWhiteSpace (c : Char) : Bool :=
  let n := c.toNat
  (9 ≤ n && n ≤ 13) || n == 0x20 || n == 0x85 || n == 0xa0 || n == 0x1680 ||
    (0x2000 ≤ n && n ≤ 0x200a) || n == 0x2028 || n == 0x2029 || n == 0x202f || n == 0x205f ||
    n == 0x3000

/-- What may stand between two tokens: white space and the two directional marks. -/
def isBlank (c : Char) : Bool :=
  isWhiteSpace c || c == '\u200e' || c == '\u200f'

/-- May begin an identifier. -/
def isIdentifierStart (c : Char) : Bool :=
  c == '_' || xidStart.holds c.toNat

/-- May stand in an identifier after its first character. -/
def isIdentifierPart (c : Char) : Bool :=
  xidContinue.holds c.toNat

/-- The value of a hexadecimal digit of either case. -/
def hexDigit? (c : Char) : Option Nat :=
  if '0' ≤ c ∧ c ≤ '9' then some (c.toNat - 48)
  else if 'a' ≤ c ∧ c ≤ 'f' then some (c.toNat - 87)
  else if 'A' ≤ c ∧ c ≤ 'F' then some (c.toNat - 55)
  else none

/-- The character with this number, unless the number is that of a surrogate or too large. -/
def scalar? (n : Nat) : Option Char :=
  if n.isValidChar then some (Char.ofNat n) else none

/-- The text without the white space at its two ends. -/
def trim (cs : List Char) : List Char :=
  ((cs.dropWhile isWhiteSpace).reverse.dropWhile isWhiteSpace).reverse

end DescriptionLookup.Text
