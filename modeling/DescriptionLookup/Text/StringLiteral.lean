import DescriptionLookup.Text.Character
import DescriptionLookup.Text.GraphemeExtend
import DescriptionLookup.Text.Unprintable

/-!
# String literals

Both directions of the quoted form of a text. `quoted` writes a text as one literal without a line
break: quotes, backslashes and the common controls get a short escape, every other character that
attaches to its neighbour or has no visible form is written by its number, and the rest stands as
it is. `readQuoted` reads a literal character by character with a small automaton, so that it says
where the literal ends as well as what it denotes; `readRaw` does the same for the raw form.
-/

namespace DescriptionLookup.Text

/-! ### Writing -/

/-- The lower-case hexadecimal digits of a number, without leading zeros. -/
def hexDigits (n : Nat) : List Char := Nat.toDigits 16 n

/-- The Hangul fillers: letters, but ignored where text is shown. -/
def fillers : List Char := ['\u115f', '\u1160', '\u3164', '\uffa0']

/-- The halfwidth sound marks: they belong to the letter before them, but take a place of their
own. -/
def soundMarks : List Char := ['\uff9e', '\uff9f']

/-- Written by its number: attaches to the character before it, or has no visible form. -/
def isHidden (c : Char) : Bool :=
  !soundMarks.contains c &&
    (graphemeExtend.holds c.toNat || unprintable.holds c.toNat || fillers.contains c)

/-- A zero must not run into an octal digit that follows it. -/
def isOctalDigit (c : Char) : Bool := '0' ≤ c && c ≤ '7'

/-- The written form of one character; `next` is the character after it. -/
def escape (c : Char) (next : Option Char) : List Char :=
  if c = '\x00' then
    if next.any isOctalDigit then ['\x5c', 'x', '0', '0'] else ['\x5c', '0']
  else if c = '\t' then ['\x5c', 't']
  else if c = '\r' then ['\x5c', 'r']
  else if c = '\n' then ['\x5c', 'n']
  else if c = '\x22' then ['\x5c', '\x22']
  else if c = '\x5c' then ['\x5c', '\x5c']
  else if isHidden c then ['\x5c', 'u', '\x7b'] ++ hexDigits c.toNat ++ ['\x7d']
  else [c]

/-- The written form of a text, without the quotes around it. -/
def escapeAll : List Char → List Char
  | [] => []
  | c :: rest => escape c rest.head? ++ escapeAll rest

/-- The string literal that denotes a text. -/
def quoted (text : String) : String :=
  String.ofList ('\x22' :: (escapeAll text.toList ++ ['\x22']))

@[simp] theorem escapeAll_nil : escapeAll [] = [] := rfl

@[simp] theorem escapeAll_cons (c : Char) (rest : List Char) :
    escapeAll (c :: rest) = escape c rest.head? ++ escapeAll rest := rfl

/-! ### Reading -/

/-- The kinds of string literals, which differ in the characters and escapes they admit. -/
inductive StringKind
  /-- Text: every character, escapes below `0x80` and by code point. -/
  | text
  /-- Bytes: ASCII characters, every two-digit escape, none by code point. -/
  | bytes
  /-- Text that ends at the first zero, which therefore may not occur in it. -/
  | zeroTerminated
deriving DecidableEq

/-- Whether the character itself may stand in a literal of this kind. -/
def StringKind.admits : StringKind → Char → Bool
  | .text, _ => true
  | .bytes, c => c.toNat < 0x80
  | .zeroTerminated, c => c != '\x00'

/-- Where the reader of a quoted literal stands. -/
inductive QuoteState
  /-- Between two characters. -/
  | plain
  /-- After a carriage return, which only a line feed may follow. -/
  | afterReturn
  /-- After a backslash. -/
  | escape
  /-- Before the first digit of a two-digit escape. -/
  | firstDigit
  /-- Before the second digit. -/
  | secondDigit (high : Nat)
  /-- Before the brace that opens a code point. -/
  | brace
  /-- Inside a code point: the digits so far, and their value. -/
  | codePoint (digits value : Nat)
  /-- In the blanks that follow a backslash at the end of a line. -/
  | continuation
  /-- There, after a carriage return. -/
  | continuationReturn
deriving DecidableEq

/-- What one character does to the reader. -/
inductive QuoteStep
  /-- The literal ends. -/
  | close
  /-- The reader goes on, having learnt at most one character of the text. -/
  | next (found : Option Char) (state : QuoteState)

/-- A character between two others. -/
def stepPlain (kind : StringKind) (c : Char) : Option QuoteStep :=
  if c = '\x22' then some .close
  else if c = '\r' then some (.next none .afterReturn)
  else if c = '\x5c' then some (.next none .escape)
  else if kind.admits c then some (.next (some c) .plain)
  else none

/-- A character after a backslash. -/
def stepEscape (kind : StringKind) (c : Char) : Option QuoteStep :=
  if c = 'n' then some (.next (some '\n') .plain)
  else if c = 'r' then some (.next (some '\r') .plain)
  else if c = 't' then some (.next (some '\t') .plain)
  else if c = '\x5c' then some (.next (some '\x5c') .plain)
  else if c = '\x27' then some (.next (some '\x27') .plain)
  else if c = '\x22' then some (.next (some '\x22') .plain)
  else if c = '0' ∧ kind ≠ .zeroTerminated then some (.next (some '\x00') .plain)
  else if c = 'x' then some (.next none .firstDigit)
  else if c = 'u' ∧ kind ≠ .bytes then some (.next none .brace)
  else if c = '\n' then some (.next none .continuation)
  else if c = '\r' then some (.next none .continuationReturn)
  else none

/-- A character inside a code point of at most six digits. -/
def stepCodePoint (kind : StringKind) (digits value : Nat) (c : Char) : Option QuoteStep :=
  match hexDigit? c with
  | some d => if digits = 6 then none else some (.next none (.codePoint (digits + 1) (value * 16 + d)))
  | none =>
    if digits = 0 then none
    else if c = '_' then some (.next none (.codePoint digits value))
    else if c = '\x7d' then
      match scalar? value with
      | some found => if kind.admits found then some (.next (some found) .plain) else none
      | none => none
    else none

/-- What one character does to the reader, by where the reader stands. -/
def QuoteState.step (kind : StringKind) : QuoteState → Char → Option QuoteStep
  | .plain, c => stepPlain kind c
  | .afterReturn, c => if c = '\n' then some (.next (some '\n') .plain) else none
  | .escape, c => stepEscape kind c
  | .firstDigit, c =>
    match hexDigit? c with
    | some d => if kind = .text ∧ 8 ≤ d then none else some (.next none (.secondDigit d))
    | none => none
  | .secondDigit high, c =>
    match hexDigit? c with
    | some d =>
      let value := high * 16 + d
      if kind = .zeroTerminated ∧ value = 0 then none
      else some (.next (some (Char.ofNat value)) .plain)
    | none => none
  | .brace, c => if c = '\x7b' then some (.next none (.codePoint 0 0)) else none
  | .codePoint digits value, c => stepCodePoint kind digits value c
  | .continuation, c =>
    if c = ' ' ∨ c = '\t' ∨ c = '\n' then some (.next none .continuation)
    else if c = '\r' then some (.next none .continuationReturn)
    else stepPlain kind c
  | .continuationReturn, c => if c = '\n' then some (.next none .continuation) else none

/-- Read a literal from inside it: the text it denotes and what follows the closing quote. -/
def readQuoted (kind : StringKind) : QuoteState → List Char → Option (List Char × List Char)
  | _, [] => none
  | state, c :: rest =>
    match state.step kind c with
    | none => none
    | some .close => some ([], rest)
    | some (.next found state') =>
      match readQuoted kind state' rest with
      | none => none
      | some (text, rest') => some (found.toList ++ text, rest')

/-- Read one escape from behind its backslash, as a character literal has it: what follows it. -/
def readEscape (kind : StringKind) : QuoteState → List Char → Option (List Char)
  | _, [] => none
  | state, c :: rest =>
    match state.step kind c with
    | some (.next (some _) _) => some rest
    | some (.next none .continuation) => none
    | some (.next none .continuationReturn) => none
    | some (.next none state') => readEscape kind state' rest
    | _ => none

/-! ### The raw form -/

/-- Whether the text begins with this many number signs. -/
def startsWithHashes : Nat → List Char → Bool
  | 0, _ => true
  | _ + 1, [] => false
  | n + 1, c :: rest => c == '#' && startsWithHashes n rest

/-- Read a raw literal from inside it: its text, and what follows the closing quote and hashes. -/
def readRaw (kind : StringKind) (hashes : Nat) : List Char → Option (List Char × List Char)
  | [] => none
  | c :: rest =>
    if c = '\x22' ∧ startsWithHashes hashes rest then some ([], rest.drop hashes)
    else if c = '\r' ∧ rest.head? ≠ some '\n' then none
    else if kind.admits c then (readRaw kind hashes rest).map fun (text, rest') => (c :: text, rest')
    else none

/-- The hashes and the quote that open a raw literal: how many, and what follows. -/
def openRaw (count : Nat) : List Char → Option (Nat × List Char)
  | '#' :: rest => openRaw (count + 1) rest
  | '\x22' :: rest => if count ≤ 255 then some (count, rest) else none
  | _ => none

/-- The text that a string literal of the text kind denotes, whatever its form and suffix. -/
def literalText? (literal : String) : Option String :=
  match literal.toList with
  | '\x22' :: rest => (readQuoted .text .plain rest).map fun (text, _) => String.ofList text
  | 'r' :: rest => do
    let (hashes, inside) ← openRaw 0 rest
    let (text, _) ← readRaw .text hashes inside
    return String.ofList text
  | _ => none

end DescriptionLookup.Text
