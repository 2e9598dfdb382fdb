import DescriptionLookup.Token.Basic

/-!
# Where words, numbers and other literals end

Each function here looks for one kind of token at the start of a text and answers with what follows
it, or with nothing if the text does not begin with such a token. A literal may carry a suffix, an
identifier that follows it without a gap.
-/

namespace DescriptionLookup.Token

open Text

/-! ### Words -/

/-- What follows an identifier without `r#`. -/
def afterIdentifier? : List Char → Option (List Char)
  | c :: rest => if isIdentifierStart c then some (rest.dropWhile isIdentifierPart) else none
  | [] => none

/-- What stands before the rest of a text. -/
def before (text rest : List Char) : List Char := text.take (text.length - rest.length)

@[simp] theorem before_append (taken rest : List Char) : before (taken ++ rest) rest = taken := by
  simp [before]

/-- The words that have no raw form. -/
def neverRaw : List String := ["_", "super", "self", "Self", "crate"]

/-- What follows a word, raw or not. -/
def afterWord? : List Char → Option (List Char)
  | 'r' :: '#' :: rest => do
    let rest' ← afterIdentifier? rest
    if neverRaw.contains (String.ofList (before rest rest')) then none else some rest'
  | text => afterIdentifier? text

/-- The suffix of a literal is optional. -/
def skipSuffix (text : List Char) : List Char := (afterIdentifier? text).getD text

/-! ### Numbers -/

/-- What follows the digits of a whole number; `none` for a digit too large for the base, or if
there is no digit at all. -/
def afterDigits? (base : Nat) (empty : Bool) : List Char → Option (List Char)
  | [] => if empty then none else some []
  | c :: rest =>
    match hexDigit? c with
    | some d =>
      if d < base then afterDigits? base false rest
      else if d < 10 then none
      else if empty then none
      else some (c :: rest)
    | none =>
      if c = '_' then
        if empty ∧ base = 10 then none else afterDigits? base empty rest
      else if empty then none
      else some (c :: rest)

/-- A number ends where no identifier could go on. -/
def endOfNumber? (text : List Char) : Option (List Char) :=
  let rest := skipSuffix text
  if rest.head?.any isIdentifierPart then none else some rest

/-- What follows a whole number. -/
def afterWhole? (text : List Char) : Option (List Char) := do
  let rest ← match text with
    | '0' :: 'x' :: digits => afterDigits? 16 true digits
    | '0' :: 'o' :: digits => afterDigits? 8 true digits
    | '0' :: 'b' :: digits => afterDigits? 2 true digits
    | digits => afterDigits? 10 true digits
  endOfNumber? rest

/-- What follows an exponent, from behind its `e`; `fallback` is the answer if it turns out to be
none. -/
def afterExponent? (fallback : Option (List Char)) (signed valued : Bool) :
    List Char → Option (List Char)
  | [] => if valued then some [] else fallback
  | c :: rest =>
    if c = '+' ∨ c = '-' then
      if valued then some (c :: rest)
      else if signed then fallback
      else afterExponent? fallback true valued rest
    else if c.isDigit then afterExponent? fallback signed true rest
    else if c = '_' then afterExponent? fallback signed valued rest
    else if valued then some (c :: rest)
    else fallback

/-- What follows the digits, point and exponent of a fraction, from behind its first digit; there
must be a point or an exponent. -/
def afterFraction? (pointed : Bool) : List Char → Option (List Char)
  | [] => if pointed then some [] else none
  | c :: rest =>
    if c.isDigit ∨ c = '_' then afterFraction? pointed rest
    else if c = '.' then
      if pointed then some (c :: rest)
      else if rest.head?.any (fun d => d == '.' || isIdentifierStart d) then none
      else afterFraction? true rest
    else if c = 'e' ∨ c = 'E' then
      afterExponent? (if pointed then some (c :: rest) else none) false false rest
    else if pointed then some (c :: rest)
    else none

/-- What follows a number with a point or an exponent. -/
def afterFloat? : List Char → Option (List Char)
  | c :: rest => if c.isDigit then (afterFraction? false rest).bind endOfNumber? else none
  | [] => none

/-! ### Strings and characters -/

/-- What follows a string of the given kind, from behind the letters that introduce it. -/
def afterString? (kind : StringKind) : List Char → Option (List Char)
  | '\x22' :: rest => (readQuoted kind .plain rest).map fun (_, rest') => skipSuffix rest'
  | _ => none

/-- What follows a raw string, from behind its `r`. -/
def afterRawString? (kind : StringKind) (text : List Char) : Option (List Char) := do
  let (hashes, inside) ← openRaw 0 text
  let (_, rest) ← readRaw kind hashes inside
  return skipSuffix rest

/-- What follows a quoted character or byte, from behind the opening quote. -/
def afterQuotedChar? (kind : StringKind) : List Char → Option (List Char)
  | '\x5c' :: rest => (readEscape kind .escape rest).bind closing
  | c :: rest => if kind.admits c then closing rest else none
  | [] => none
where
  /-- The quote that ends the character, and a suffix. -/
  closing : List Char → Option (List Char)
    | '\x27' :: rest => some (skipSuffix rest)
    | _ => none

/-- The text that stands for a literal lost to an earlier error. -/
def errorLiteral : List Char := "(/*ERROR*/)".toList

/-- What follows a literal of any kind. -/
def afterLiteral? (text : List Char) : Option (List Char) :=
  (match text with
    | 'r' :: rest => afterRawString? .text rest
    | 'b' :: 'r' :: rest => afterRawString? .bytes rest
    | 'b' :: '\x27' :: rest => afterQuotedChar? .bytes rest
    | 'b' :: rest => afterString? .bytes rest
    | 'c' :: 'r' :: rest => afterRawString? .zeroTerminated rest
    | 'c' :: rest => afterString? .zeroTerminated rest
    | '\x27' :: rest => afterQuotedChar? .text rest
    | _ => afterString? .text text)
  <|> afterFloat? text <|> afterWhole? text

/-- The beginnings that look like a word but belong to a string. -/
def stringOpenings : List (List Char) :=
  ["r\x22", "r#\x22", "r##", "b\x22", "b\x27", "br\x22", "br#", "c\x22", "cr\x22", "cr#"].map
    String.toList

/-- What follows a word that is not the beginning of a string. -/
def afterPlainWord? (text : List Char) : Option (List Char) :=
  if stringOpenings.any (·.isPrefixOf text) then none else afterWord? text

/-- Whether a text is one word, raw or not, and nothing else. -/
def isWord (text : List Char) : Bool := afterPlainWord? text == some []

end DescriptionLookup.Token
