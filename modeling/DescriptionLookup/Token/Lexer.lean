import DescriptionLookup.Token.Literal

/-!
# From text to token trees

A text is first cut into lexemes: delimiters and single tokens, each with its place. White space and
ordinary comments vanish; a documentation comment becomes the attribute it stands for. Then the
delimiters are matched. Both parts stop at the first character that cannot be read, and the earlier
stop is the one reported.
-/

namespace DescriptionLookup

open Text Token

/-- A delimiter or a single token. -/
inductive Lexeme
  | opening (delimiter : Delimiter) (pos : Position)
  | closing (delimiter : Delimiter) (pos : Position)
  | leaf (token : TokenTree)

namespace Lexeme

/-! ### Comments -/

/-- The content of a line comment from behind its slashes, and what follows it: the line break
remains, a carriage return before it does not. -/
def lineComment : List Char → List Char × List Char
  | [] => ([], [])
  | '\n' :: rest => ([], '\n' :: rest)
  | '\r' :: '\n' :: rest => ([], '\n' :: rest)
  | c :: rest =>
    let (content, rest') := lineComment rest
    (c :: content, rest')

/-- The content of a block comment from behind its opening, with `depth` openings inside it still
unclosed, and what follows it. -/
def blockComment (depth : Nat) : List Char → Option (List Char × List Char)
  | '/' :: '*' :: rest =>
    (blockComment (depth + 1) rest).map fun (content, rest') => ('/' :: '*' :: content, rest')
  | '*' :: '/' :: rest =>
    if depth = 0 then some ([], rest)
    else (blockComment (depth - 1) rest).map fun (content, rest') => ('*' :: '/' :: content, rest')
  | c :: rest => (blockComment depth rest).map fun (content, rest') => (c :: content, rest')
  | [] => none

/-- Whether every carriage return is followed by a line feed. -/
def returnsPaired : List Char → Bool
  | [] => true
  | '\r' :: rest => rest.head? == some '\n' && returnsPaired rest
  | _ :: rest => returnsPaired rest

/-- The two kinds of comments that document something: what follows or what encloses them. -/
inductive Comment
  | plain
  | documents (enclosing : Bool) (content : List Char)

/-- The comment at the start of a text, and what follows it; `none` if there is no comment or if it
does not end. -/
def comment? : List Char → Option (Comment × List Char)
  | '/' :: '/' :: '!' :: rest =>
    let (content, rest') := lineComment rest
    some (.documents true content, rest')
  | '/' :: '/' :: '/' :: '/' :: rest => some (.plain, (lineComment rest).2)
  | '/' :: '/' :: '/' :: rest =>
    let (content, rest') := lineComment rest
    some (.documents false content, rest')
  | '/' :: '/' :: rest => some (.plain, (lineComment rest).2)
  | '/' :: '*' :: '!' :: rest =>
    (blockComment 0 rest).map fun (content, rest') => (.documents true content, rest')
  | '/' :: '*' :: '*' :: '/' :: rest => some (.plain, rest)
  | '/' :: '*' :: '*' :: '*' :: rest =>
    (blockComment 0 ('*' :: '*' :: rest)).map fun (_, rest') => (.plain, rest')
  | '/' :: '*' :: '*' :: rest =>
    (blockComment 0 rest).map fun (content, rest') => (.documents false content, rest')
  | '/' :: '*' :: rest => (blockComment 0 rest).map fun (_, rest') => (.plain, rest')
  | _ => none

/-- The attribute that a documentation comment stands for. All its tokens begin where the comment
does, and its bracket closes at the comment's last character. -/
def ofDocumentation (enclosing : Bool) (content : List Char) (first last : Position) :
    List Lexeme :=
  [leaf (.mark '#' false first)] ++
    (if enclosing then [leaf (.mark '!' false first)] else []) ++
    [opening .bracket first, leaf (.word "doc" first), leaf (.mark '=' false first),
      leaf (.literal (quoted (String.ofList content)) first), closing .bracket last]

/-! ### Single tokens -/

/-- The punctuation mark at the start of a text; a comment does not start with one. -/
def mark? : List Char → Option Char
  | '/' :: '/' :: _ => none
  | '/' :: '*' :: _ => none
  | c :: _ => if isMark c then some c else none
  | [] => none

/-- An apostrophe begins a lifetime if a word follows it that no further apostrophe ends. -/
def beginsLifetime (text : List Char) : Bool :=
  match afterWord? text with
  | none => false
  | some rest =>
    rest.head? != some '\x27' && (rest.head? != some '#' || ['r', '#'].isPrefixOf text)

/-- The single token at the start of a text, and what follows it. -/
def token? (pos : Position) (text : List Char) : Option (TokenTree × List Char) :=
  match afterLiteral? text with
  | some rest => some (.literal (String.ofList (before text rest)) pos, rest)
  | none =>
    match mark? text with
    | some c =>
      let rest := text.drop 1
      if c = '\x27' then
        if beginsLifetime rest then some (.mark c true pos, rest) else none
      else some (.mark c (mark? rest).isSome pos, rest)
    | none =>
      match afterPlainWord? text with
      | some rest => some (.word (String.ofList (before text rest)) pos, rest)
      | none =>
        if errorLiteral.isPrefixOf text then
          some (.literal (String.ofList errorLiteral) pos, text.drop errorLiteral.length)
        else none

/-- The lexemes at the start of a text, none of them for blanks and plain comments, and what follows
them; `none` if nothing can be read. -/
def next? (pos : Position) (text : List Char) : Option (List Lexeme × List Char) :=
  match text with
  | [] => none
  | c :: rest =>
    if isBlank c then some ([], rest.dropWhile isBlank)
    else
      match comment? text with
      | some (.plain, rest') => some ([], rest')
      | some (.documents enclosing content, rest') =>
        if returnsPaired content then
          some (ofDocumentation enclosing content pos
            (pos.afterAll (before text rest').dropLast), rest')
        else none
      | none =>
        match Delimiter.ofClosing? c with
        | some d => some ([closing d pos], rest)
        | none =>
          match Delimiter.ofOpening? c with
          | some d =>
            if errorLiteral.isPrefixOf text then
              (token? pos text).map fun (token, rest') => ([leaf token], rest')
            else some ([opening d pos], rest)
          | none => (token? pos text).map fun (token, rest') => ([leaf token], rest')

/-- The lexemes of a text, and the place of the first character that cannot be read. -/
def ofText (pos : Position) (text : List Char) : List Lexeme × Option Position :=
  if text.isEmpty then ([], none)
  else
    match next? pos text with
    | none => ([], some pos)
    | some (lexemes, rest) =>
      if rest.length < text.length then
        let (more, stuck) := ofText (pos.afterAll (before text rest)) rest
        (lexemes ++ more, stuck)
      else ([], some pos)
termination_by text.length

end Lexeme

namespace TokenTree

/-- A group whose closing delimiter is still to come: what stood before it, in reverse. -/
structure OpenGroup where
  delimiter : Delimiter
  opened : Position
  outer : List TokenTree

/-- Match the delimiters among lexemes, with the groups still open and the trees read so far in the
innermost of them, in reverse. `stuck` is where the text could not be read any further. -/
def nest (stuck : Option Position) :
    List OpenGroup → List TokenTree → List Lexeme → Except Position (List TokenTree)
  | groups, trees, [] =>
    match stuck, groups with
    | some pos, _ => .error pos
    | none, [] => .ok trees.reverse
    | none, innermost :: _ => .error innermost.opened
  | groups, trees, .leaf token :: rest => nest stuck groups (token :: trees) rest
  | groups, trees, .opening d pos :: rest => nest stuck (⟨d, pos, trees⟩ :: groups) [] rest
  | [], _, .closing _ pos :: _ => .error pos
  | innermost :: groups, trees, .closing d pos :: rest =>
    if innermost.delimiter = d then
      nest stuck groups (.group d trees.reverse innermost.opened pos :: innermost.outer) rest
    else .error pos

/-- The token trees of a text that begins at a place. -/
def ofChars (pos : Position) (text : List Char) : Except Position (List TokenTree) :=
  let (lexemes, stuck) := Lexeme.ofText pos text
  nest stuck [] [] lexemes

/-- The token trees of a text, or the place of the first character that cannot be read. A byte order
mark at the start is no token, but it has a column. -/
def ofText (text : String) : Except Position (List TokenTree) :=
  match text.toList with
  | '\ufeff' :: rest => ofChars (Position.start.after '\ufeff') rest
  | chars => ofChars Position.start chars

end TokenTree

end DescriptionLookup
