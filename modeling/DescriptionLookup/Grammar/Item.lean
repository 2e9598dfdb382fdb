import DescriptionLookup.Grammar.Statement

/-!
# Reading items
-/

namespace DescriptionLookup.Grammar

open Grammar.Parser

/-- What an item that nobody else may name can begin with. -/
def itemBeginnings : List Expected :=
  [.word "fn", .word "extern", .word "use", .word "static", .word "const", .word "unsafe",
    .word "mod", .word "type", .word "struct", .word "enum", .word "union", .word "trait",
    .word "auto", .word "impl", .word "default", .word "macro"]

/-- What an invocation can begin with. -/
def invocationBeginnings : List Expected :=
  [.identifier, .word "self", .word "super", .word "crate", .mark "::"]

/-! ### Functions -/

/-- Whether a function is declared here. `safe` says whether it may be declared safe. -/
def seesFunction (safe : Bool) : Parser Bool := do
  let found ← lookAhead do
    let _ ← optionalWord "const"
    let _ ← optionalWord "async"
    if !(← optionalWord "unsafe") && safe then
      let _ ← optionalWord "safe"
    optionalConvention
    seesWord "fn"
  return found.getD false

/-- The kinds of arguments of a function. -/
inductive ArgumentKind
  /-- The receiver of a method, and where its name stands. -/
  | receiver (pos : Position)
  | typed
  | variadic

/-- Whether the receiver of a method comes next, and no path or pattern that begins like one. -/
def seesReceiver : Parser Bool := do
  let found ← lookAhead do
    if ← optionalMark "&" then
      let _ ← optionalLifetime
    let _ ← optionalWord "mut"
    return (← seesWord "self") && !(← seesSecond (.mark "::"))
  return found.getD false

/-- Read the receiver of a method: where its name stands. -/
def receiver (g : Nonterminals) : Parser Position := do
  let byReference ← optionalMark "&"
  if byReference then
    let _ ← optionalLifetime
  let _ ← optionalWord "mut"
  let pos ← here
  word "self"
  if !byReference then
    if ← optionalMark ":" then anyType g
  return pos

/-- Read an argument of a function from behind its attributes. One that begins like a type with
arguments is a type without a name, and gets a low line for a name. -/
def functionArgument (g : Nonterminals) : Parser ArgumentKind := do
  if ← seesMark "..." then
    mark "..."
    return .variadic
  if ← seesReceiver then return .receiver (← receiver g)
  if (← sees .identifier) && (← seesSecond (.mark "<")) then
    let pos ← here
    record [.word "_" pos, .mark ':' false pos]
    anyType g
    return .typed
  let _ ← g.pattern
  mark ":"
  if ← optionalMark "..." then return .variadic
  anyType g
  return .typed

/-- Read the arguments of a function from inside their parentheses. The state is the number of
arguments so far, and whether a receiver is among them. -/
def functionArguments (g : Nonterminals) : Parser Unit :=
  repeated (fun (count, received) => do
    if ← atEnd then return .done ()
    let _ ← outerAttributes g
    let received ← match ← functionArgument g with
      | .variadic =>
        if !(← atEnd) then mark ","
        return .done ()
      | .receiver pos =>
        if received then complainAt pos .receiverRepeated
        if 0 < count then complainAt pos .receiverMisplaced
        pure true
      | .typed => pure received
    if ← atEnd then return .done ()
    mark ","
    return .again (count + 1, received)) ((0 : Nat), false)

/-- Read the declaration of a function up to its body: its name. -/
def signature (g : Nonterminals) (safe : Bool) : Parser String := do
  let _ ← optionalWord "const"
  let _ ← optionalWord "async"
  if !(← optionalWord "unsafe") && safe then
    let _ ← optionalWord "safe"
  optionalConvention
  word "fn"
  let name ← identifier
  let _ ← generics g
  let (_, left) ← openGroup .parenthesis (functionArguments g)
  resultType g true
  let _ ← optionalWhere g
  remember left
  return name

/-! ### Members of traits, implementations and extern blocks -/

/-- Read an invocation that is an item: the name it has of its own. -/
def invocation : Parser (Option String) := do
  let _ ← plainPath
  mark "!"
  let name ←
    if (← seesWord "try") || (← sees .identifier) then pure (some (← anyWord)) else pure none
  let (d, _) ← anyGroup
  if d ≠ .brace then mark ";"
  return name

/-- Read an invocation inside a trait, implementation or extern block. -/
def memberInvocation : Parser Unit := do
  let _ ← plainPath
  mark "!"
  let (d, _) ← anyGroup
  if d ≠ .brace then mark ";"

/-- Read bounds with plus signs between them until something in `stops` comes next; a plus stands
behind every bound that no stop follows. -/
def boundsBefore (g : Nonterminals) (constants : Bool) (stops : List Expected) : Parser Unit :=
  repeated (fun _ => do
    if ← seesAny stops then return .done ()
    let _ ← g.bound false constants
    if ← seesAny stops then return .done ()
    mark "+"
    return .again ()) ()

/-- Read the bounds behind a colon, if there is one, and say whether there is. A colon without bounds
has no transcript. -/
def optionalBounds (g : Nonterminals) (stops : List Expected) : Parser Bool := do
  if !(← seesMark ":") then return false
  let (_, colon) ← captured (mark ":")
  let (_, bounds) ← captured (boundsBefore g true stops)
  record (if bounds.isEmpty then [] else colon ++ bounds)
  return true

/-- Where the where clause of a type stands. -/
inductive WherePlace
  | beforeDefinition
  | afterDefinition
  | either

/-- What the declaration of a type holds. -/
structure TypeDeclaration where
  name : String
  /-- It has a colon with bounds, perhaps none. -/
  bounded : Bool
  /-- It says what the type is. -/
  defined : Bool

/-- Whether the declaration says what the type is, and nothing else about it. -/
def TypeDeclaration.isDefinition (d : TypeDeclaration) : Bool := d.defined && !d.bounded

/-- Read the declaration of a type from `type` on. -/
def typeDeclaration (g : Nonterminals) (place : WherePlace) : Parser TypeDeclaration := do
  word "type"
  let name ← identifier
  let _ ← generics g
  let bounded ← optionalBounds g [.word "where", .mark "=", .mark ";"]
  let early ← match place with
    | .afterDefinition => pure none
    | _ => optionalWhere g
  let defined ← optionalMark "="
  if defined then anyType g
  match place with
  | .beforeDefinition => pure ()
  | _ =>
    if early.isNone then
      let _ ← optionalWhere g
  mark ";"
  return { name, bounded, defined }

/-- Read the name of a constant, which may be a low line. -/
def constantName : Parser String := do
  if ← seesAny [.identifier, .word "_"] then anyWord
  else missingOneOf [.identifier, .word "_"]

/-- What the declaration of a constant holds. -/
structure ConstantDeclaration where
  /-- It has parameters or a where clause. -/
  parametric : Bool
  /-- It says what the value is. -/
  defined : Bool

/-- Read the declaration of a constant from behind its name. -/
def constantDeclaration (g : Nonterminals) : Parser ConstantDeclaration := do
  let params ← generics g
  mark ":"
  anyType g
  let defined ← optionalMark "="
  if defined then anyExpression g
  let predicates ← optionalWhere g
  mark ";"
  return { parametric := params.isSome || predicates.isSome, defined }

/-- Read a block of statements as the body of a function. -/
def body (g : Nonterminals) : Parser (List Attribute) :=
  braces do
    let attributes ← innerAttributes g
    g.statements
    return attributes

/-- Whether a member has no visibility of its own and no `default` before it. -/
def isBare (visibility : Visibility) (specialized : Bool) : Bool :=
  match visibility with
  | .inherited => !specialized
  | _ => false

/-- Read a member of a trait. One that a trait cannot have, because it has a visibility, a `default`
before it, or is a constant with parameters, is kept as it is spelled. -/
def traitMember (g : Nonterminals) : Parser Unit := do
  let _ ← verbatimIf (fun irregular => irregular) do
    let _ ← outerAttributes g
    let visible ← visibility
    let specialized ← optionalWord "default"
    let bare := isBare visible specialized
    if ← seesFunction false then
      traitFunction
      return !bare
    else if ← seesWord "const" then
      if (← seesSecond (.word "async")) || (← seesSecond (.word "unsafe")) ||
          (← seesSecond (.word "extern")) then
        traitFunction
        return !bare
      else
        word "const"
        if !(← seesAny [.identifier, .word "_"]) then
          missingOneOf [.identifier, .word "_", .word "async", .word "unsafe", .word "extern",
            .word "fn"]
        let _ ← anyWord
        return (← constantDeclaration g).parametric || !bare
    else if ← seesWord "type" then
      let _ ← typeDeclaration g .afterDefinition
      return !bare
    else if bare && (← seesAny invocationBeginnings) then
      memberInvocation
      return false
    else
      missingOneOf ([.word "fn", .word "const", .word "type"] ++
        if bare then invocationBeginnings else [])
where
  /-- Read a function of a trait, which may have no body. -/
  traitFunction : Parser Unit := do
    let _ ← signature g false
    if ← seesBraces then
      let _ ← body g
    else if ← seesMark ";" then mark ";"
    else missingOneOf [.group .brace, .mark ";"]

/-- Read a member of an implementation. One that an implementation cannot have, because it says
nothing of the body, value or type, is kept as it is spelled. -/
def implMember (g : Nonterminals) : Parser Unit := do
  let _ ← verbatimIf (fun irregular => irregular) do
    let _ ← outerAttributes g
    let visible ← visibility
    let specialized ←
      if (← seesWord "default") && !(← seesSecond (.mark "!")) then optionalWord "default"
      else pure false
    let bare := isBare visible specialized
    if ← seesFunction false then
      let _ ← signature g false
      if ← optionalMark ";" then return true
      let _ ← body g
      return false
    else if ← optionalWord "const" then
      let _ ← constantName
      let constant ← constantDeclaration g
      return constant.parametric || !constant.defined
    else if ← seesWord "type" then
      return !(← typeDeclaration g .afterDefinition).isDefinition
    else if bare && (← seesAny invocationBeginnings) then
      memberInvocation
      return false
    else
      missingOneOf ((if specialized then [] else [.word "default"]) ++
        [.word "fn", .word "const", .word "type"] ++ if bare then invocationBeginnings else [])

/-- Read a static of an extern block from behind its visibility, and say whether it has a value or a
word that says whether it is safe. -/
def foreignStatic (g : Nonterminals) : Parser Bool := do
  let qualified ← if ← optionalWord "unsafe" then pure true else optionalWord "safe"
  word "static"
  let _ ← optionalWord "mut"
  let _ ← identifier
  mark ":"
  anyType g
  let valued ← optionalMark "="
  if valued then anyExpression g
  mark ";"
  return qualified || valued

/-- Whether a function that comes next is declared safe. -/
def seesSafeFunction : Parser Bool := do
  let found ← lookAhead do
    let _ ← optionalWord "const"
    let _ ← optionalWord "async"
    seesWord "safe"
  return found.getD false

/-- Read a member of an extern block. One with a body, value or definition of its own, or with a word
that says that it is safe, is kept as it is spelled. -/
def foreignMember (g : Nonterminals) : Parser Unit := do
  let _ ← verbatimIf (fun irregular => irregular) do
    let _ ← outerAttributes g
    let bare := isBare (← visibility) false
    if ← seesFunction true then
      let safe ← seesSafeFunction
      let _ ← signature g true
      if ← seesBraces then
        let _ ← body g
        return true
      mark ";"
      return safe
    else if (← seesWord "static") ||
        ((← seesAny [.word "unsafe", .word "safe"]) && (← seesSecond (.word "static"))) then
      foreignStatic g
    else if ← seesWord "type" then
      let declaration ← typeDeclaration g .either
      return declaration.bounded || declaration.defined
    else if bare && (← seesAny invocationBeginnings) then
      memberInvocation
      return false
    else
      missingOneOf ([.word "fn", .word "static", .word "type"] ++
        if bare then invocationBeginnings else [])

/-! ### Imports -/

/-- What an import may begin with. -/
def useBeginnings : List Expected :=
  [.identifier, .word "self", .word "super", .word "crate", .word "try", .mark "*", .group .brace]

/-- The tree of an import. `none` stands for a tree that begins a path anew inside braces, which
imports nothing that the program can follow. -/
abbrev UseTree? := Option UseTree

/-- Read what an import binds a name to. -/
def useBinding : Parser String := do
  if ← sees .identifier then identifier
  else if ← seesWord "_" then anyWord
  else missingOneOf [.identifier, .underscore]

/-- Read the tree of an import, with at most `depth` trees nested in it. `anew` says whether a path
may begin with `::` inside braces. -/
def useTree (anew : Bool) : Nat → Parser UseTree?
  | 0 => complain .nestedTooDeeply
  | depth + 1 => do
    if ← seesAny [.identifier, .word "self", .word "super", .word "crate", .word "try"] then
      let name ← anyWord
      if ← optionalMark "::" then
        return (← useTree false depth).map (.path name ·)
      if ← optionalWord "as" then return some (.rename name (← useBinding))
      return some (.name name)
    if ← optionalMark "*" then return some .glob
    if ← seesBraces then
      braces do
        let trees ← commaSeparated do
          let restarts ← if anew then optionalMark "::" else pure false
          let tree ← useTree (anew && !restarts) depth
          return if restarts then none else tree
        return (trees.mapM id).map .group
    else missingOneOf useBeginnings

/-- Read an import from behind its visibility. -/
def useItem : Parser Item := do
  word "use"
  let absolute ← optionalMark "::"
  let depth := TokenTree.sizeAll (← get).rest + 1
  let tree ← useTree (!absolute) depth
  mark ";"
  match tree with
  | some tree => return .imports absolute tree
  | none => return .irregular

/-! ### Structs, enums and unions -/

/-- Read a field with a name. -/
def namedField (g : Nonterminals) : Parser Unit := do
  let _ ← outerAttributes g
  let _ ← visibility
  if ← seesWord "_" then
    word "_"
    mark ":"
    if (← seesWord "struct") || ((← seesWord "union") && (← seesSecond (.group .brace))) then
      verbatim do
        let _ ← anyWord
        g.fields
    else anyType g
  else
    let _ ← identifier
    mark ":"
    anyType g

/-- Read a field without a name. -/
def unnamedField (g : Nonterminals) : Parser Unit := do
  let _ ← outerAttributes g
  let _ ← visibility
  anyType g

/-- Read fields with names, in braces. -/
def namedFields (g : Nonterminals) : Parser Unit :=
  braces do
    let _ ← commaSeparated (namedField g)

/-- Read fields without names, in parentheses. -/
def unnamedFields (g : Nonterminals) : Parser Unit :=
  parentheses do
    let _ ← commaSeparated (unnamedField g)

/-- Read a variant of an enum. A visibility in front of it is read, but not kept. -/
def variant (g : Nonterminals) : Parser Variant := do
  let attributes ← outerAttributes g
  let _ ← silently visibility
  let name ← identifier
  let isUnit ←
    if ← seesBraces then
      namedFields g
      pure false
    else if ← seesParentheses then
      unnamedFields g
      pure false
    else pure true
  if ← optionalMark "=" then anyExpression g
  return { attributes, name, isUnit }

/-- Read an enum from behind its visibility. The places of its tokens are not kept. -/
def enumDecl (g : Nonterminals) (attributes : List Attribute) (visibility : Visibility) :
    Parser EnumDecl := do
  word "enum"
  let name ← identifier
  let params ← generics g
  let predicates ← optionalWhere g
  let variants ← braces (commaSeparated (variant g))
  return { attributes, visibility, name,
           generics := (params.getD []).map GenericParam.placeless,
           predicates := (predicates.getD []).map TokenTree.placelessAll, variants }

/-- Read a struct from behind its visibility: its name and parameters. -/
def structDecl (g : Nonterminals) : Parser (String × Generics) := do
  word "struct"
  let name ← identifier
  let params ← generics g
  let early ← optionalWhere g
  let rest ← if early.isNone then pure [.group .parenthesis] else pure []
  if early.isNone && (← seesParentheses) then
    unnamedFields g
    let late ← optionalWhere g
    if !(← optionalMark ";") then
      missingOneOf ((if late.isNone then [.word "where"] else []) ++ [.mark ";"])
  else if ← seesBraces then namedFields g
  else if !(← optionalMark ";") then
    missingOneOf ((if early.isNone then [.word "where"] else []) ++ rest ++
      [.group .brace, .mark ";"])
  return (name, params.getD [])

/-- Read a union from behind its visibility: its name and parameters. -/
def unionDecl (g : Nonterminals) : Parser (String × Generics) := do
  word "union"
  let name ← identifier
  let params ← generics g
  let _ ← optionalWhere g
  namedFields g
  return (name, params.getD [])

/-! ### Items -/

/-- The complaint that a block of foreign items cannot have a visibility. -/
def foreignBlock (g : Nonterminals) (start : State) (visible : Visibility) : Parser Item := do
  match visible with
  | .inherited => pure ()
  | _ =>
    set start
    missing (.word "extern")
  let _ ← optionalWord "unsafe"
  convention
  braces do
    let _ ← innerAttributes g
    let _ ← untilEnd (foreignMember g)
  return .unnamed

/-- Read an extern crate or a block of foreign items; `start` is the state before the visibility. -/
def externItem (g : Nonterminals) (start : State) (visible : Visibility) : Parser Item := do
  if ← seesSecond (.word "crate") then
    word "extern"
    word "crate"
    let name ← if ← seesWord "self" then anyWord else identifier
    let binding ←
      if ← optionalWord "as" then
        if ← seesWord "_" then anyWord else identifier
      else pure name
    mark ";"
    return .externCrate name binding
  if ← seesSecond (.group .brace) then return ← foreignBlock g start visible
  if ← seesSecond .stringLiteral then
    if !(← seesThird (.group .brace)) then
      word "extern"
      let _ ← literal
      missing (.group .brace)
    return ← foreignBlock g start visible
  word "extern"
  missingOneOf [.word "crate", .group .brace, .stringLiteral]

/-- Read a static from behind its visibility. -/
def staticItem (g : Nonterminals) : Parser Item := do
  word "static"
  let _ ← optionalWord "mut"
  let name ← identifier
  if ← optionalMark "=" then
    anyExpression g
    mark ";"
    return .irregular
  mark ":"
  anyType g
  if ← optionalMark ";" then return .irregular
  mark "="
  anyExpression g
  mark ";"
  return .named .static name

/-- Read a module from behind its visibility. -/
def moduleItem (g : Nonterminals) (attributes : List Attribute) (visibility : Visibility) :
    Parser Item := do
  let _ ← optionalWord "unsafe"
  word "mod"
  let name ← if ← seesWord "try" then anyWord else identifier
  if ← optionalMark ";" then return .fileModule { attributes, visibility, name }
  if ← seesBraces then
    braces do
      let inner ← innerAttributes g
      let items ← untilEnd g.item
      return .inlineModule { attributes := attributes ++ inner, visibility, name } items
  else missingOneOf [.mark ";", .group .brace]

/-- Read the supertraits, where clause and members of a trait. -/
def restOfTrait (g : Nonterminals) : Parser Unit := do
  let _ ← optionalBounds g [.word "where", .group .brace]
  let _ ← optionalWhere g
  braces do
    let _ ← innerAttributes g
    let _ ← untilEnd (traitMember g)

/-- Read a trait or another name for bounds, from behind the words before `trait`. -/
def traitItem (g : Nonterminals) (alias? : Bool) : Parser Item := do
  word "trait"
  let name ← identifier
  let _ ← generics g
  if alias? then
    if ← seesMark "=" then
      mark "="
      boundsBefore g false [.word "where", .mark ";"]
      let _ ← optionalWhere g
      mark ";"
      return .named .traitAlias name
    if !(← seesAny [.group .brace, .mark ":", .word "where"]) then
      missingOneOf [.group .brace, .mark ":", .word "where", .mark "="]
  restOfTrait g
  return .named .trait name

/-- Whether a type can be the trait of an implementation. -/
def TypeShape.isPath : TypeShape → Bool
  | .path _ => true
  | _ => false

/-- Read an implementation from behind its visibility. One with a visibility, one for constants, and
one of what is no trait are irregular. -/
def implItem (g : Nonterminals) (visible : Visibility) : Parser Item := do
  let _ ← optionalWord "default"
  let _ ← optionalWord "unsafe"
  word "impl"
  if ← seesDeclaration then
    let _ ← generics g
  let forConst :=
    (← seesWord "const") || ((← seesMark "?") && (← seesSecond (.word "const")))
  if forConst then
    let _ ← optionalMark "?"
    word "const"
  let pos ← here
  let negative ←
    if (← seesMark "!") && !(← seesSecond (.group .brace)) then optionalMark "!" else pure false
  let shape ← g.type true
  let ofTrait ← optionalWord "for"
  if ofTrait then anyType g
  else if negative then complainAt pos .negativeInherent
  let _ ← optionalWhere g
  braces do
    let _ ← innerAttributes g
    let _ ← untilEnd (implMember g)
  if !isBare visible false || forConst || (ofTrait && !shape.isPath) then return .irregular
  return .unnamed

/-- Read the rules that `macro` declares. -/
def rulesItem : Parser Item := do
  word "macro"
  let _ ← identifier
  let wanted ←
    if ← seesParentheses then
      parentheses everything
      pure [.group .brace]
    else pure [.group .parenthesis, .group .brace]
  if ← seesBraces then
    braces everything
    return .irregular
  else missingOneOf wanted

/-- Read an item that begins with `unsafe`; `start` is the state before the visibility. -/
def unsafeItem (g : Nonterminals) (start : State) (attributes : List Attribute)
    (visible : Visibility) : Parser Item := do
  if ← seesSecond (.word "trait") then
    word "unsafe"
    traitItem g false
  else if (← seesSecond (.word "auto")) && (← seesThird (.word "trait")) then
    word "unsafe"
    word "auto"
    traitItem g false
  else if ← seesSecond (.word "impl") then implItem g visible
  else if ← seesSecond (.word "extern") then foreignBlock g start visible
  else if ← seesSecond (.word "mod") then moduleItem g attributes visible
  else
    word "unsafe"
    missingOneOf [.word "trait", .word "auto", .word "impl", .word "extern", .word "mod"]

/-- Whether an item is kept as it is spelled. -/
def isIrregular : Item → Bool
  | .irregular => true
  | _ => false

/-- Read an item. -/
def item (g : Nonterminals) : Parser Item :=
  verbatimIf isIrregular do
    let attributes ← outerAttributes g
    let start ← get
    let visible ← visibility
    let bare := isBare visible false
    if ← seesFunction false then
      let name ← signature g false
      if ← optionalMark ";" then return .irregular
      let _ ← body g
      return .named .function name
    else if ← seesWord "extern" then externItem g start visible
    else if ← seesWord "use" then useItem
    else if ← seesWord "static" then staticItem g
    else if ← optionalWord "const" then
      let name ← constantName
      let constant ← constantDeclaration g
      if constant.defined && !constant.parametric then return .named .constant name
      return .irregular
    else if ← seesWord "unsafe" then unsafeItem g start attributes visible
    else if ← seesWord "mod" then moduleItem g attributes visible
    else if ← seesWord "type" then
      let declaration ← typeDeclaration g .beforeDefinition
      if declaration.isDefinition then return .named .typeAlias declaration.name
      return .irregular
    else if ← seesWord "struct" then
      return .named .struct (← structDecl g).1
    else if ← seesWord "enum" then
      return .enumeration (← enumDecl g attributes visible)
    else if (← seesWord "union") && (← seesSecond .identifier) then
      return .named .union (← unionDecl g).1
    else if ← seesWord "trait" then traitItem g true
    else if (← seesWord "auto") && (← seesSecond (.word "trait")) then
      word "auto"
      traitItem g false
    else if (← seesWord "impl") || ((← seesWord "default") && !(← seesSecond (.mark "!"))) then
      implItem g visible
    else if ← seesWord "macro" then rulesItem
    else if bare && (← seesAny invocationBeginnings) then
      match ← invocation with
      | some name => return .named .rules name
      | none => return .unnamed
    else missingOneOf (itemBeginnings ++ if bare then invocationBeginnings else [])

end DescriptionLookup.Grammar
