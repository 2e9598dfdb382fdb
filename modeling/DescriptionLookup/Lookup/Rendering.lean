import DescriptionLookup.Lookup.Draft
import DescriptionLookup.Lookup.Member

/-!
# Lookups of an enum

What is generated for an enum: a lookup from its values to texts, and for an enum that is no more
than a list of names a lookup from numbers as well. Both are first built as arms and constants,
which say under which gates a value is described and by what text; only then are they written as
lines of code.
-/

namespace DescriptionLookup

/-! ### Number types -/

/-- The number types that can represent an enum. -/
def numberTypes : List String :=
  ["i8", "i16", "i32", "i64", "i128", "isize", "u8", "u16", "u32", "u64", "u128", "usize"]

/-- The number type of an enum that declares none. -/
def defaultNumberType : String := "isize"

/-- The number type that a representation attribute declares. -/
def declaredNumberType? (a : Attribute) : Option String :=
  ((Grammar.listArgument? Grammar.attributeBody a).getD []).findSome? fun element =>
    element.path.name?.filter numberTypes.contains

/-- The number type of an enum, if its values are numbered: it has no parameters, and all its
variants are without data. -/
def EnumDecl.numberType? (decl : EnumDecl) : Option String :=
  if decl.generics.isEmpty && decl.variants.all (·.isUnit) then
    some (((decl.attributes.filter (·.isNamed "repr")).findSome? declaredNumberType?).getD
      defaultNumberType)
  else none

/-! ### Arms and constants -/

/-- An arm of a lookup: the text for a pattern, in the builds that the gates select. -/
structure Arm where
  gates : List String
  pattern : String
  description : String
deriving DecidableEq

/-- The number of a variant as a constant, in the builds that the gates select. -/
structure NumberConstant where
  gates : List String
  name : String
  /-- The path of the variant. -/
  variant : String
deriving DecidableEq

/-- What is known of an enum when its lookups are generated. -/
structure EnumLookup where
  /-- The path of the enum. -/
  path : String
  gates : List String
  generics : Generics
  /-- The predicates of its where clause. -/
  predicates : List (List TokenTree)
  members : List Member
  numberType? : Option String

/-- The lookups of an enum with this path. -/
def EnumLookup.ofDecl (path : String) (gates : List String) (textAttribute : String)
    (decl : EnumDecl) : EnumLookup where
  path
  gates
  generics := decl.generics
  predicates := decl.predicates
  members := decl.members textAttribute
  numberType? := decl.numberType?

namespace EnumLookup

/-- The path of a member. -/
def memberPath (e : EnumLookup) (m : Member) : String := e.path ++ "::" ++ m.pattern

/-- The arms of the lookup by value. -/
def valueArms (e : EnumLookup) : List Arm :=
  e.members.map fun m => ⟨m.gates, e.memberPath m, m.description⟩

/-- The name of the constant for the member at an index. -/
def constantName (index : Nat) : String := "D" ++ toString index

/-- The constants of the lookup by number. -/
def constants (e : EnumLookup) : List NumberConstant :=
  e.members.mapIdx fun index m => ⟨m.gates, constantName index, e.memberPath m⟩

/-- The arms of the lookup by number. -/
def numberArms (e : EnumLookup) : List Arm :=
  e.members.mapIdx fun index m => ⟨m.gates, constantName index, m.description⟩

end EnumLookup

/-! ### Lines -/

/-- The lines of gates, each in front of what it applies to. -/
def gateLines (level : Nat) (gates : List String) : List Line := gates.map (⟨level, ·⟩)

/-- The lines of an arm. -/
def Arm.lines (a : Arm) : List Line :=
  gateLines 4 a.gates ++
    [⟨4, a.pattern ++ " => Cow::Borrowed(" ++ Text.quoted a.description ++ "),"⟩]

/-- The lines of a constant of a number type. -/
def NumberConstant.lines (c : NumberConstant) (numberType : String) : List Line :=
  gateLines 3 c.gates ++
    [⟨3, "const " ++ c.name ++ ": " ++ numberType ++ " = " ++ c.variant ++ " as " ++ numberType ++
      ";"⟩]

namespace EnumLookup

/-- The lines that open the implementation of the lookup by value. The values of an enum with
parameters have to be printable for those that no arm describes. -/
def valueHeader (e : EnumLookup) : List Line :=
  if e.generics.isEmpty then [⟨1, "impl EnumDescription for " ++ e.path ++ " \x7b"⟩]
  else
    [⟨1, "impl" ++ TokenTree.text e.generics.declaration ++ " EnumDescription for " ++ e.path ++
        TokenTree.text e.generics.arguments⟩,
      ⟨1, "where"⟩,
      ⟨2, "Self: ::core::fmt::Debug,"⟩] ++
      e.predicates.map (fun predicate => ⟨2, TokenTree.text predicate ++ ","⟩) ++
      [⟨1, "\x7b"⟩]

/-- The lines of the lookup by value. -/
def valueLines (e : EnumLookup) : List Line :=
  gateLines 1 e.gates ++ e.valueHeader ++
    [⟨2, "fn description(&self) -> Cow<'static, str> \x7b"⟩, ⟨3, "match self \x7b"⟩] ++
    e.valueArms.flatMap Arm.lines ++
    [⟨4, "_ => Cow::Owned(format!(\"\x7bself:?\x7d\")),"⟩, ⟨3, "\x7d"⟩, ⟨2, "\x7d"⟩, ⟨1, "\x7d"⟩]

/-- The lines of the lookup by number. -/
def numberLines (e : EnumLookup) (numberType : String) : List Line :=
  gateLines 1 e.gates ++
    [⟨1, "impl DescribeDiscriminant for " ++ e.path ++ " \x7b"⟩,
      ⟨2, "type Repr = " ++ numberType ++ ";"⟩,
      ⟨0, ""⟩,
      ⟨2, "fn describe_discriminant(raw: " ++ numberType ++ ") -> Cow<'static, str> \x7b"⟩] ++
    e.constants.flatMap (·.lines numberType) ++
    [⟨3, "match raw \x7b"⟩] ++
    e.numberArms.flatMap Arm.lines ++
    [⟨4, "_ => Cow::Owned(raw.to_string()),"⟩, ⟨3, "\x7d"⟩, ⟨2, "\x7d"⟩, ⟨1, "\x7d"⟩]

/-- The lines of the lookups of an enum. -/
def lines (e : EnumLookup) : List Line :=
  ⟨0, ""⟩ :: e.valueLines ++
    match e.numberType? with
    | some numberType => ⟨0, ""⟩ :: e.numberLines numberType
    | none => []

end EnumLookup

end DescriptionLookup
