import DescriptionLookup.Crate.Gate
import DescriptionLookup.Grammar.Source

/-!
# Members of an enum

The variants without data, each with the text that describes it: the text that its attribute carries,
or else its name. Variants with data have no single value to describe and are passed over.

`EnumDecl.members` lists them at once. A `MemberCursor` yields them one by one and bounds how many
are still to come.
-/

namespace DescriptionLookup

/-- A variant without data, and what describes it. -/
structure Member where
  /-- The name as it is declared, without `r#`. -/
  name : String
  /-- The text that its attribute carries. -/
  text? : Option String
  /-- The name as it has to be written in a path. -/
  pattern : String
  /-- The gates of the variant. -/
  gates : List String
deriving DecidableEq

/-- The text that describes the member. -/
def Member.description (m : Member) : String := m.text?.getD m.name

/-- The text that an attribute carries: a string literal behind an equals sign, or one that is the
first in a list of expressions. -/
def Attribute.text? (a : Attribute) : Option String :=
  match a.argument with
  | .nothing => none
  | .value expression => expression.text?
  | .list _ _ =>
    (Grammar.listArgument? Grammar.expressionPhrase a).bind fun expressions =>
      expressions.head?.bind Expression.text?

/-- The text that the first attribute of this name carries. A later one never counts. -/
def describedBy? (attributes : List Attribute) (name : String) : Option String :=
  (attributes.find? (·.isNamed name)).bind Attribute.text?

/-- The member that a variant is, with its text in attributes of this name. -/
def Variant.member? (v : Variant) (textAttribute : String) : Option Member :=
  if v.isUnit then
    some {
      name := unraw v.name
      text? := describedBy? v.attributes textAttribute
      pattern := v.name
      gates := gates v.attributes }
  else none

/-- The members of an enum in the order of declaration. -/
def EnumDecl.members (decl : EnumDecl) (textAttribute : String) : List Member :=
  decl.variants.filterMap (·.member? textAttribute)

/-! ### One by one -/

/-- The members of an enum that are still to come: the variants not yet looked at. -/
structure MemberCursor where
  variants : List Variant
  textAttribute : String

/-- The cursor before the first member. -/
def EnumDecl.cursor (decl : EnumDecl) (textAttribute : String) : MemberCursor :=
  ⟨decl.variants, textAttribute⟩

namespace MemberCursor

/-- The first member among variants, and the variants behind it. -/
def advance (textAttribute : String) : List Variant → Option (Member × List Variant)
  | [] => none
  | v :: rest =>
    match v.member? textAttribute with
    | some m => some (m, rest)
    | none => advance textAttribute rest

/-- The next member, and the cursor behind it; `none` at the end. -/
def next? (cursor : MemberCursor) : Option Member × MemberCursor :=
  match advance cursor.textAttribute cursor.variants with
  | some (m, rest) => (some m, { cursor with variants := rest })
  | none => (none, { cursor with variants := [] })

/-- No more members than this are still to come. -/
def upperBound (cursor : MemberCursor) : Nat := cursor.variants.length

theorem length_advance_lt {textAttribute : String} {variants : List Variant} {m : Member}
    {rest : List Variant} (h : advance textAttribute variants = some (m, rest)) :
    rest.length < variants.length := by
  induction variants with
  | nil => simp [advance] at h
  | cons v variants ih =>
    unfold advance at h
    split at h
    · simp_all
    · exact Nat.lt_succ_of_lt (ih h)

end MemberCursor

end DescriptionLookup
