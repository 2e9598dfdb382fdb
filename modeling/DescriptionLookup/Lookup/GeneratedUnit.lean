import DescriptionLookup.Lookup.Rendering

/-!
# Generated units

The two texts that are generated for a crate. One holds the traits and never changes; the other holds
the lookups of all marked enums, in a module of its own that imports the traits from the module where
both are included.
-/

namespace DescriptionLookup

/-- A generated text, and the name of the file that holds it. -/
structure GeneratedUnit where
  fileName : String
  text : String
deriving DecidableEq, Inhabited

namespace GeneratedUnit

/-- The first line of every generated text. -/
def header : Line := ⟨0, "// @generated by enum_describe. Do not edit by hand."⟩

/-- The lines of the traits. -/
def supportLines : List Line :=
  [header,
    ⟨0, ""⟩,
    ⟨0, "/// Traits implemented for enums marked with `#[derive(GenerateEnumDescription)]`."⟩,
    ⟨0, "pub mod enum_description \x7b"⟩,
    ⟨1, "use ::std::borrow::Cow;"⟩,
    ⟨0, ""⟩,
    ⟨1, "/// Human-readable text for every value of an enum."⟩,
    ⟨1, "pub trait EnumDescription \x7b"⟩,
    ⟨2, "/// Override text of the matching variant, or its name when it has"⟩,
    ⟨2, "/// none. Values without a lookup entry render through `Debug`."⟩,
    ⟨2, "fn description(&self) -> Cow<'static, str>;"⟩,
    ⟨1, "\x7d"⟩,
    ⟨0, ""⟩,
    ⟨1, "/// Description lookup over the whole discriminant domain of a fieldless enum."⟩,
    ⟨1, "pub trait DescribeDiscriminant \x7b"⟩,
    ⟨2, "/// Integer representation of the enum."⟩,
    ⟨2, "type Repr;"⟩,
    ⟨0, ""⟩,
    ⟨2, "/// Describe the variant whose discriminant is `raw`, or the number"⟩,
    ⟨2, "/// itself when no variant has it."⟩,
    ⟨2, "fn describe_discriminant(raw: Self::Repr) -> Cow<'static, str>;"⟩,
    ⟨1, "\x7d"⟩,
    ⟨0, "\x7d"⟩]

/-- The unit of the traits. -/
def support : GeneratedUnit := ⟨"enum_description_support.rs", Draft.textOf supportLines⟩

/-- The lines of the module of lookups; `mount` is the module where the units are included. -/
def descriptionLines (mount : String) (enums : List EnumLookup) : List Line :=
  [header,
    ⟨0, ""⟩,
    ⟨0, "/// Description lookups for every marked enum in this crate."⟩,
    ⟨0, "#[allow(unreachable_patterns, unused_imports, clippy::all, clippy::pedantic)]"⟩,
    ⟨0, "pub mod enum_descriptions \x7b"⟩,
    ⟨1, "use ::std::borrow::Cow;"⟩,
    ⟨0, ""⟩,
    ⟨1, "use " ++ mount ++ "::enum_description::\x7bDescribeDiscriminant, EnumDescription\x7d;"⟩] ++
    enums.flatMap EnumLookup.lines ++ [⟨0, "\x7d"⟩]

/-- The unit of the lookups. -/
def descriptions (mount : String) (enums : List EnumLookup) : GeneratedUnit :=
  ⟨"enum_descriptions.rs", Draft.textOf (descriptionLines mount enums)⟩

end GeneratedUnit

end DescriptionLookup
