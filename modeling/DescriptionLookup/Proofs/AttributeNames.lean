import DescriptionLookup.Proofs.AcceptedItems
import DescriptionLookup.Proofs.DescriptionTexts
import DescriptionLookup.Proofs.Layers
import DescriptionLookup.Proofs.LoadedCrates
import DescriptionLookup.Proofs.SourceAttributes

/-!
# Names of text attributes

The configured name of the attribute that carries texts is checked as an identifier, with any blanks
and comments around it, and then compared with the attributes as it is spelled. Spelled as the
identifier alone it finds the attributes of this name; spelled otherwise it finds none, since the
attributes of a file are called by words.

* `Grammar.parseIdentifier_eq_ok_iff`: the texts that the check takes for an identifier;
* `SourceText.isNamed_eq_false`: what is no word is the name of no attribute;
* `Configuration.textAttribute_effective`: what a name that passed the check does.
-/

namespace DescriptionLookup

open Grammar TokenTree Lexeme Token

/-! ### The check -/

namespace Grammar

variable {text name : String}

/-- A word that stands alone is one tree. -/
theorem exists_ofText_word (h : isWord name.toList = true) :
    ∃ pos, TokenTree.ofText name = .ok [.word name pos] := by
  obtain ⟨c, more, hlist, hstart⟩ := exists_start_of_isWord h
  have hmark : name.toList.head? ≠ some '\ufeff' := by
    rw [hlist, List.head?_cons, Ne, Option.some.injEq]
    exact ne_of_isIdentifierStart hstart (by decide +kernel)
  have hcut : Lexeme.Cut (name.toList ++ []) (lexemesAll [ofWord name]) := .word h nofun .nil
  rw [List.append_nil] at hcut
  obtain ⟨tree, htree, hplaceless⟩ := exists_ofText_single hmark hcut
  obtain ⟨pos, rfl⟩ := placeless_eq_word hplaceless
  exact ⟨pos, htree⟩

/-- The check takes a text for an identifier if this is all that is read from it. -/
theorem parseIdentifier_eq_ok_iff : parseIdentifier text = .ok name ↔
    isIdentifier name = true ∧ ∃ pos, TokenTree.ofText text = .ok [.word name pos] := by
  constructor
  · intro h
    obtain ⟨trees, htrees, h⟩ := exists_of_parseText h
    obtain ⟨state, hread, hrest, -⟩ := Parser.exists_of_readAll h
    rcases trees with _ | ⟨⟨first, pos⟩ | _ | _ | _, rest⟩
    case cons.word =>
      replace hread : (if isIdentifier first then Parser.anyWord else _ : Parser String) _ = _ :=
        hread
      split at hread
      · next hfirst =>
        cases hread
        obtain rfl : rest = [] := hrest
        exact ⟨hfirst, pos, htrees⟩
      · cases hread
    all_goals cases hread
  · rintro ⟨hname, pos, htrees⟩
    have htree : placelessAll [.word name pos] = [ofWord name] := rfl
    obtain ⟨_, hread, rfl⟩ := readAll_of_accepts (Parser.accepts_identifier hname) htree
    rw [parseIdentifier, parseText, htrees]
    exact hread

/-- A text that is a word is checked as itself. -/
theorem eq_of_parseIdentifier (h : parseIdentifier text = .ok name)
    (hword : isWord text.toList = true) : text = name := by
  obtain ⟨-, pos, hname⟩ := parseIdentifier_eq_ok_iff.1 h
  obtain ⟨pos', htext⟩ := exists_ofText_word hword
  cases hname.symm.trans htext
  rfl

end Grammar

/-! ### Names in a source -/

/-- The tree that an attribute of one name begins with is a word. -/
theorem Attribute.StandsIn.isWord {a : Attribute} {trees : List TokenTree} {name : String}
    (h : a.StandsIn trees) (htrees : IsLexed trees) (hname : a.isNamed name = true) :
    isWord name.toList = true := by
  obtain ⟨content, hread, hbrackets⟩ := h.exists_content
  obtain ⟨path, argument⟩ := a
  obtain rfl : path = .ofName name := (Path.isName_iff _ _).1 hname
  obtain ⟨more, -, -, -, hcontent, -⟩ := hread.exists_argument
  obtain ⟨tree, rest, rfl, htree, -⟩ := placelessAll_eq_cons hcontent
  obtain ⟨pos, rfl⟩ := placeless_eq_word htree
  have hlexed := htrees.of_inBrackets hbrackets
  cases hlexed with
  | word _ hword _ => exact hword

/-- What is no word is the name of no attribute in a source. -/
theorem SourceText.isNamed_eq_false {text name : String} {source : SourceText}
    (h : parseFile text = .ok source) (hname : isWord name.toList = false) {a : Attribute}
    (ha : source.Has a) : a.isNamed name = false := by
  obtain ⟨trees, htrees, hstands⟩ := standsIn_of_parseFile h
  by_contra hnamed
  rw [Bool.not_eq_false] at hnamed
  rw [(hstands a ha).isWord (isLexed_of_ofText htrees) hnamed] at hname
  cases hname

mutual

theorem Item.has_of_mem_ofItem {file : String} {module : ModulePath} {outer : List String}
    {item : Item} {c : Candidate} (hc : c ∈ Candidate.ofItem file module outer item) {v : Variant}
    (hv : v ∈ c.decl.variants) {a : Attribute} (ha : a ∈ v.attributes) : item.Has a := by
  cases item with
  | enumeration decl =>
    rw [Candidate.ofItem, List.mem_singleton] at hc
    subst hc
    exact .variant hv ha
  | inlineModule head items =>
    rw [Candidate.ofItem] at hc
    split at hc
    · cases hc
    · obtain ⟨item, hitem, hhas⟩ := has_of_mem_ofItems hc hv ha
      exact .inside hitem hhas
  | _ => cases hc

/-- The attributes of the variants of a candidate are attributes in its items. -/
theorem has_of_mem_ofItems {file : String} {module : ModulePath} {outer : List String}
    {items : List Item} {c : Candidate} (hc : c ∈ Candidate.ofItems file module outer items)
    {v : Variant} (hv : v ∈ c.decl.variants) {a : Attribute} (ha : a ∈ v.attributes) :
    ∃ item ∈ items, item.Has a := by
  cases items with
  | nil => cases hc
  | cons item rest =>
    rcases List.mem_append.1 hc with hc | hc
    · exact ⟨item, List.mem_cons_self, Item.has_of_mem_ofItem hc hv ha⟩
    · obtain ⟨item, hitem, hhas⟩ := has_of_mem_ofItems hc hv ha
      exact ⟨item, List.mem_cons_of_mem _ hitem, hhas⟩

end

/-- What is no word finds no text for any variant of a crate. -/
theorem Compilation.IsRead.describedBy?_eq_none {compilation : Compilation}
    (h : compilation.IsRead) {c : Candidate} (hc : c ∈ compilation.candidates) {name : String}
    (hname : isWord name.toList = false) {v : Variant} (hv : v ∈ c.decl.variants) :
    describedBy? v.attributes name = none := by
  obtain ⟨file, hfile, hc⟩ := List.mem_flatMap.1 hc
  obtain ⟨text, htext⟩ := h file hfile
  have hnone : v.attributes.find? (·.isNamed name) = none := by
    refine List.find?_eq_none.2 fun a ha => ?_
    rw [SourceText.isNamed_eq_false htext hname (.inr (has_of_mem_ofItems hc hv ha))]
    exact Bool.false_ne_true
  rw [describedBy?, hnone]
  rfl

/-! ### Members by name -/

namespace EnumDecl

variable {decl : EnumDecl} {name name' : String}

theorem text?_of_mem_members (h : ∀ v ∈ decl.variants, describedBy? v.attributes name = none)
    {m : Member} (hm : m ∈ decl.members name) : m.text? = none := by
  rw [members_eq] at hm
  obtain ⟨v, hv, rfl⟩ := List.mem_map.1 hm
  exact h v (List.mem_of_mem_filter hv)

/-- Where one name finds no texts, another finds the same members exactly if it finds none. -/
theorem members_eq_iff (h : ∀ v ∈ decl.variants, describedBy? v.attributes name = none) :
    decl.members name = decl.members name' ↔ ∀ m ∈ decl.members name', m.text? = none := by
  have hnone : ∀ m ∈ decl.members name, m.text? = none := fun m hm => text?_of_mem_members h hm
  constructor
  · intro heq
    rwa [← heq]
  · intro hnone'
    rw [members_eq] at hnone hnone' ⊢
    rw [members_eq]
    refine List.map_congr_left fun v hv => ?_
    -- The two members have the same name, pattern and gates in any case.
    have htexts : describedBy? v.attributes name = describedBy? v.attributes name' :=
      (hnone _ (List.mem_map_of_mem hv)).trans (hnone' _ (List.mem_map_of_mem hv)).symm
    rw [Variant.member, Variant.member, htexts]

end EnumDecl

namespace Configuration

variable {configuration : Configuration} {table : SymbolTable} {crateName : String}
  {marker : Marker}

/-- What a text attribute that passed the check does, by the identifier it was checked as. In every
crate it finds the members that the identifier finds exactly if it is spelled as the identifier, or
there are no texts to find. Spelled so it finds every text; spelled otherwise it finds none. -/
theorem textAttribute_effective
    (h : configuration.resolveMarker table crateName = .ok marker) :
    ∃ name, parseIdentifier configuration.textAttribute = .ok name ∧
      (∀ compilation : Compilation, compilation.IsRead → ∀ c ∈ compilation.candidates,
        (c.decl.members marker.textAttribute = c.decl.members name ↔
          configuration.textAttribute = name ∨ ∀ m ∈ c.decl.members name, m.text? = none)) ∧
      (configuration.textAttribute = name →
        ∀ decl : EnumDecl, decl.members marker.textAttribute = decl.members name ∧
          ∀ v ∈ decl.units, ∀ literal text, v.IsDescribedWith name literal →
            Text.literalText? literal = some text →
            v.member marker.textAttribute ∈ decl.members marker.textAttribute ∧
              (v.member marker.textAttribute).text? = some text) ∧
      (configuration.textAttribute ≠ name →
        ∀ compilation : Compilation, compilation.IsRead → ∀ c ∈ compilation.candidates,
          ∀ m ∈ c.decl.members marker.textAttribute, m.text? = none) := by
  obtain ⟨name, hname, htext⟩ := exists_parseIdentifier h
  rw [htext]
  -- Another spelling than the identifier's is no word, since a word is checked as itself.
  have hlost : configuration.textAttribute ≠ name → ∀ compilation : Compilation,
      compilation.IsRead → ∀ c ∈ compilation.candidates, ∀ v ∈ c.decl.variants,
        describedBy? v.attributes configuration.textAttribute = none := by
    intro hne compilation hread c hc v hv
    refine hread.describedBy?_eq_none hc ?_ hv
    by_contra hword
    rw [Bool.not_eq_false] at hword
    exact hne (eq_of_parseIdentifier hname hword)
  refine ⟨name, hname, ?_, ?_, ?_⟩
  · intro compilation hread c hc
    by_cases heq : configuration.textAttribute = name
    · simp [heq]
    · rw [EnumDecl.members_eq_iff (hlost heq compilation hread c hc), or_iff_right heq]
  · rintro rfl decl
    refine ⟨rfl, fun v hv literal text hdescribed htext => ⟨?_, ?_⟩⟩
    · rw [EnumDecl.members_eq]
      exact List.mem_map_of_mem hv
    · exact hdescribed.describedBy?_eq.trans htext
  · intro hne compilation hread c hc m hm
    exact EnumDecl.text?_of_mem_members (hlost hne compilation hread c hc) hm

/-! ### A name with blanks around it -/

/-- A file with an enum that has a text. -/
def describedText : String :=
  "#[derive(enum_describe_macros::GenerateEnumDescription)]\n" ++
    "pub enum Kind \x7b #[description(\"first\")] One \x7d"

/-- The enum in `describedText`. -/
def describedKind : EnumDecl where
  attributes :=
    [⟨.ofName "derive", .list .parenthesis [ofWord "enum_describe_macros", ofJoint ':', ofMark ':',
      ofWord "GenerateEnumDescription"]⟩]
  visibility := .everywhere
  name := "Kind"
  generics := []
  predicates := []
  variants := [⟨[⟨.ofName "description", .list .parenthesis [ofLiteral "\"first\""]⟩], "One", true⟩]

/-- The crate of this file. -/
def describedCrate : Compilation :=
  ((Compilation.empty "demo").addExtern markerCrate markerCrate).addFile
    { path := "lib.rs", module := .root, gates := [], source := ⟨[], [.enumeration describedKind]⟩ }

theorem addSource_describedText :
    ((Compilation.empty "demo").addExtern markerCrate markerCrate).addSource .root "lib.rs"
      describedText = .ok describedCrate := by
  have hparse : parseFile describedText = .ok ⟨[], [.enumeration describedKind]⟩ :=
    Except.toOption_eq_some.1 (by decide +kernel)
  rw [Compilation.addSource, hparse]
  rfl

theorem isRead_describedCrate : describedCrate.IsRead :=
  ((Compilation.isRead_empty _).addExtern _ _).addSource addSource_describedText

theorem textAttribute_effective_described :
    describedCrate.IsRead ∧ ∃ marker,
      resolveMarker {} describedCrate.symbolTable "demo" = .ok marker ∧
      ∀ c ∈ describedCrate.candidates,
        c.decl.members marker.textAttribute = c.decl.members "description" := by
  obtain ⟨marker, hmarker⟩ : ∃ marker,
      (resolveMarker {} describedCrate.symbolTable "demo").toOption = some marker :=
    Option.isSome_iff_exists.1 (by decide +kernel)
  replace hmarker := Except.toOption_eq_some.1 hmarker
  obtain ⟨name, hname, hmembers, -⟩ := textAttribute_effective hmarker
  obtain rfl : "description" = name := eq_of_parseIdentifier hname (by decide +kernel)
  exact ⟨isRead_describedCrate, marker, hmarker, fun c hc =>
    (hmembers describedCrate isRead_describedCrate c hc).2 (.inl rfl)⟩

/-- With blanks around it the name passes the check, and the text of the enum is lost. -/
theorem text_lost_in_blanks :
    describedCrate.IsRead ∧ ∃ marker,
      resolveMarker { textAttribute := " description " } describedCrate.symbolTable "demo" =
        .ok marker ∧
      parseIdentifier " description " = .ok "description" ∧
      describedCrate.candidates.map (·.decl) = [describedKind] ∧
      (describedKind.members marker.textAttribute).map Member.text? = [none] ∧
      (describedKind.members "description").map Member.text? = [some "first"] := by
  obtain ⟨marker, hmarker⟩ : ∃ marker, (resolveMarker { textAttribute := " description " }
      describedCrate.symbolTable "demo").toOption = some marker :=
    Option.isSome_iff_exists.1 (by decide +kernel)
  replace hmarker := Except.toOption_eq_some.1 hmarker
  refine ⟨isRead_describedCrate, marker, hmarker, ?_, rfl, ?_, by decide +kernel⟩
  · exact Except.toOption_eq_some.1 (by decide +kernel)
  · rw [resolveMarker_textAttribute hmarker]
    decide +kernel

end Configuration

end DescriptionLookup
