import DescriptionLookup.Proofs.Lookups
import DescriptionLookup.Proofs.ReadableUnits
import DescriptionLookup.Proofs.Repetitions

/-!
# Units are well-formed

The unit of a pass is put together from lines of text, and a build reads it again. If the mount is
written as a path of names, and so is whatever the lookups are written from, it is read as one module
that imports the traits under this path.

* `Path.IsPlain.parsePath_spelling`, `Path.IsPlain.mountsAt`: a path that is written without blanks
  denotes itself, also where it leads to the traits;
* `Candidate.IsReadable`: what a lookup is written from is spelled as the grammar wants it;
* `GeneratedUnit.parseFile_descriptions`: units of such lookups are read back;
* `Compilation.parseFile_unit`: units of passes;
* `unit_not_parsed`: a mount with arguments, for which a pass succeeds all the same.
-/

namespace DescriptionLookup

open Grammar Grammar.Parser TokenTree Lexeme Token Text

/-! ### Spelled paths -/

namespace Path

/-- The path as it is written, without blanks. -/
def spelling : Path → String
  | ⟨true, names⟩ => ModulePath.separated names
  | ⟨false, []⟩ => ""
  | ⟨false, first :: names⟩ => first ++ ModulePath.separated names

/-- The path has names, each one that the path of an import may have. -/
structure IsPlain (path : Path) : Prop where
  nonempty : path.segments ≠ []
  names : ∀ name ∈ path.segments, IsImportName name

/-- The tokens of the path as it is written. -/
def spellingTokens : Path → List TokenTree
  | ⟨true, names⟩ => Grammar.separated names
  | ⟨false, []⟩ => []
  | ⟨false, first :: names⟩ => ofWord first :: Grammar.separated names

variable {path : Path} {rest : List Char} {more : List Lexeme}

theorem IsPlain.words (h : path.IsPlain) : ∀ name ∈ path.segments, isWord name.toList = true :=
  fun name hname => (h.names name hname).isPathName.isWord

/-- Behind a path stands the separator, or something else that ends a word. -/
theorem IsPlain.cut_spelling (h : path.IsPlain) (hstop : ∀ d ∈ rest.head?, d ∈ wordStops)
    (hrest : Cut rest more) :
    Cut (path.spelling.toList ++ rest) (lexemesAll path.spellingTokens ++ more) := by
  obtain ⟨absolute, names⟩ := path
  cases absolute with
  | true => exact Cut.separated h.words hstop hrest
  | false =>
    cases names with
    | nil => exact hrest
    | cons first names =>
      obtain ⟨hfirst, hnames⟩ := List.forall_mem_cons.1 h.words
      have hbehind : ∀ d ∈ ((ModulePath.separated names).toList ++ rest).head?, d ∈ wordStops := by
        cases names with
        | nil => exact hstop
        | cons => rw [toList_separated_cons]; simp [wordStops]
      rw [spelling, String.toList_append, List.append_assoc]
      exact Cut.word hfirst hbehind (Cut.separated hnames hstop hrest)

end Path

namespace Path

variable {path : Path}

/-- The first character of a path is no byte order mark. -/
theorem IsPlain.head?_spelling (h : path.IsPlain) : path.spelling.toList.head? ≠ some '\ufeff' := by
  obtain ⟨absolute, names⟩ := path
  obtain ⟨first, names, rfl⟩ := List.exists_cons_of_ne_nil h.nonempty
  cases absolute with
  | true => rw [spelling, toList_separated_cons]; simp
  | false =>
    have hmark : isIdentifierStart '\ufeff' = false := by decide +kernel
    obtain ⟨c, tail, hlist, hstart⟩ := exists_start_of_isWord (h.words first List.mem_cons_self)
    rw [spelling, String.toList_append, hlist]
    intro heq
    cases heq
    rw [hmark] at hstart
    cases hstart

/-- A plain path is read as itself. -/
theorem IsPlain.accepts (h : path.IsPlain) (g : Nonterminals) :
    Accepts (typePath g) path.spellingTokens (· = path) [] := by
  obtain ⟨absolute, names⟩ := path
  obtain ⟨first, names, rfl⟩ := List.exists_cons_of_ne_nil h.nonempty
  obtain ⟨hfirst, hnames⟩ :=
    List.forall_mem_cons.1 fun name hname => (h.names name hname).isPathName
  have hpath : Accepts (Grammar.path g false) (spellingTokens ⟨absolute, first :: names⟩)
      (fun shape => shape.path = ⟨absolute, first :: names⟩) [] := by
    rw [← List.append_nil (spellingTokens _)]
    cases absolute with
    | true => exact (accepts_path_absolute hfirst hnames rfl false).imp fun _ h => h ▸ rfl
    | false => exact (accepts_path hfirst hnames rfl false).imp fun _ h => h ▸ rfl
  exact hpath.bind fun shape hshape => .pure hshape

@[simp] theorem placelessAll_spellingTokens (path : Path) :
    placelessAll path.spellingTokens = path.spellingTokens := by
  have hseparated : ∀ names, placelessAll (Grammar.separated names) = Grammar.separated names := by
    intro names
    induction names with
    | nil => rfl
    | cons name names ih =>
      show _ :: _ :: _ :: placelessAll (Grammar.separated names) = _
      rw [ih]
      rfl
  obtain ⟨_ | _, _ | ⟨first, names⟩⟩ := path <;>
    simp [spellingTokens, hseparated, placelessAll, TokenTree.placeless]

/-- The spelling of a path denotes the path. -/
theorem IsPlain.parsePath_spelling (h : path.IsPlain) : parsePath path.spelling = .ok path := by
  have hcut := h.cut_spelling (by simp) .nil
  rw [List.append_nil, List.append_nil] at hcut
  obtain ⟨found, hfound, hplaceless⟩ := exists_ofText h.head?_spelling hcut
  rw [placelessAll_spellingTokens] at hplaceless
  obtain ⟨_, hread, rfl⟩ := readAll_of_accepts (h.accepts (nonterminalsFor found)) hplaceless
  rw [parsePath, parseText, hfound]
  exact hread

/-- What stands behind the path in the import of the traits. -/
def traitsBehind : List TokenTree :=
  [ofJoint ':', ofMark ':', ofWord "enum_description", ofJoint ':', ofMark ':'] ++
    traitsTokens ++ [ofMark ';']

theorem leading_cons (first : String) (names : List String) : leading (first :: names) =
    ofWord first :: (Grammar.separated names ++ [ofJoint ':', ofMark ':']) := by
  induction names generalizing first with
  | nil => rfl
  | cons name names ih =>
    have hcons : leading (first :: name :: names) =
        ofWord first :: ofJoint ':' :: ofMark ':' :: leading (name :: names) := rfl
    rw [hcons, ih]
    rfl

theorem IsPlain.mountTokens_eq (h : path.IsPlain) :
    mountTokens path = ofWord "use" :: (path.spellingTokens ++ traitsBehind) := by
  obtain ⟨absolute, names⟩ := path
  obtain ⟨first, names, rfl⟩ := List.exists_cons_of_ne_nil h.nonempty
  have hleading : leading (first :: names ++ ["enum_description"]) =
      leading (first :: names) ++ leading ["enum_description"] := by
    simp [leading]
  rw [mountTokens, importTokens, hleading, leading_cons]
  cases absolute <;> simp [spellingTokens, traitsBehind, leading, Grammar.separated]

/-- Where the path is written as the mount, the traits are imported under it. -/
theorem IsPlain.mountsAt (h : path.IsPlain) : MountsAt path.spelling path where
  names := h.names
  line := by
    have huse : "use ".toList = "use".toList ++ [' '] := by decide +kernel
    have hword : isWord "use".toList = true := by decide +kernel
    have hbehind : Cut "::enum_description::\x7bDescribeDiscriminant, EnumDescription\x7d;".toList
        (lexemesAll traitsBehind) := cut_of_eval (by decide +kernel)
    have hpath := h.cut_spelling (by simp [wordStops]) hbehind
    have hline : (importLine path.spelling).toList = "use".toList ++ ' ' :: (path.spelling.toList ++
        "::enum_description::\x7bDescribeDiscriminant, EnumDescription\x7d;".toList) := by
      simp only [importLine, String.toList_append, huse, List.append_assoc, List.cons_append,
        List.nil_append]
    have hcut : Cut (importLine path.spelling).toList (lexemesAll (mountTokens path)) := by
      rw [hline, h.mountTokens_eq]
      exact Cut.wordBlank hword (by rwa [lexemesAll_append])
    have hhead : (importLine path.spelling).toList.head? ≠ some '\ufeff' := by
      have hfirst : "use".toList = ['u', 's', 'e'] := by decide +kernel
      rw [hline, hfirst]
      simp
    obtain ⟨found, hfound, hplaceless⟩ := exists_ofText hhead hcut
    refine ⟨found, hfound, hplaceless.trans ?_⟩
    rw [h.mountTokens_eq]
    simp [placelessAll, TokenTree.placeless, traitsBehind, traitsTokens]

end Path

/-! ### Tokens without places -/

theorem placelessAll_flatMap_eq {α : Type} {as : List α} {f : α → List TokenTree}
    (h : ∀ a ∈ as, placelessAll (f a) = f a) : placelessAll (as.flatMap f) = as.flatMap f :=
  (placelessAll_flatMap as f).trans (List.flatMap_congr h)

@[simp] theorem placelessAll_separated (names : List String) :
    placelessAll (Grammar.separated names) = Grammar.separated names :=
  placelessAll_flatMap_eq fun _ _ => rfl

@[simp] theorem placelessAll_leading (names : List String) :
    placelessAll (leading names) = leading names :=
  placelessAll_flatMap_eq fun _ _ => rfl

/-- What stands in the brackets of gates has no places. -/
@[simp] theorem placelessAll_gateContent (gate : String) :
    placelessAll (gateContent gate) = gateContent gate := by
  unfold gateContent
  split
  · exact placelessAll_placelessAll _
  · rfl

@[simp] theorem placelessAll_gates (gates : List String) :
    placelessAll (attributeTokens (gates.map gateContent)) =
      attributeTokens (gates.map gateContent) := by
  refine placelessAll_flatMap_eq fun content hcontent => ?_
  obtain ⟨gate, -, rfl⟩ := List.mem_map.1 hcontent
  simp [placelessAll, TokenTree.placeless]

@[simp] theorem placelessAll_valueHeaderTokens (e : EnumLookup) (names : List String) :
    placelessAll (valueHeaderTokens e names) = valueHeaderTokens e names := by
  have hpredicates : placelessAll (predicateTokens (e.predicates.map placelessAll)) =
      predicateTokens (e.predicates.map placelessAll) := by
    refine placelessAll_flatMap_eq fun predicate hpredicate => ?_
    obtain ⟨predicate, -, rfl⟩ := List.mem_map.1 hpredicate
    simp [placelessAll, TokenTree.placeless]
  rw [predicateTokens] at hpredicates
  rw [valueHeaderTokens]
  split
  · simp [plainHeader, placelessAll, TokenTree.placeless]
  · simp [declaredHeader, predicateTokens, debugPredicate, Generics.declaredTokens,
      Generics.argumentTokens, placelessAll, TokenTree.placeless, hpredicates]

theorem placelessAll_lookupTokens (e : EnumLookup) (names : List String) :
    placelessAll (lookupTokens e names) = lookupTokens e names := by
  have hvalue : placelessAll (e.members.flatMap (valueArmTokens names)) =
      e.members.flatMap (valueArmTokens names) :=
    placelessAll_flatMap_eq fun m _ => by
      simp [valueArmTokens, armTokens, callTokens, placelessAll, TokenTree.placeless]
  have hnumber : placelessAll (e.members.zipIdx.flatMap numberArmTokens) =
      e.members.zipIdx.flatMap numberArmTokens :=
    placelessAll_flatMap_eq fun m _ => by
      simp [numberArmTokens, armTokens, callTokens, placelessAll, TokenTree.placeless]
  have hconstants : ∀ type,
      placelessAll (e.members.zipIdx.flatMap (memberConstantTokens names type)) =
      e.members.zipIdx.flatMap (memberConstantTokens names type) := fun type =>
    placelessAll_flatMap_eq fun m _ => by
      simp [memberConstantTokens, constantTokens, placelessAll, TokenTree.placeless]
  have hdebug : placelessAll debugArmTokens = debugArmTokens := by decide +kernel
  have hdecimal : placelessAll decimalArmTokens = decimalArmTokens := by decide +kernel
  rw [lookupTokens, lookupItems]
  cases e.numberType? with
  | none =>
    simp [valueTokens, implTokens, functionTokens, signatureTokens, cowTokens, placelessAll,
      TokenTree.placeless, hvalue, hdebug]
  | some type =>
    simp [valueTokens, numberTokens, implTokens, plainHeader, functionTokens, signatureTokens,
      cowTokens, typeTokens, placelessAll, TokenTree.placeless, hvalue, hdebug, hnumber, hdecimal,
      hconstants]

theorem placelessAll_unitTokens {α : Type} (path : Path) (as : List α) (lookup : α → EnumLookup)
    (names : α → List String) :
    placelessAll (unitTokens path as lookup names) = unitTokens path as lookup names := by
  have hlookups : placelessAll (as.flatMap fun a => lookupTokens (lookup a) (names a)) =
      as.flatMap fun a => lookupTokens (lookup a) (names a) :=
    placelessAll_flatMap_eq fun a _ => placelessAll_lookupTokens _ _
  have hcontents : placelessAll (attributeTokens [documentationContent, allowContent]) =
      attributeTokens [documentationContent, allowContent] := by decide +kernel
  cases habsolute : path.absolute <;>
    simp [unitTokens, moduleTokens, mountTokens, importTokens, traitsTokens, hlookups, hcontents,
      placelessAll, TokenTree.placeless, habsolute]

/-! ### Units -/

/-- A unit begins with a comment. -/
theorem GeneratedUnit.exists_toList_text (mount : String) (lookups : List EnumLookup) :
    ∃ more, (GeneratedUnit.descriptions mount lookups).text.toList = '/' :: more := by
  have hheader : GeneratedUnit.header.written =
      '/' :: (GeneratedUnit.header.written).tail := by decide +kernel
  rw [GeneratedUnit.descriptions, Draft.toList_textOf, GeneratedUnit.descriptionLines]
  simp only [List.cons_append, List.flatMap_cons]
  rw [hheader]
  exact ⟨_, rfl⟩

/-- A unit is a file of one item: the module of lookups, which imports the traits. -/
theorem GeneratedUnit.parseFile_descriptions {α : Type} {as : List α} {lookup : α → EnumLookup}
    {names : α → List String} {mount : String} {path : Path} (hmount : MountsAt mount path)
    (h : ∀ a ∈ as, (lookup a).IsReadable (names a)) :
    ∃ attributes items, parseFile (GeneratedUnit.descriptions mount (as.map lookup)).text =
        .ok ⟨[], [.inlineModule ⟨attributes, .everywhere, "enum_descriptions"⟩ items]⟩ ∧
      UnitItems path items := by
  have hcut := (draws_descriptionLines hmount h).cut_textOf
  obtain ⟨more, htext⟩ := GeneratedUnit.exists_toList_text mount (as.map lookup)
  obtain ⟨⟨attributes, items⟩, hparse, hattributes, head, inner, hitems, hunit⟩ :=
    parseFile_of_cut htext hcut (placelessAll_unitTokens path as lookup names)
      fun n => accepts_unit (n := n) hmount.names h
  dsimp only at hattributes hitems
  rw [hattributes, hitems] at hparse
  exact ⟨head, inner, hparse, hunit⟩

/-! ### Passes -/

/-- What the lookups of an enum are written from is spelled as the grammar wants it: the names of
the enum, of the modules around it and of its variants, and the gates of all of them. Its parameters
consist of names, and so do the predicates on them. -/
structure Candidate.IsReadable (c : Candidate) : Prop where
  around : ∀ name ∈ c.module.segments, IsPathName name
  own : isIdentifier c.decl.name = true
  gates : ∀ gate ∈ c.gates, IsGate gate
  variants : ∀ v ∈ c.decl.variants, isIdentifier v.name = true
  variantGates : ∀ v ∈ c.decl.variants, ∀ gate ∈ DescriptionLookup.gates v.attributes, IsGate gate
  generics : c.decl.generics.IsPlain
  predicates : c.decl.generics ≠ [] → ∀ predicate ∈ c.decl.predicates,
    IsPlainPredicate (placelessAll predicate)

theorem Variant.member?_eq_some {v : Variant} {textAttribute : String} {m : Member}
    (h : v.member? textAttribute = some m) : m = v.member textAttribute := by
  unfold Variant.member? at h
  split at h
  · exact (Option.some.inj h).symm
  · cases h

theorem Candidate.IsReadable.lookup {c : Candidate} (h : c.IsReadable) (textAttribute : String) :
    (EnumLookup.ofDecl c.symbol.text c.gates textAttribute c.decl).IsReadable
      c.symbol.segments where
  path := rfl
  own := ⟨_, _, rfl, h.own⟩
  names := List.forall_mem_append.2 ⟨h.around, by simpa using .inl h.own⟩
  gates := h.gates
  members m hm := by
    obtain ⟨v, hv, hmember⟩ := List.mem_filterMap.1 hm
    rw [Variant.member?_eq_some hmember]
    exact h.variants v hv
  memberGates m hm gate hgate := by
    obtain ⟨v, hv, hmember⟩ := List.mem_filterMap.1 hm
    rw [Variant.member?_eq_some hmember] at hgate
    exact h.variantGates v hv gate hgate
  number type htype := EnumDecl.numberType?_mem (Option.mem_def.1 htype)
  generics := h.generics
  predicates := h.predicates

namespace Compilation

variable {compilation : Compilation} {configuration : Configuration} {result : PassResult}

/-- The unit of a pass is read as one module of lookups, which imports the traits from the module
that the mount denotes, if the mount is written as a path of names. -/
theorem parseFile_unit {path : Path} (h : compilation.generate configuration = .ok result)
    (hpath : path.IsPlain) (hmount : configuration.mount = path.spelling)
    (hreadable : ∀ c ∈ compilation.candidates, compilation.IsMarked configuration c →
      c.isNameable compilation.symbolTable = true → c.IsReadable) :
    Configuration.path .mount configuration.mount = .ok path ∧
      ∃ attributes items, parseFile result.unit.text =
          .ok ⟨[], [.inlineModule ⟨attributes, .everywhere, "enum_descriptions"⟩ items]⟩ ∧
        UnitItems path items := by
  obtain ⟨selection, textAttribute, hselect, rfl⟩ := generate_eq_ok_iff.1 h
  obtain ⟨marker, registered, verdicts, hmarker, hregistered, hcandidates, hright, rfl⟩ :=
    exists_verdicts hselect
  refine ⟨Configuration.path_eq_ok_iff.2 (hmount ▸ hpath.parsePath_spelling), ?_⟩
  refine @GeneratedUnit.parseFile_descriptions _ _ _ (fun e => e.symbol.segments) _ _
    (hmount ▸ hpath.mountsAt) fun e he => ?_
  -- A described enum is rendered from the candidate it was found as.
  obtain ⟨c, hc, hin, hnameable, hsymbol, hdecl, hgates⟩ := hright.exists_of_mem_marked he
  have hlookup := (hreadable c (hcandidates ▸ hc) ((isMarked_iff hmarker hregistered).2 hin)
    hnameable).lookup textAttribute
  rw [MarkedEnum.lookup, hsymbol, hdecl, hgates]
  exact hlookup

end Compilation

/-! ### An enum with parameters -/

/-- The declaration of an enum with a lifetime and a type as parameters, and a bound on both of
them; it has a gate, and so has one of its variants. -/
def borrowedDecl : EnumDecl where
  attributes := [wordAttribute "cfg" "unix", wordAttribute "derive" "Describe"]
  visibility := .everywhere
  name := "Borrowed"
  generics :=
    [⟨.lifetime, [], [ofJoint '\x27', ofWord "a"], [], [], true⟩,
      ⟨.type, [], [ofWord "T"], [ofMark ':', ofWord "Clone"], [], false⟩]
  predicates := [[ofWord "T", ofMark ':', ofJoint '\x27', ofWord "a"]]
  variants := [⟨[], "One", true⟩, ⟨[wordAttribute "cfg" "x"], "Two", true⟩]

/-- A crate with an enum that has parameters. -/
def borrowedCrate : Compilation :=
  ((Compilation.empty "demo").addExtern "macros" "macros").addFile {
    path := "lib.rs"
    module := .root
    gates := []
    source := ⟨[], [.imports true (.path "macros" (.name "Describe")), .enumeration borrowedDecl]⟩ }

/-- A word in parentheses is read as it was printed. -/
theorem isPrinted_wordAttribute {name word : String} (hword : Token.isWord word.toList = true) :
    (wordAttribute name word).argument.IsPrinted := .list .parenthesis (.word hword .nil)

theorem borrowedDecl_isReadable :
    Candidate.IsReadable ⟨borrowedDecl, .root, "lib.rs", gates borrowedDecl.attributes⟩ := by
  have hwords : Token.isWord "unix".toList = true ∧ Token.isWord "Describe".toList = true ∧
      Token.isWord "x".toList = true ∧ Token.isWord "a".toList = true := by decide +kernel
  obtain ⟨hunix, hDescribe, hx, ha⟩ := hwords
  have hnames : isIdentifier "Borrowed" = true ∧ isIdentifier "One" = true ∧
      isIdentifier "Two" = true ∧ isIdentifier "T" = true ∧ isIdentifier "Clone" = true := by
    decide +kernel
  obtain ⟨hBorrowed, hOne, hTwo, hT, hClone⟩ := hnames
  have hlifetime : IsLifetime [ofJoint '\x27', ofWord "a"] := ⟨ha⟩
  have hbound : IsPlainBound [ofWord "Clone"] :=
    .trait (@IsNamePath.relative _ [] (.inl hClone) (by simp))
  have hparam : IsPlainParam [ofWord "T", ofMark ':', ofWord "Clone"] :=
    .boundedType hT (.last hbound)
  have hpredicate : IsPlainPredicate [ofWord "T", ofMark ':', ofJoint '\x27', ofWord "a"] :=
    @IsPlainPredicate.type _ [] _ (.inl hT) (by simp) (.last (.lifetime hlifetime))
  constructor
  · simp [ModulePath.root]
  · exact hBorrowed
  · refine isGate_of_mem_gates_of_isPrinted fun a ha _ => ?_
    obtain rfl | rfl : a = _ ∨ a = _ := by simpa [borrowedDecl] using ha
    · exact isPrinted_wordAttribute hunix
    · exact isPrinted_wordAttribute hDescribe
  · simpa [borrowedDecl] using ⟨hOne, hTwo⟩
  · intro v hv
    refine isGate_of_mem_gates_of_isPrinted fun a ha _ => ?_
    obtain rfl | rfl : v = _ ∨ v = _ := by simpa [borrowedDecl] using hv
    · cases ha
    · rw [List.mem_singleton.1 ha]
      exact isPrinted_wordAttribute hx
  · constructor
    · simpa [borrowedDecl] using ⟨.lifetime hlifetime, hparam⟩
    · simpa [borrowedDecl] using ⟨.lifetime hlifetime, .type hT⟩
    · simp [borrowedDecl]
  · intro _
    simpa [borrowedDecl, placelessAll, TokenTree.placeless] using hpredicate

/-- The lookup of an enum with parameters is read back, below an import from another crate. -/
theorem parseFile_unit_of_parameters :
    ∃ result attributes items,
      borrowedCrate.generate { describeOnly with mount := "::kinds::text" } = .ok result ∧
      result.described.map DescribedEnum.gates = [["#[cfg (unix)]"]] ∧
      parseFile result.unit.text =
        .ok ⟨[], [.inlineModule ⟨attributes, .everywhere, "enum_descriptions"⟩ items]⟩ ∧
      UnitItems ⟨true, ["kinds", "text"]⟩ items := by
  have hgenerate : (borrowedCrate.generate
      { describeOnly with mount := "::kinds::text" }).toOption.map
        (fun result => result.described.map DescribedEnum.gates) = some [["#[cfg (unix)]"]] := by
    decide +kernel
  obtain ⟨result, hresult, hgates⟩ := Option.map_eq_some_iff.1 hgenerate
  have hrun := Except.toOption_eq_some.1 hresult
  have hnames : ∀ name ∈ ["kinds", "text"], isIdentifier name = true := by decide +kernel
  have hplain : Path.IsPlain ⟨true, ["kinds", "text"]⟩ :=
    ⟨by simp, fun name hname => .inl (hnames name hname)⟩
  have hreadable : ∀ c ∈ borrowedCrate.candidates, c.IsReadable := by
    intro c hc
    obtain rfl := List.mem_singleton.1 hc
    exact borrowedDecl_isReadable
  obtain ⟨-, attributes, items, hparse, hitems⟩ := Compilation.parseFile_unit hrun hplain
    (by decide +kernel) fun c hc _ _ => hreadable c hc
  exact ⟨result, attributes, items, hrun, hgates, hparse, hitems⟩

/-- A mount with arguments is a path, but none that the traits can be imported from. -/
theorem unit_not_parsed :
    ∃ result, { describeOnly with mount := "a<u8>" }.validate = .ok () ∧
      ((Compilation.empty "demo").addExtern "macros" "macros").generate
        { describeOnly with mount := "a<u8>" } = .ok result ∧
      ∀ source, parseFile result.unit.text ≠ .ok source := by
  obtain ⟨hvalidate, hgenerate⟩ :
      { describeOnly with mount := "a<u8>" }.validate.toOption = some () ∧
      (((Compilation.empty "demo").addExtern "macros" "macros").generate
        { describeOnly with mount := "a<u8>" }).toOption.map PassResult.unit =
        some (GeneratedUnit.descriptions "a<u8>" []) := by
    decide +kernel
  obtain ⟨result, hresult, hunit⟩ := Option.map_eq_some_iff.1 hgenerate
  refine ⟨result, Except.toOption_eq_some.1 hvalidate, Except.toOption_eq_some.1 hresult,
    fun source hsource => ?_⟩
  obtain ⟨more, htext⟩ := GeneratedUnit.exists_toList_text "a<u8>" []
  have hlines : (GeneratedUnit.descriptions "a<u8>" []).text.toList = _ := Draft.toList_textOf _
  -- The lines are read from their characters: the text need not be put together first.
  have hrefused : ((TokenTree.ofChars .start ((GeneratedUnit.descriptionLines "a<u8>" []).flatMap
      Line.written)).toOption.bind fun trees => (parseTrees file trees).toOption) = none := by
    refine Option.not_isSome_iff_eq_none.1 ?_
    decide +kernel
  have htrees := @ofText_eq_ofChars (GeneratedUnit.descriptions "a<u8>" []).text
    (by rw [htext]; simp)
  rw [← hlines] at hrefused
  rw [hunit, parseFile_eq htext, parseText, htrees] at hsource
  split at hsource
  · cases hsource
  · next trees hfound =>
    have hnone : (parseTrees file trees).toOption = none := by
      rw [← hrefused, hfound]
      rfl
    rw [hsource] at hnone
    cases hnone

end DescriptionLookup
