import DescriptionLookup.Lookup.Pass
import DescriptionLookup.Proofs.PrintedParameters

/-!
# The text of a unit in trees

The lines of the lookups of an enum are read as the trees that they were meant to be, if the names,
gates and parameters in them are spelled as the grammar wants them.

* `EnumLookup.IsReadable`: what this asks of a lookup;
* `lookupTokens`: the trees of its lines;
* `EnumLookup.IsReadable.draws_lines`: that the lines are read so.
-/

namespace DescriptionLookup

open Grammar TokenTree Text

namespace Lexeme

open Token

variable {text rest : List Char} {lexemes more : List Lexeme} {names : List String}

/-! ### Pieces of lines -/

namespace Cut

/-- What stands behind the pattern of an arm that answers with a text. -/
theorem answer (value : String) :
    Cut (" => Cow::Borrowed(".toList ++ ((Text.quoted value).toList ++ "),".toList))
      (lexemesAll (ofJoint '=' :: ofMark '>' ::
        (callTokens "Cow" "Borrowed" [ofLiteral (Text.quoted value)] ++ [ofMark ',']))) := by
  have hopening : " => Cow::Borrowed(".toList =
      ' ' :: '=' :: '>' :: ' ' :: ("Cow".toList ++ ':' :: ':' :: ("Borrowed".toList ++ ['('])) := by
    decide +kernel
  have hquote : ((Text.quoted value).toList ++ "),".toList).head? ≠ some '/' := by
    simp [Text.quoted]
  have hliteral : Cut ((Text.quoted value).toList ++ "),".toList)
      (.leaf (ofLiteral (Text.quoted value)) :: .closing .parenthesis .start ::
        [.leaf (ofMark ',')]) :=
    Cut.quoted value (by simp [wordStops]) (closing (d := .parenthesis) (lastMark (by decide)))
  have hcall := opening (d := .parenthesis) hquote hliteral
  rw [hopening]
  simp only [List.cons_append, List.append_assoc, List.nil_append]
  refine .blank (by decide)
    (joint (by decide) (by decide) (alone (by decide) (by decide +kernel) ?_))
  have hCow : isWord "Cow".toList = true := by decide +kernel
  have hBorrowed : isWord "Borrowed".toList = true := by decide +kernel
  refine .blank (by decide) (Cut.word hCow (by simp [wordStops]) ?_)
  refine joint (by decide) (by decide) (alone (d := 'B') (by decide) (by decide +kernel) ?_)
  exact Cut.word hBorrowed (by simp [wordStops]) hcall

end Cut

end Lexeme

open Lexeme Token

/-! ### Arms and constants -/

/-- A piece of a line in front of a blank. -/
def ReadsBeforeBlank (text : String) (trees : List TokenTree) : Prop :=
  ∀ ⦃rest : List Char⦄ ⦃more : List Lexeme⦄, Cut (' ' :: rest) more →
    Cut (text.toList ++ ' ' :: rest) (lexemesAll trees ++ more)

theorem readsBeforeBlank_path {names : List String}
    (hnames : ∀ name ∈ names, isWord name.toList = true) :
    ReadsBeforeBlank ("crate" ++ ModulePath.separated names)
      (ofWord "crate" :: Grammar.separated names) := by
  intro rest more h
  rw [String.toList_append, List.append_assoc]
  exact Cut.path hnames (by simp [wordStops]) h

theorem readsBeforeBlank_word {name : String} (hname : isWord name.toList = true) :
    ReadsBeforeBlank name [ofWord name] :=
  fun _ _ h => Cut.word hname (by simp [wordStops]) h

theorem Arm.draws {a : Arm} {pattern : List TokenTree} (hgates : ∀ gate ∈ a.gates, IsGate gate)
    (hpattern : ReadsBeforeBlank a.pattern pattern) :
    Draws a.lines (lexemesAll (armTokens (a.gates.map gateContent) pattern
      (callTokens "Cow" "Borrowed" [ofLiteral (Text.quoted a.description)]))) := by
  have hline : Cut (a.pattern ++ " => Cow::Borrowed(" ++ Text.quoted a.description ++ "),").toList
      (lexemesAll pattern ++ lexemesAll (ofJoint '=' :: ofMark '>' ::
        (callTokens "Cow" "Borrowed" [ofLiteral (Text.quoted a.description)] ++
          [ofMark ',']))) := by
    simp only [String.toList_append, List.append_assoc]
    exact hpattern (Cut.answer a.description)
  rw [armTokens, lexemesAll_append, lexemesAll_append]
  exact (draws_gateLines hgates 4).append (Draws.line hline)

theorem NumberConstant.draws {c : NumberConstant} {names : List String} {type : String}
    (hgates : ∀ gate ∈ c.gates, IsGate gate) (hname : isWord c.name.toList = true)
    (htype : isWord type.toList = true)
    (hvariant : c.variant = "crate" ++ ModulePath.separated names)
    (hnames : ∀ name ∈ names, isWord name.toList = true) :
    Draws (c.lines type)
      (lexemesAll (constantTokens (c.gates.map gateContent) c.name type names)) := by
  have hconst : "const ".toList = "const".toList ++ [' '] := by decide +kernel
  have hcolon : ": ".toList = [':', ' '] := by decide +kernel
  have hequals : " = ".toList = [' ', '=', ' '] := by decide +kernel
  have has : " as ".toList = ' ' :: ("as".toList ++ [' ']) := by decide +kernel
  have hsemicolon : ";".toList = [';'] := by decide +kernel
  have hwords : isWord "const".toList = true ∧ isWord "as".toList = true := by decide +kernel
  have hend : Cut (type.toList ++ [';']) (lexemesAll [ofWord type, ofMark ';']) :=
    Cut.word htype (by simp [wordStops]) (Cut.lastMark (by decide))
  have hcast : Cut (' ' :: ("as".toList ++ ' ' :: (type.toList ++ [';'])))
      (lexemesAll [ofWord "as", ofWord type, ofMark ';']) :=
    .blank (by decide) (Cut.wordBlank hwords.2 hend)
  have hvalue := readsBeforeBlank_path hnames hcast
  rw [← lexemesAll_append] at hvalue
  have hline : Cut ("const " ++ c.name ++ ": " ++ type ++ " = " ++ c.variant ++ " as " ++ type ++
      ";").toList (lexemesAll (constantTokens [] c.name type names)) := by
    rw [hvariant]
    simp only [String.toList_append, List.append_assoc, hconst, hcolon, hequals, has, hsemicolon,
      List.cons_append, List.nil_append] at hvalue ⊢
    refine Cut.wordBlank hwords.1 (Cut.word hname (by simp [wordStops]) ?_)
    refine Cut.alone (by decide) (by decide +kernel) (.blank (by decide) ?_)
    refine Cut.word htype (by simp [wordStops]) (.blank (by decide) ?_)
    exact Cut.alone (by decide) (by decide +kernel) (.blank (by decide) hvalue)
  have hdraws := (draws_gateLines hgates 3).append (Draws.line (l := ⟨3, _⟩) hline)
  rw [← lexemesAll_append] at hdraws
  exact hdraws

/-! ### Lookups -/

/-- What the lookups of an enum are written from can be read: the path of the enum consists of these
names, the last one its own, and its gates, members and parameters are spelled as the grammar wants
them. -/
structure EnumLookup.IsReadable (e : EnumLookup) (names : List String) : Prop where
  path : e.path = "crate" ++ ModulePath.separated names
  own : ∃ around last, names = around ++ [last] ∧ isIdentifier last = true
  names : ∀ name ∈ names, IsPathName name
  gates : ∀ gate ∈ e.gates, IsGate gate
  members : ∀ m ∈ e.members, isIdentifier m.pattern = true
  memberGates : ∀ m ∈ e.members, ∀ gate ∈ m.gates, IsGate gate
  number : ∀ type ∈ e.numberType?, type ∈ numberTypes
  generics : e.generics.IsPlain
  predicates : e.generics ≠ [] →
    ∀ predicate ∈ e.predicates, IsPlainPredicate (placelessAll predicate)

/-- The tokens of an arm of the lookup by value. -/
def valueArmTokens (names : List String) (m : Member) : List TokenTree :=
  armTokens (m.gates.map gateContent)
    (ofWord "crate" :: Grammar.separated (names ++ [m.pattern]))
    (callTokens "Cow" "Borrowed" [ofLiteral (Text.quoted m.description)])

/-- The tokens of an arm of the lookup by number. -/
def numberArmTokens (m : Member × Nat) : List TokenTree :=
  armTokens (m.1.gates.map gateContent) [ofWord (EnumLookup.constantName m.2)]
    (callTokens "Cow" "Borrowed" [ofLiteral (Text.quoted m.1.description)])

/-- The tokens of the constant of a member. -/
def memberConstantTokens (names : List String) (type : String) (m : Member × Nat) :
    List TokenTree :=
  constantTokens (m.1.gates.map gateContent) (EnumLookup.constantName m.2) type
    (names ++ [m.1.pattern])

/-- The tokens of the last arm of the lookup by value. -/
def debugArmTokens : List TokenTree :=
  armTokens [] [ofWord "_"] (callTokens "Cow" "Owned"
    [ofWord "format", ofMark '!', ofGroup .parenthesis [ofLiteral "\"\x7bself:?\x7d\""]])

/-- The tokens of the last arm of the lookup by number. -/
def decimalArmTokens : List TokenTree :=
  armTokens [] [ofWord "_"] (callTokens "Cow" "Owned"
    [ofWord "raw", ofMark '.', ofWord "to_string", ofGroup .parenthesis []])

/-- The tokens that a where clause of the lookup by value begins with. -/
def debugPredicate : List TokenTree :=
  ofWord "Self" ::
    (Grammar.separated [] ++ ofMark ':' :: Grammar.separated ["core", "fmt", "Debug"])

/-- The tokens that open the implementation of the lookup by value. -/
def valueHeaderTokens (e : EnumLookup) (names : List String) : List TokenTree :=
  if e.generics.isEmpty then plainHeader "EnumDescription" names
  else
    declaredHeader e.generics.declaredTokens "EnumDescription" names e.generics.argumentTokens
      (debugPredicate :: e.predicates.map placelessAll)

/-- The tokens of the lookup by value. -/
def valueTokens (e : EnumLookup) (names : List String) : List TokenTree :=
  implTokens (e.gates.map gateContent) (valueHeaderTokens e names)
    (functionTokens "description" [ofMark '&', ofWord "self"]
      [ofWord "match", ofWord "self",
        ofGroup .brace (e.members.flatMap (valueArmTokens names) ++ debugArmTokens)])

/-- The tokens of the lookup by number. -/
def numberTokens (e : EnumLookup) (names : List String) (type : String) : List TokenTree :=
  implTokens (e.gates.map gateContent) (plainHeader "DescribeDiscriminant" names)
    (typeTokens "Repr" type ++
      functionTokens "describe_discriminant" [ofWord "raw", ofMark ':', ofWord type]
        (e.members.zipIdx.flatMap (memberConstantTokens names type) ++
          [ofWord "match", ofWord "raw",
            ofGroup .brace (e.members.zipIdx.flatMap numberArmTokens ++ decimalArmTokens)]))

/-- The lookups of an enum, each in its tokens. -/
def lookupItems (e : EnumLookup) (names : List String) : List (List TokenTree) :=
  valueTokens e names :: (e.numberType?.map (numberTokens e names)).toList

/-- The tokens of the lookups of an enum. -/
def lookupTokens (e : EnumLookup) (names : List String) : List TokenTree :=
  (lookupItems e names).flatten

/-- The line that opens the implementation of a trait. -/
theorem cut_header {trait : String} {names : List String} (htrait : isWord trait.toList = true)
    (hnames : ∀ name ∈ names, IsPathName name) :
    Cut ("impl ".toList ++ (trait.toList ++ (" for ".toList ++
      (("crate" ++ ModulePath.separated names).toList ++ " \x7b".toList))))
      (lexemesAll (plainHeader trait names) ++ [.opening .brace .start]) := by
  have himpl : "impl ".toList = "impl".toList ++ [' '] := by decide +kernel
  have hfor : " for ".toList = ' ' :: ("for".toList ++ [' ']) := by decide +kernel
  have hbrace : " \x7b".toList = [' ', '\x7b'] := by decide +kernel
  have hwords : isWord "impl".toList = true ∧ isWord "for".toList = true := by decide +kernel
  have hopen : Cut [' ', '\x7b'] [.opening .brace .start] :=
    .blank (by decide) (Cut.opening (d := .brace) (by simp) .nil)
  have hpath := readsBeforeBlank_path (fun name h => (hnames name h).isWord) hopen
  rw [himpl, hfor, hbrace]
  simp only [List.append_assoc, List.cons_append, List.nil_append]
  refine Cut.wordBlank hwords.1 (Cut.word htrait (by simp [wordStops]) (.blank (by decide) ?_))
  exact Cut.wordBlank hwords.2 hpath

theorem isIdentifierPart_of_isDigit {c : Char} (h : c.isDigit = true) :
    isIdentifierPart c = true := by
  have hall : ∀ n < 10, xidContinue.holds (48 + n) = true := by decide +kernel
  have hrange : 48 ≤ c.toNat ∧ c.toNat ≤ 57 := by
    simpa [Char.isDigit, Char.le_def, UInt32.le_iff_toNat_le] using h
  have hdigit := hall (c.toNat - 48) (by omega)
  rwa [Nat.add_sub_cancel' hrange.1] at hdigit

/-- The name of a constant is an identifier, and no reserved word. -/
theorem EnumLookup.isIdentifier_constantName (index : Nat) :
    isIdentifier (constantName index) = true := by
  have hname : (constantName index).toList = 'D' :: Nat.toDigits 10 index := by
    simp [constantName, Nat.repr]
  have hdigits : ∀ c ∈ Nat.toDigits 10 index, isIdentifierPart c = true := fun c hc =>
    isIdentifierPart_of_isDigit (Nat.isDigit_of_mem_toDigits (by decide) (by decide) hc)
  have hraw : ¬ ['r', '#'] <+: 'D' :: Nat.toDigits 10 index := by simp
  have hword : Token.isWord (constantName index).toList = true := by
    rw [hname, isWord_iff, afterWord?_of_not_raw hraw]
    refine ⟨fun opening hmem hprefix => ?_, afterIdentifier?_eq_nil_iff.2
      ⟨'D', _, rfl, by decide +kernel, hdigits⟩⟩
    have hall : ∀ opening ∈ stringOpenings, opening.head? ≠ some 'D' ∧ opening ≠ [] := by decide
    obtain ⟨hhead, hne⟩ := hall opening hmem
    obtain ⟨c, more, rfl⟩ := List.exists_cons_of_ne_nil hne
    exact hhead (by rw [(List.cons_prefix_cons.1 hprefix).1]; rfl)
  have hreserved : reservedWords.contains (constantName index) = false := by
    have hall : ∀ word ∈ reservedWords, word.toList.head? ≠ some 'D' := by decide +kernel
    rw [List.contains_eq_mem, decide_eq_false_iff_not]
    exact fun hmem => hall _ hmem (by rw [hname]; rfl)
  rw [isIdentifier, hreserved, hword]
  rfl

theorem draws_closing (level : Nat) : Draws [⟨level, "\x7d"⟩] [.closing .brace .start] := by
  have hcut : Cut "\x7d".toList [.closing .brace .start] := cut_of_eval (by decide +kernel)
  exact .line hcut

section Lookup

variable {e : EnumLookup} {names : List String}

theorem EnumLookup.IsReadable.isWord_path (h : e.IsReadable names) :
    ∀ name ∈ names, Token.isWord name.toList = true := fun name hname => (h.names name hname).isWord

/-- The path of a member is the path of the enum with one more name. -/
theorem EnumLookup.IsReadable.memberPath_eq (h : e.IsReadable names) (m : Member) :
    e.memberPath m = "crate" ++ ModulePath.separated (names ++ [m.pattern]) := by
  rw [EnumLookup.memberPath, h.path]
  simp [ModulePath.separated, String.append_assoc]

theorem EnumLookup.IsReadable.isPathName_member (h : e.IsReadable names) {m : Member}
    (hm : m ∈ e.members) : ∀ name ∈ names ++ [m.pattern], IsPathName name := by
  intro name hname
  rcases List.mem_append.1 hname with hname | hname
  · exact h.names name hname
  · rw [List.mem_singleton.1 hname]
    exact .inl (h.members m hm)

theorem EnumLookup.IsReadable.readsBeforeBlank_memberPath (h : e.IsReadable names) {m : Member}
    (hm : m ∈ e.members) : ReadsBeforeBlank (e.memberPath m)
      (ofWord "crate" :: Grammar.separated (names ++ [m.pattern])) := by
  rw [h.memberPath_eq]
  exact readsBeforeBlank_path fun name hname => (h.isPathName_member hm name hname).isWord

theorem EnumLookup.IsReadable.draws_plainHeader (h : e.IsReadable names) {trait : String}
    (opening : String) (htrait : Token.isWord trait.toList = true)
    (hopening : opening = "impl " ++ trait ++ " for ") :
    Draws [⟨1, opening ++ e.path ++ " \x7b"⟩]
      (lexemesAll (plainHeader trait names) ++ [.opening .brace .start]) := by
  refine .line ?_
  rw [h.path, hopening]
  simpa only [String.toList_append, List.append_assoc] using cut_header htrait h.names

theorem draws_predicates {predicates : List (List TokenTree)}
    (h : ∀ predicate ∈ predicates, IsPlainPredicate (placelessAll predicate)) :
    Draws (predicates.map fun predicate => ⟨2, TokenTree.text predicate ++ ","⟩)
      (lexemesAll (predicateTokens (predicates.map placelessAll))) := by
  have hcomma : ",".toList = [','] := by decide +kernel
  rw [predicateTokens, List.flatMap_map, lexemesAll_flatMap, List.map_eq_flatMap]
  refine .flatMap fun predicate hpredicate => .line ?_
  have hphrase := (h predicate hpredicate).isPhrase
  rw [String.toList_append, hcomma, ← text_placelessAll, TokenTree.text, String.toList_ofList,
    lexemesAll_append]
  exact hphrase.printed.cut (hphrase.stops (by decide) []) (Cut.lastMark (by decide))

/-- The line that declares the parameters of an enum, and hands them on. -/
theorem EnumLookup.IsReadable.cut_declaration (h : e.IsReadable names) :
    Cut ("impl" ++ TokenTree.text e.generics.declaration ++ " EnumDescription for " ++ e.path ++
        TokenTree.text e.generics.arguments).toList
      (lexemesAll (ofWord "impl" :: ofMark '<' :: (e.generics.declaredTokens ++ ofMark '>' ::
        ofWord "EnumDescription" :: ofWord "for" :: ofWord "crate" :: (Grammar.separated names ++
          ofMark '<' :: (e.generics.argumentTokens ++ [ofMark '>']))))) := by
  have hwords : isWord "impl".toList = true ∧ isWord "EnumDescription".toList = true ∧
      isWord "for".toList = true := by decide +kernel
  have hfor : " EnumDescription for ".toList =
      ' ' :: ("EnumDescription".toList ++ ' ' :: ("for".toList ++ [' '])) := by decide +kernel
  -- From the end of the line to its beginning, since a piece is read in front of what follows.
  have harguments := cut_angled IsPlainArgument.isPhrase h.generics.argumentTokens
    (by simp) .nil
  have hpath := Cut.path h.isWord_path (mem_wordStops_of_angled _ []) harguments
  have htrait := Cut.wordBlank hwords.2.1 (Cut.wordBlank hwords.2.2 hpath)
  have hparams := cut_angled IsPlainParam.isPhrase h.generics.declaredTokens (by simp)
    (htrait.blank (c := ' ') (by decide))
  have himpl := Cut.word hwords.1 (mem_wordStops_of_angled _ _) hparams
  rw [h.path]
  simp only [String.toList_append, List.append_assoc, List.cons_append, List.nil_append,
    List.append_nil, lexemesAll, lexemesAll_append, hfor] at himpl ⊢
  exact himpl

theorem EnumLookup.IsReadable.draws_valueHeader (h : e.IsReadable names) :
    Draws e.valueHeader (lexemesAll (valueHeaderTokens e names) ++ [.opening .brace .start]) := by
  have htrait : isWord "EnumDescription".toList = true := by decide +kernel
  rw [EnumLookup.valueHeader, valueHeaderTokens]
  split
  · exact h.draws_plainHeader _ htrait (by decide +kernel)
  · next hgenerics =>
    have hpredicates := draws_predicates (h.predicates (by simpa using hgenerics))
    have hwhere : Draws [⟨1, "where"⟩] [.leaf (ofWord "where")] :=
      .line (cut_of_eval (by decide +kernel))
    have hdebug : Draws [⟨2, "Self: ::core::fmt::Debug,"⟩]
        (lexemesAll (predicateTokens [debugPredicate])) := .line (cut_of_eval (by decide +kernel))
    have hopening : Draws [⟨1, "\x7b"⟩] [.opening .brace .start] :=
      .line (cut_of_eval (by decide +kernel))
    have hdraws := (Draws.line (l := ⟨1, _⟩) h.cut_declaration).append (hwhere.append (hdebug.append
      (hpredicates.append hopening)))
    simpa [declaredHeader, predicateTokens, lexemesAll, lexemes, TokenTree.placeless] using hdraws

theorem EnumLookup.IsReadable.draws_valueLines (h : e.IsReadable names) :
    Draws e.valueLines (lexemesAll (valueTokens e names)) := by
  have hheader := h.draws_valueHeader
  have hsignature : Draws [⟨2, "fn description(&self) -> Cow<'static, str> \x7b"⟩]
      (lexemesAll (signatureTokens "description" [ofMark '&', ofWord "self"]) ++
        [.opening .brace .start]) := .line (cut_of_eval (by decide +kernel))
  have hmatch : Draws [⟨3, "match self \x7b"⟩]
      [.leaf (ofWord "match"), .leaf (ofWord "self"), .opening .brace .start] :=
    .line (cut_of_eval (by decide +kernel))
  have harms : Draws (e.valueArms.flatMap Arm.lines)
      (lexemesAll (e.members.flatMap (valueArmTokens names))) := by
    rw [EnumLookup.valueArms, List.flatMap_map, lexemesAll_flatMap]
    exact .flatMap fun m hm => Arm.draws (h.memberGates m hm) (h.readsBeforeBlank_memberPath hm)
  have hlast : Draws [⟨4, "_ => Cow::Owned(format!(\"\x7bself:?\x7d\")),"⟩]
      (lexemesAll debugArmTokens) := .line (cut_of_eval (by decide +kernel))
  have hclosing := (draws_closing 3).append ((draws_closing 2).append (draws_closing 1))
  have hdraws := (draws_gateLines h.gates 1).append (hheader.append (hsignature.append
    (hmatch.append (harms.append (hlast.append hclosing)))))
  simpa [EnumLookup.valueLines, valueTokens, implTokens, functionTokens, lexemesAll, lexemes,
    TokenTree.placeless] using hdraws

theorem isWord_of_mem_numberTypes {type : String} (h : type ∈ numberTypes) :
    Token.isWord type.toList = true := by
  have hall : ∀ type ∈ numberTypes, Token.isWord type.toList = true := by decide +kernel
  exact hall type h

/-- The line with the number type. -/
theorem cut_type {type : String} (htype : Token.isWord type.toList = true) :
    Cut ("type Repr = " ++ type ++ ";").toList (lexemesAll (typeTokens "Repr" type)) := by
  have hopening : "type Repr = ".toList =
      "type".toList ++ ' ' :: ("Repr".toList ++ [' ', '=', ' ']) := by decide +kernel
  have hsemicolon : ";".toList = [';'] := by decide +kernel
  have hwords : isWord "type".toList = true ∧ isWord "Repr".toList = true := by decide +kernel
  rw [String.toList_append, String.toList_append, hopening, hsemicolon]
  simp only [List.append_assoc, List.cons_append, List.nil_append]
  refine Cut.wordBlank hwords.1 (Cut.wordBlank hwords.2 ?_)
  refine Cut.alone (by decide) (by decide +kernel) (.blank (by decide) ?_)
  exact Cut.word htype (by simp [wordStops]) (Cut.lastMark (by decide))

/-- The line that opens the function from numbers. -/
theorem cut_signature {type : String} (htype : Token.isWord type.toList = true) :
    Cut ("fn describe_discriminant(raw: " ++ type ++ ") -> Cow<'static, str> \x7b").toList
      (lexemesAll (signatureTokens "describe_discriminant"
          [ofWord "raw", ofMark ':', ofWord type]) ++
        [.opening .brace .start]) := by
  have hopening : "fn describe_discriminant(raw: ".toList = "fn".toList ++
      ' ' :: ("describe_discriminant".toList ++ '(' :: ("raw".toList ++ [':', ' '])) := by
    decide +kernel
  have hresult : Cut ") -> Cow<'static, str> \x7b".toList (.closing .parenthesis .start ::
      lexemesAll (ofJoint '-' :: ofMark '>' :: cowTokens) ++ [.opening .brace .start]) :=
    cut_of_eval (by decide +kernel)
  have hparenthesis : ∀ d ∈ ") -> Cow<'static, str> \x7b".toList.head?, d ∈ wordStops := by
    have hhead : ") -> Cow<'static, str> \x7b".toList.head? = some ')' := by decide +kernel
    rw [hhead]
    simp [wordStops]
  have hwords : isWord "fn".toList = true ∧ isWord "describe_discriminant".toList = true ∧
      isWord "raw".toList = true := by decide +kernel
  rw [String.toList_append, String.toList_append, hopening]
  simp only [List.append_assoc, List.cons_append, List.nil_append]
  refine Cut.wordBlank hwords.1 (Cut.word hwords.2.1 (by simp [wordStops]) ?_)
  refine Cut.opening (d := .parenthesis) (by simp) (Cut.word hwords.2.2 (by simp [wordStops]) ?_)
  refine Cut.alone (by decide) (by decide +kernel) (.blank (by decide) ?_)
  exact Cut.word htype hparenthesis hresult

theorem EnumLookup.IsReadable.draws_numberLines (h : e.IsReadable names) {type : String}
    (htype : type ∈ numberTypes) :
    Draws (e.numberLines type) (lexemesAll (numberTokens e names type)) := by
  have hword := isWord_of_mem_numberTypes htype
  have htrait : Token.isWord "DescribeDiscriminant".toList = true := by decide +kernel
  have hheader := h.draws_plainHeader "impl DescribeDiscriminant for " htrait
    (by decide +kernel)
  have hempty : Draws [⟨0, ""⟩] [] := .line .nil
  have hmatch : Draws [⟨3, "match raw \x7b"⟩]
      [.leaf (ofWord "match"), .leaf (ofWord "raw"), .opening .brace .start] :=
    .line (cut_of_eval (by decide +kernel))
  have hconstants : Draws (e.constants.flatMap (·.lines type))
      (lexemesAll (e.members.zipIdx.flatMap (memberConstantTokens names type))) := by
    rw [EnumLookup.constants, List.mapIdx_eq_zipIdx_map, List.flatMap_map, lexemesAll_flatMap]
    refine .flatMap fun m hm => ?_
    have hmem := List.fst_mem_of_mem_zipIdx hm
    exact NumberConstant.draws (h.memberGates _ hmem)
      (IsPathName.isWord (.inl (EnumLookup.isIdentifier_constantName _)))
      hword (h.memberPath_eq _)
      fun name hname => (h.isPathName_member hmem name hname).isWord
  have harms : Draws (e.numberArms.flatMap Arm.lines)
      (lexemesAll (e.members.zipIdx.flatMap numberArmTokens)) := by
    rw [EnumLookup.numberArms, List.mapIdx_eq_zipIdx_map, List.flatMap_map, lexemesAll_flatMap]
    refine .flatMap fun m hm => Arm.draws (h.memberGates _ (List.fst_mem_of_mem_zipIdx hm)) ?_
    exact readsBeforeBlank_word (IsPathName.isWord (.inl (EnumLookup.isIdentifier_constantName _)))
  have hlast : Draws [⟨4, "_ => Cow::Owned(raw.to_string()),"⟩] (lexemesAll decimalArmTokens) :=
    .line (cut_of_eval (by decide +kernel))
  have hclosing := (draws_closing 3).append ((draws_closing 2).append (draws_closing 1))
  have htyped : Draws [⟨2, "type Repr = " ++ type ++ ";"⟩] (lexemesAll (typeTokens "Repr" type)) :=
    .line (cut_type hword)
  have hsignature : Draws
      [⟨2, "fn describe_discriminant(raw: " ++ type ++ ") -> Cow<'static, str> \x7b"⟩]
      (lexemesAll (signatureTokens "describe_discriminant"
          [ofWord "raw", ofMark ':', ofWord type]) ++
        [.opening .brace .start]) := .line (cut_signature hword)
  have hdraws := (draws_gateLines h.gates 1).append (hheader.append (htyped.append (hempty.append
    (hsignature.append (hconstants.append (hmatch.append (harms.append
      (hlast.append hclosing))))))))
  simpa [EnumLookup.numberLines, numberTokens, implTokens, functionTokens, lexemesAll, lexemes,
    TokenTree.placeless] using hdraws

theorem EnumLookup.IsReadable.draws_lines (h : e.IsReadable names) :
    Draws e.lines (lexemesAll (lookupTokens e names)) := by
  have hempty : Draws [⟨0, ""⟩] [] := .line .nil
  have hvalue := hempty.append h.draws_valueLines
  rw [EnumLookup.lines, lookupTokens, lookupItems]
  cases htype : e.numberType? with
  | none => simpa using hvalue
  | some type =>
    have hnumber := hempty.append (h.draws_numberLines (h.number type htype))
    simpa using hvalue.append hnumber

end Lookup

end DescriptionLookup
