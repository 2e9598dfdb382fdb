import DescriptionLookup.Proofs.RenderedLookups

/-!
# Lookups that are read back

The trees of a unit are those of one module with two imports and some implementations.

* `accepts_valueTokens`, `accepts_numberTokens`: lookups are implementations;
* `accepts_unit`, `UnitItems`: the file with the module of all lookups;
* `MountsAt`, `draws_descriptionLines`: the lines of a unit, with the traits imported from a mount.
-/

namespace DescriptionLookup

open Grammar Grammar.Parser TokenTree

namespace Grammar.Parser

variable {α β : Type} {p : Parser α} {trees : List TokenTree}

theorem AcceptsEach.imp {Q Q' : List α → Prop} (h : AcceptsEach p trees Q)
    (himp : ∀ as, Q as → Q' as) : AcceptsEach p trees Q' := by
  induction h generalizing Q' with
  | nil hQ => exact .nil (himp _ hQ)
  | cons hp hlength _ ih => exact .cons hp hlength fun a ha => ih a ha fun as => himp (a :: as)

/-- Phrases of one kind, and what follows them. -/
theorem AcceptsEach.behind {P : α → Prop} {Q : List α → Prop} {bs : List β}
    {tokens : β → List TokenTree} (hne : ∀ b ∈ bs, tokens b ≠ [])
    (h : ∀ b ∈ bs, ∀ rest, Accepts p (tokens b ++ rest) P rest) (htail : AcceptsEach p trees Q) :
    AcceptsEach p (bs.flatMap tokens ++ trees)
      fun as => ∃ before behind, as = before ++ behind ∧ (∀ a ∈ before, P a) ∧ Q behind := by
  induction bs with
  | nil => exact htail.imp fun as hQ => ⟨[], as, rfl, by simp, hQ⟩
  | cons b bs ih =>
    obtain ⟨hb, hne⟩ := List.forall_mem_cons.1 hne
    obtain ⟨hp, h⟩ := List.forall_mem_cons.1 h
    rw [List.flatMap_cons, List.append_assoc]
    have hpos := List.length_pos_iff.2 hb
    refine .cons (hp _) (by simp only [List.length_append]; omega) fun a ha => (ih hne h).imp ?_
    rintro _ ⟨before, behind, rfl, hbefore, hQ⟩
    exact ⟨a :: before, behind, rfl, List.forall_mem_cons.2 ⟨ha, hbefore⟩, hQ⟩

/-- One phrase to the end. -/
theorem AcceptsEach.single {P : α → Prop} {Q : List α → Prop} (hne : trees ≠ [])
    (h : Accepts p trees P []) (hQ : ∀ a, P a → Q [a]) : AcceptsEach p trees Q :=
  .cons h (List.length_pos_iff.2 hne) fun a ha => .nil (hQ a ha)

end Grammar.Parser

section Lookup

variable {e : EnumLookup} {names : List String}

theorem isAttributeContent_of_isGate {gates : List String} (h : ∀ gate ∈ gates, IsGate gate) :
    ∀ content ∈ gates.map gateContent, IsAttributeContent content :=
  List.forall_mem_map.2 fun gate hgate => (h gate hgate).content

/-- An attribute in front of an arm is no inner attribute. -/
theorem begins_behindFirst_arm {contents : List (List TokenTree)} {pattern : List TokenTree}
    (hpattern : IsPattern pattern) (answer rest : List TokenTree) :
    (Expected.mark "!").begins (behindFirst (armTokens contents pattern answer ++ rest)) =
      false := by
  rcases contents with _ | ⟨content, contents⟩
  · rcases hpattern with @⟨_ | ⟨name, names⟩, _⟩ | _ | _ <;> rfl
  · rfl

theorem armTokens_ne_nil (contents : List (List TokenTree)) (pattern answer : List TokenTree) :
    armTokens contents pattern answer ≠ [] := by
  simp [armTokens]

/-- Arms that answer with texts, and one behind them, are the arms of a match. -/
theorem acceptsEach_arms {β : Type} {n : Nat} {bs : List β} {contents : β → List (List TokenTree)}
    {pattern : β → List TokenTree} {text : β → String} {arguments : List TokenTree}
    (hcontents : ∀ b ∈ bs, ∀ content ∈ contents b, IsAttributeContent content)
    (hpattern : ∀ b ∈ bs, IsPattern (pattern b))
    (harguments : Accepts (expressions (nonterminals (n + 3))) arguments (fun _ => True) []) :
    AcceptsEach (arm (nonterminals (n + 4)))
      (bs.flatMap (fun b => armTokens (contents b) (pattern b)
          (callTokens "Cow" "Borrowed" [ofLiteral (Text.quoted (text b))])) ++
        armTokens [] [ofWord "_"] (callTokens "Cow" "Owned" arguments)) fun _ => True := by
  have hwords : isIdentifier "Cow" = true ∧ isIdentifier "Borrowed" = true ∧
      isIdentifier "Owned" = true := by decide +kernel
  have hshape : ∀ value, isRange (literalShape value) = false := by
    intro value
    unfold literalShape
    split <;> rfl
  have hlast : Accepts (arm (nonterminals (n + 4)))
      (armTokens [] [ofWord "_"] (callTokens "Cow" "Owned" arguments) ++ []) (fun _ => True) [] :=
    accepts_arm (by simp) .any hwords.1 hwords.2.2 harguments
  rw [List.append_nil] at hlast
  refine (AcceptsEach.behind (P := fun _ => True) (fun b _ => armTokens_ne_nil _ _ _)
    (fun b hb rest => ?_) (.single (Q := fun _ => True) (armTokens_ne_nil _ _ _) hlast
      fun _ _ => trivial)).imp fun _ _ => trivial
  exact accepts_arm (hcontents b hb) (hpattern b hb) hwords.1 hwords.2.1
    (accepts_expressions_literal (hshape _))

/-- A match whose arms answer with texts, and with one behind them, is a statement. -/
theorem accepts_statement_arms {β : Type} {n : Nat} {head : String} (hhead : IsPathHead head)
    {bs : List β} {contents : β → List (List TokenTree)} {pattern : β → List TokenTree}
    {text : β → String} {arguments : List TokenTree}
    (hcontents : ∀ b ∈ bs, ∀ content ∈ contents b, IsAttributeContent content)
    (hpattern : ∀ b ∈ bs, IsPattern (pattern b))
    (harguments : Accepts (expressions (nonterminals (n + 3))) arguments (fun _ => True) []) :
    Accepts (statement (nonterminals (n + 5))) [ofWord "match", ofWord head, ofGroup .brace
      (bs.flatMap (fun b => armTokens (contents b) (pattern b)
          (callTokens "Cow" "Borrowed" [ofLiteral (Text.quoted (text b))])) ++
        armTokens [] [ofWord "_"] (callTokens "Cow" "Owned" arguments))] (· = false) [] := by
  refine accepts_statement_match hhead (acceptsEach_arms hcontents hpattern harguments) ?_
  cases bs with
  | nil => rfl
  | cons b bs =>
    rw [List.flatMap_cons, List.append_assoc]
    exact begins_behindFirst_arm (hpattern b List.mem_cons_self) _ _

/-- A function is all that an implementation consists of. -/
theorem acceptsEach_function {n : Nat} {name : String} {arguments body : List TokenTree}
    (h : Accepts (implMember (nonterminals n)) (functionTokens name arguments body ++ [])
      (fun _ => True) []) :
    AcceptsEach (implMember (nonterminals n)) (functionTokens name arguments body) fun _ => True :=
  .single (by simp [functionTokens]) (List.append_nil _ ▸ h) fun _ _ => trivial

theorem isPlainPredicate_debugPredicate : IsPlainPredicate debugPredicate := by
  have hnames : isIdentifier "core" = true ∧ isIdentifier "fmt" = true ∧
      isIdentifier "Debug" = true := by decide +kernel
  refine .type (.inr (by decide)) (by simp) (.last (.trait (.absolute (.inl hnames.1) ?_)))
  simpa using ⟨.inl hnames.2.1, .inl hnames.2.2⟩

theorem accepts_valueTokens {n : Nat} (h : e.IsReadable names) (rest : List TokenTree) :
    Accepts (item (nonterminals (n + 6))) (valueTokens e names ++ rest) (· = .unnamed) rest := by
  have hwords : isIdentifier "EnumDescription" = true ∧ isIdentifier "description" = true ∧
      isIdentifier "format" = true := by decide +kernel
  have hmatch : Accepts (statement (nonterminals (n + 5))) [ofWord "match", ofWord "self",
      ofGroup .brace (e.members.flatMap (valueArmTokens names) ++ debugArmTokens)] (· = false) [] :=
    accepts_statement_arms (.inr (by decide))
      (fun m hm => isAttributeContent_of_isGate (h.memberGates m hm))
      (fun m hm => .path (h.isPathName_member hm)) (accepts_expressions_invocation hwords.2.2 _)
  have hbody := accepts_statements ([] : List Unit) (fun _ => []) (by simp) (by simp) (by simp)
    (by simp) rfl hmatch
  have hmember := acceptsEach_function
    (accepts_implMember_function hwords.2.1 accepts_functionArguments_receiver rfl hbody)
  rw [valueTokens, valueHeaderTokens]
  split
  · exact accepts_item_impl (isAttributeContent_of_isGate h.gates) hwords.1 h.names rfl hmember
  · next hgenerics =>
    obtain ⟨around, last, rfl, hlast⟩ := h.own
    refine accepts_item_impl_declared (isAttributeContent_of_isGate h.gates)
      h.generics.declaredTokens hwords.1
      (fun name hname => h.names name (List.mem_append_left _ hname)) hlast
      h.generics.argumentTokens ?_ rfl hmember
    refine List.forall_mem_cons.2 ⟨isPlainPredicate_debugPredicate, List.forall_mem_map.2 ?_⟩
    exact h.predicates (by simpa using hgenerics)

/-- No attribute in front of a constant is an inner one. -/
theorem begins_behindFirst_constant (contents : List (List TokenTree)) (name type : String)
    (rest : List TokenTree) : (Expected.mark "!").begins
      (behindFirst (constantTokens contents name type names ++ rest)) = false := by
  cases contents <;> rfl

theorem isIdentifier_of_mem_numberTypes {type : String} (h : type ∈ numberTypes) :
    isIdentifier type = true := by
  have hall : ∀ type ∈ numberTypes, isIdentifier type = true := by decide +kernel
  exact hall type h

/-- The constant of a member is a statement. -/
theorem accepts_statement_memberConstant {n : Nat} (h : e.IsReadable names) {type : String}
    (htype : isIdentifier type = true) {m : Member × Nat} (hm : m ∈ e.members.zipIdx)
    (more : List TokenTree) :
    Accepts (statement (nonterminals (n + 5))) (memberConstantTokens names type m ++ more)
      (· = false) more := by
  have hmem := List.fst_mem_of_mem_zipIdx hm
  have hcontents := isAttributeContent_of_isGate (h.memberGates _ hmem)
  have hidentifier := EnumLookup.isIdentifier_constantName m.2
  have hitem : Accepts (nonterminals (n + 5)).item (memberConstantTokens names type m ++ more)
      (· = .named .constant (EnumLookup.constantName m.2)) more :=
    accepts_item_const hcontents hidentifier (h.isPathName_member hmem) htype
  rw [memberConstantTokens, constantTokens, List.append_assoc] at hitem ⊢
  exact accepts_statement_const hcontents hidentifier hitem

theorem accepts_numberTokens {n : Nat} (h : e.IsReadable names) {type : String}
    (htype : type ∈ numberTypes) (rest : List TokenTree) :
    Accepts (item (nonterminals (n + 6))) (numberTokens e names type ++ rest) (· = .unnamed)
      rest := by
  have hwords : isIdentifier "DescribeDiscriminant" = true ∧ isIdentifier "Repr" = true ∧
      isIdentifier "describe_discriminant" = true ∧ isIdentifier "raw" = true ∧
      isIdentifier "to_string" = true := by decide +kernel
  obtain ⟨htrait, hRepr, hname, hraw, hmethod⟩ := hwords
  have hnumber := isIdentifier_of_mem_numberTypes htype
  have hmatch : Accepts (statement (nonterminals (n + 5))) [ofWord "match", ofWord "raw",
      ofGroup .brace (e.members.zipIdx.flatMap numberArmTokens ++ decimalArmTokens)]
      (· = false) [] :=
    accepts_statement_arms (.inl hraw)
      (fun m hm => isAttributeContent_of_isGate (h.memberGates _ (List.fst_mem_of_mem_zipIdx hm)))
      (fun m _ => .name (EnumLookup.isIdentifier_constantName m.2))
      (accepts_expressions_method hraw hmethod)
  have hbody := accepts_statements e.members.zipIdx (memberConstantTokens names type)
    (fun m _ => by simp [memberConstantTokens, constantTokens])
    (fun m _ more => by
      rw [memberConstantTokens, constantTokens]
      cases m.1.gates <;> rfl)
    (fun m hm more => accepts_statement_memberConstant h hnumber hm more) (by simp) rfl hmatch
  have hbodyInner : (Expected.mark "!").begins (behindFirst
      (e.members.zipIdx.flatMap (memberConstantTokens names type) ++ [ofWord "match", ofWord "raw",
        ofGroup .brace (e.members.zipIdx.flatMap numberArmTokens ++ decimalArmTokens)])) =
          false := by
    rcases e.members.zipIdx with _ | ⟨m, members⟩
    · rfl
    · rw [List.flatMap_cons, List.append_assoc]
      exact begins_behindFirst_constant _ _ _ _
  have hfunction := acceptsEach_function (accepts_implMember_function hname
    (accepts_functionArguments_typed hraw hnumber) hbodyInner hbody)
  have hmembers : AcceptsEach (implMember (nonterminals (n + 6))) _ fun _ => True :=
    .cons (accepts_implMember_type hRepr hnumber) (by simp [typeTokens]; omega) fun _ _ => hfunction
  exact accepts_item_impl (isAttributeContent_of_isGate h.gates) htrait h.names rfl hmembers

end Lookup

/-! ### Units -/

/-- The documentation of the module of lookups. -/
def documentationContent : List TokenTree :=
  [ofWord "doc", ofMark '=',
    ofLiteral "\" Description lookups for every marked enum in this crate.\""]

/-- The lints that do not apply to the module of lookups. -/
def allowContent : List TokenTree :=
  [ofWord "allow", ofGroup .parenthesis [ofWord "unreachable_patterns", ofMark ',',
    ofWord "unused_imports", ofMark ',', ofWord "clippy", ofJoint ':', ofMark ':', ofWord "all",
    ofMark ',', ofWord "clippy", ofJoint ':', ofMark ':', ofWord "pedantic"]]

/-- The names of the traits in braces. -/
def traitsTokens : List TokenTree :=
  [ofGroup .brace [ofWord "DescribeDiscriminant", ofMark ',', ofWord "EnumDescription"]]

/-- The tokens of the import of the traits under the path of a module. -/
def mountTokens (path : Path) : List TokenTree :=
  importTokens path.absolute (path.segments ++ ["enum_description"]) traitsTokens

variable {α : Type} {as : List α} {lookup : α → EnumLookup} {names : α → List String} {path : Path}

/-- The tokens of the unit of lookups. -/
def unitTokens (path : Path) (as : List α) (lookup : α → EnumLookup) (names : α → List String) :
    List TokenTree :=
  moduleTokens [documentationContent, allowContent] "enum_descriptions"
    (importTokens true ["std", "borrow"] [ofWord "Cow"] ++ (mountTokens path ++
      as.flatMap fun a => lookupTokens (lookup a) (names a)))

/-- The items of the unit of lookups: two imports and implementations. -/
def UnitItems (path : Path) (items : List Item) : Prop :=
  ∃ impls, items = .imports true (.under ["std", "borrow"] (.name "Cow")) ::
    .imports path.absolute (.under (path.segments ++ ["enum_description"])
      (.group [.name "DescribeDiscriminant", .name "EnumDescription"])) :: impls ∧
    ∀ item ∈ impls, item = .unnamed

/-- The lookups of an enum are implementations. -/
theorem accepts_of_mem_lookupItems {n : Nat} {e : EnumLookup} {names : List String}
    (h : e.IsReadable names) {tokens : List TokenTree} (htokens : tokens ∈ lookupItems e names) :
    tokens ≠ [] ∧ ∀ rest, Accepts (item (nonterminals (n + 6))) (tokens ++ rest) (· = .unnamed)
      rest := by
  rcases List.mem_cons.1 htokens with rfl | htokens
  · exact ⟨by simp [valueTokens, implTokens], accepts_valueTokens h⟩
  · obtain ⟨type, htype, rfl⟩ := Option.map_eq_some_iff.1 (Option.mem_toList.1 htokens)
    exact ⟨by simp [numberTokens, implTokens], accepts_numberTokens h (h.number type htype)⟩

theorem acceptsEach_lookupTokens {n : Nat} (h : ∀ a ∈ as, (lookup a).IsReadable (names a)) :
    AcceptsEach (item (nonterminals (n + 6)))
      (as.flatMap fun a => lookupTokens (lookup a) (names a))
      fun items => ∀ item ∈ items, item = .unnamed := by
  have hlookup : ∀ tokens ∈ as.flatMap (fun a => lookupItems (lookup a) (names a)),
      tokens ≠ [] ∧ ∀ rest, Accepts (item (nonterminals (n + 6))) (tokens ++ rest) (· = .unnamed)
        rest := by
    intro tokens htokens
    obtain ⟨a, ha, htokens⟩ := List.mem_flatMap.1 htokens
    exact accepts_of_mem_lookupItems (h a ha) htokens
  have hbehind := AcceptsEach.behind (Q := (· = [])) (fun tokens hmem => (hlookup tokens hmem).1)
    (fun tokens hmem => (hlookup tokens hmem).2) (.nil rfl)
  rw [List.append_nil, List.flatMap_assoc] at hbehind
  simp only [List.flatMap_id'] at hbehind
  refine hbehind.imp ?_
  rintro _ ⟨items, _, rfl, hitems, rfl⟩
  rwa [List.append_nil]

theorem accepts_unit {n : Nat} (hpath : ∀ name ∈ path.segments, IsImportName name)
    (h : ∀ a ∈ as, (lookup a).IsReadable (names a)) :
    Accepts (file (nonterminals (n + 8))) (unitTokens path as lookup names)
      (fun source => source.attributes = [] ∧ ∃ attributes items,
        source.items = [.inlineModule ⟨attributes, .everywhere, "enum_descriptions"⟩ items] ∧
        UnitItems path items) [] := by
  have hwords : isIdentifier "Cow" = true ∧ isIdentifier "DescribeDiscriminant" = true ∧
      isIdentifier "EnumDescription" = true ∧ isIdentifier "enum_descriptions" = true ∧
      isIdentifier "doc" = true ∧ isIdentifier "allow" = true := by
    decide +kernel
  obtain ⟨hCow, hnumber, hvalue, hmodule, hdoc, hallow⟩ := hwords
  have hstd : ∀ name ∈ ["std", "borrow"], IsImportName name := by
    have hall : ∀ name ∈ ["std", "borrow"], isIdentifier name = true := by decide +kernel
    exact fun name hname => .inl (hall name hname)
  have hmount : ∀ name ∈ path.segments ++ ["enum_description"], IsImportName name := by
    have hlast : isIdentifier "enum_description" = true := by decide +kernel
    exact List.forall_mem_append.2 ⟨hpath, by simpa using .inl hlast⟩
  have hitems : AcceptsEach (item (nonterminals (n + 6)))
      (importTokens true ["std", "borrow"] [ofWord "Cow"] ++ (mountTokens path ++
        as.flatMap fun a => lookupTokens (lookup a) (names a))) (UnitItems path) := by
    refine .cons (accepts_item_import 1 hstd rfl (by simp) fun anew m =>
      accepts_useTree_name hCow rfl) (by simp [importTokens]; omega) fun first hfirst => ?_
    refine .cons (accepts_item_import 2 hmount rfl (by simp [traitsTokens]) fun anew m =>
      accepts_useTree_pair hnumber hvalue) (by simp [mountTokens, importTokens]; omega)
      fun second hsecond => ?_
    exact (acceptsEach_lookupTokens h).imp fun impls himpls =>
      ⟨impls, by rw [hfirst, hsecond], himpls⟩
  have hcontents : ∀ content ∈ [documentationContent, allowContent],
      IsAttributeContent content := by
    simp only [List.forall_mem_cons]
    exact ⟨.named hdoc (.value _), .named hallow (.list _ _), by simp⟩
  have hfound : Accepts (item (nonterminals (n + 7)))
      (unitTokens path as lookup names ++ []) _ [] :=
    accepts_item_module hcontents hmodule rfl hitems
  rw [List.append_nil] at hfound
  have heach : AcceptsEach (item (nonterminals (n + 7))) (unitTokens path as lookup names)
      fun items => ∃ attributes inner, items =
        [.inlineModule ⟨attributes, .everywhere, "enum_descriptions"⟩ inner] ∧
          UnitItems path inner := by
    refine .single (by simp [unitTokens, moduleTokens]) hfound ?_
    rintro _ ⟨attributes, inner, rfl, hinner⟩
    exact ⟨attributes, inner, rfl, hinner⟩
  exact accepts_file rfl heach

/-! ### Texts of units -/

/-- The line that imports the traits from the module where the units are included. -/
def importLine (mount : String) : String :=
  "use " ++ mount ++ "::enum_description::\x7bDescribeDiscriminant, EnumDescription\x7d;"

/-- Where the traits are imported, the text of the mount is read as this path and nothing else. -/
structure MountsAt (mount : String) (path : Path) : Prop where
  names : ∀ name ∈ path.segments, IsImportName name
  line : ∃ found, TokenTree.ofText (importLine mount) = .ok found ∧
    placelessAll found = mountTokens path

open Lexeme

theorem draws_descriptionLines {mount : String} (hmount : MountsAt mount path)
    (h : ∀ a ∈ as, (lookup a).IsReadable (names a)) :
    Draws (GeneratedUnit.descriptionLines mount (as.map lookup))
      (lexemesAll (unitTokens path as lookup names)) := by
  have hline : Cut (importLine mount).toList (lexemesAll (mountTokens path)) := by
    obtain ⟨found, hfound, hplaceless⟩ := hmount.line
    have hhead : (importLine mount).toList.head? = some 'u' := by
      have huse : "use ".toList = ['u', 's', 'e', ' '] := by decide +kernel
      simp [importLine, huse]
    have hcut := cut_of_ofText (by rw [hhead]; decide) hfound
    rwa [← lexemesAll_placelessAll, hplaceless] at hcut
  have hheader : Draws [GeneratedUnit.header] [] := .line (cut_of_eval (by decide +kernel))
  have hempty : Draws [⟨0, ""⟩] [] := .line .nil
  have hdocumentation :
      Draws [⟨0, "/// Description lookups for every marked enum in this crate."⟩]
        (lexemesAll (attributeTokens [documentationContent])) :=
    .line (cut_of_eval (by decide +kernel))
  have hallow : Draws
      [⟨0, "#[allow(unreachable_patterns, unused_imports, clippy::all, clippy::pedantic)]"⟩]
      (lexemesAll (attributeTokens [allowContent])) := .line (cut_of_eval (by decide +kernel))
  have hmodule : Draws [⟨0, "pub mod enum_descriptions \x7b"⟩]
      [.leaf (ofWord "pub"), .leaf (ofWord "mod"), .leaf (ofWord "enum_descriptions"),
        .opening .brace .start] := .line (cut_of_eval (by decide +kernel))
  have hCow : Draws [⟨1, "use ::std::borrow::Cow;"⟩]
      (lexemesAll (importTokens true ["std", "borrow"] [ofWord "Cow"])) :=
    .line (cut_of_eval (by decide +kernel))
  have htraits : Draws [⟨1, importLine mount⟩] (lexemesAll (mountTokens path)) := .line hline
  have hlookups : Draws ((as.map lookup).flatMap EnumLookup.lines)
      (as.flatMap fun a => lexemesAll (lookupTokens (lookup a) (names a))) := by
    rw [List.flatMap_map]
    exact .flatMap fun a ha => (h a ha).draws_lines
  have hdraws := hheader.append (hempty.append (hdocumentation.append (hallow.append
    (hmodule.append (hCow.append (hempty.append (htraits.append
      (hlookups.append (draws_closing 0)))))))))
  simpa [GeneratedUnit.descriptionLines, importLine, unitTokens, moduleTokens, attributeTokens,
    lexemesAll, lexemes, TokenTree.placeless] using hdraws

end DescriptionLookup
