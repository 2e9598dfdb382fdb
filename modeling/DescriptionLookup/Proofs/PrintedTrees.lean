import DescriptionLookup.Proofs.AcceptedItems
import DescriptionLookup.Proofs.RespacedTrees

/-!
# Printed trees

Most trees are read as they were printed: words and texts have a blank or the end of their group
behind them, and a mark stands right in front of another one exactly if it is joint with it.

* `IsPrinted`: the trees this is said of;
* `IsPrinted.cut`: what their printed form is read as;
* `isGate_text`: the gates that are read as attributes again.
-/

namespace DescriptionLookup

open Grammar TokenTree Lexeme Token Text

/-- Trees that are read as they were printed. -/
inductive IsPrinted : List TokenTree → Prop
  | nil : IsPrinted []
  | word {name : String} {rest : List TokenTree} : isWord name.toList = true → IsPrinted rest →
    IsPrinted (ofWord name :: rest)
  | mark {c : Char} {rest : List TokenTree} : c ∈ Cut.plainMarks → IsPrinted rest →
    IsPrinted (ofMark c :: rest)
  | joint {c d : Char} {joint : Bool} {rest : List TokenTree} : c ∈ Cut.plainMarks →
    d ∈ Cut.plainMarks → IsPrinted (.mark d joint .start :: rest) →
    IsPrinted (ofJoint c :: .mark d joint .start :: rest)
  | lifetime {name : String} {rest : List TokenTree} : isWord name.toList = true →
    IsPrinted rest → IsPrinted (ofJoint '\x27' :: ofWord name :: rest)
  | literal (value : String) {rest : List TokenTree} : IsPrinted rest →
    IsPrinted (ofLiteral (Text.quoted value) :: rest)
  | group (d : Delimiter) {content rest : List TokenTree} : IsPrinted content → IsPrinted rest →
    IsPrinted (ofGroup d content :: rest)

namespace IsPrinted

variable {trees : List TokenTree} {rest : List Char} {more : List Lexeme}

/-- A word behind an apostrophe is a lifetime. -/
theorem goesOn_of_isWord {name : List Char} (hname : isWord name = true) : GoesOn '\x27' name := by
  have hword := (isWord_iff.1 hname).2
  refine .lifetime (by rw [beginsLifetime, hword]; rfl) ?_
  obtain ⟨c, tail, rfl, hstart⟩ := exists_start_of_isWord hname
  rw [afterQuotedChar?_cons (ne_of_isIdentifierStart hstart (by decide))]
  unfold afterQuotedChar?.closing
  split
  · -- A quote right behind one character would end the word.
    rw [afterWord?_of_not_raw (by simp), afterIdentifier?, if_pos hstart,
      List.dropWhile_cons_of_neg (by decide)] at hword
    cases hword
  · rfl

/-- Printed trees are such as are read from a text. -/
theorem isLexed (h : IsPrinted trees) : IsLexed trees := by
  have hall : ∀ c ∈ Cut.plainMarks, isMark c = true ∧ c ≠ '\x27' ∧ c ≠ '/' :=
    List.all_iff_forall_prop.1 (by decide +kernel)
  induction h with
  | nil => exact .nil
  | word hname _ ih => exact .word _ hname ih
  | mark hc _ ih => exact .mark _ (hall _ hc).1 (hall _ hc).2.1 ih
  | joint hc hd _ ih =>
    exact .joint _ (.mark (hall _ hc).1 (hall _ hc).2.1 (hall _ hd).1
      fun heq => absurd heq (hall _ hc).2.2) ih
  | lifetime hname _ ih => exact .joint _ (goesOn_of_isWord hname) (.word _ hname ih)
  | literal value _ ih => exact .literal _ (.inl (afterLiteral?_quoted value)) ih
  | group d _ _ ih ih' => exact .group d _ _ ih ih'

/-- What is printed is read again, in front of a stop. -/
theorem cut (h : IsPrinted trees) (hstop : Stops trees rest) (hrest : Cut rest more) :
    Cut (printAll trees ++ rest) (lexemesAll trees ++ more) :=
  h.isLexed.cut hstop hrest

end IsPrinted

/-! ### Gates -/

/-- What stands in the brackets of a gate. -/
def gateContent (gate : String) : List TokenTree :=
  match TokenTree.ofText gate with
  | .ok [_, .group _ content _ _] => placelessAll content
  | _ => []

/-- The gate is read as an attribute that is called by a name. -/
structure IsGate (gate : String) : Prop where
  trees : ∃ found, TokenTree.ofText gate = .ok found ∧
    placelessAll found = [ofMark '#', ofGroup .bracket (gateContent gate)]
  content : IsAttributeContent (gateContent gate)
  sharp : gate.toList.head? = some '#'

theorem IsGate.cut {gate : String} (h : IsGate gate) :
    Cut gate.toList (lexemesAll (attributeTokens [gateContent gate])) := by
  obtain ⟨found, hfound, hplaceless⟩ := h.trees
  have hcut := cut_of_ofText (by rw [h.sharp]; decide) hfound
  rwa [← lexemesAll_placelessAll, hplaceless] at hcut

theorem draws_gateLines {gates : List String} (h : ∀ gate ∈ gates, IsGate gate) (level : Nat) :
    Draws (gateLines level gates) (lexemesAll (attributeTokens (gates.map gateContent))) := by
  induction gates with
  | nil => exact .nil
  | cons gate gates ih =>
    obtain ⟨hgate, hgates⟩ := List.forall_mem_cons.1 h
    have hcons := Draws.cons (l := ⟨level, gate⟩) hgate.cut (ih hgates)
    rw [← lexemesAll_append] at hcons
    exact hcons

/-- What stands behind the path of an attribute is read as it was printed. -/
inductive Attribute.Argument.IsPrinted : Attribute.Argument → Prop
  | nothing : Attribute.Argument.IsPrinted .nothing
  | list (d : Delimiter) {tokens : List TokenTree} :
    DescriptionLookup.IsPrinted (placelessAll tokens) →
    Attribute.Argument.IsPrinted (.list d tokens)
  | text {expression : Expression} (value : String) :
    placelessAll expression.tokens = [ofLiteral (Text.quoted value)] →
    Attribute.Argument.IsPrinted (.value expression)

namespace Attribute

variable {a : Attribute} {name : String}

theorem isPrinted_tokens (hword : Token.isWord name.toList = true)
    (hname : a.isNamed name = true) (h : a.argument.IsPrinted) :
    IsPrinted (placelessAll a.tokens) ∧
      ∃ argument, placelessAll a.tokens = ofWord name :: argument ∧ IsArgument argument := by
  obtain ⟨path, argument⟩ := a
  obtain rfl : path = .ofName name := (Path.isName_iff _ _).1 hname
  have htokens : (Path.ofName name).tokens = [ofWord name] := by
    simp [Path.tokens, Path.ofName, List.intercalate]
  rw [tokens, htokens, List.singleton_append, placelessAll]
  cases h with
  | nothing => exact ⟨.word hword .nil, _, rfl, .nothing⟩
  | list d h => exact ⟨.word hword (.group d h .nil), _, rfl, .list d _⟩
  | text value h =>
    dsimp only
    rw [placelessAll, h]
    exact ⟨.word hword (.mark (by decide) (.literal value .nil)), _, rfl, .value _⟩

/-- An attribute that is called by an identifier is read as it was written, as an attribute. -/
theorem isGate_text (hname : a.isNamed name = true) (hidentifier : isIdentifier name = true)
    (h : a.argument.IsPrinted) : IsGate a.text := by
  obtain ⟨hprinted, argument, htokens, hargument⟩ :=
    isPrinted_tokens (IsPathName.isWord (.inl hidentifier)) hname h
  obtain ⟨found, hfound, hplaceless⟩ := exists_ofText_attribute hprinted.isLexed
  rw [placelessAll_placelessAll] at hplaceless
  have htext : "#[" ++ TokenTree.text (placelessAll a.tokens) ++ "]" = a.text := by
    rw [text_placelessAll]
    rfl
  rw [htext] at hfound
  have hcontent : gateContent a.text = placelessAll a.tokens := by
    obtain ⟨sharp, found, rfl, hsharp, hgroup⟩ := placelessAll_eq_cons hplaceless
    obtain ⟨group, found, rfl, hgroup, hnil⟩ := placelessAll_eq_cons hgroup
    obtain ⟨content, opened, closed, rfl, hcontent⟩ := placeless_eq_group hgroup
    obtain rfl := eq_nil_of_placelessAll hnil
    rw [gateContent, hfound]
    exact hcontent
  refine ⟨⟨found, hfound, hplaceless.trans (by rw [hcontent])⟩, ?_, ?_⟩
  · rw [hcontent, htokens]
    exact .named hidentifier hargument
  · rw [← htext]
    simp

end Attribute

/-- The gates of attributes are read as they were written. -/
theorem isGate_of_mem_gates_of_isPrinted {attributes : List Attribute}
    (h : ∀ a ∈ attributes, a.isNamed "cfg" = true → a.argument.IsPrinted) :
    ∀ gate ∈ gates attributes, IsGate gate := by
  have hcfg : isIdentifier "cfg" = true := by decide +kernel
  intro gate hgate
  obtain ⟨a, ha, rfl⟩ := List.mem_map.1 hgate
  obtain ⟨hmem, hname⟩ := List.mem_filter.1 ha
  exact Attribute.isGate_text hname hcfg (h a hmem hname)

end DescriptionLookup
