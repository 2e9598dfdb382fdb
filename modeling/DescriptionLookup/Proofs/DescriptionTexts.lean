import DescriptionLookup.Proofs.Lookups
import DescriptionLookup.Proofs.ReadAttributes
import DescriptionLookup.Proofs.TextPieces

/-!
# Texts from source to lookup

A text is written in a source as a literal of any form, read from it, and written again as a literal
in the arms of the lookups. The two literals may differ, but they denote the same text.

* `Text.IsWritten`: a literal as generated code has it;
* `Text.isWritten_quoted`: every text has such a literal;
* `Attribute.IsReadFrom.text?_eq`: what an attribute in a source says;
* `MarkedEnum.texts_kept`: from the attribute of a variant to its arms.
-/

namespace DescriptionLookup

/-! ### Literals as they are written -/

namespace Text

end Text

/-! ### Literals as they are read -/

namespace Grammar

open Grammar.Parser TokenTree

variable {rest : List TokenTree} {literal : String}

/-- The argument before it ends here: a comma follows, or nothing. -/
inductive EndsArgument : List TokenTree → Prop
  | nil : EndsArgument []
  | comma (joint : Bool) (more : List TokenTree) : EndsArgument (.mark ',' joint .start :: more)

theorem isRange_literalShape (literal : String) : isRange (literalShape literal) = false := by
  unfold literalShape
  split <;> rfl

theorem EndsArgument.lacks_operandGoesOn (h : EndsArgument rest) :
    lacks operandGoesOn rest = true := by
  cases h with
  | nil => rfl
  | comma joint => cases joint <;> rfl

theorem EndsArgument.lacks_expressionGoesOn (h : EndsArgument rest) :
    lacks expressionGoesOn rest = true := by
  cases h with
  | nil => rfl
  | comma joint => cases joint <;> rfl

theorem accepts_operand_literal {g : Nonterminals} (h : EndsArgument rest) :
    Accepts (operand g true) (ofLiteral literal :: rest) (· = literalShape literal) rest := by
  have hatom : Accepts (atom g true) (ofLiteral literal :: rest) (· = literalShape literal) rest :=
    .look (.iteTrue rfl ((accepts_literal literal).andThen (.pure rfl)))
  have htrailers : Accepts (trailers g (literalShape literal)) ([].flatten ++ rest)
      (· = literalShape literal) rest :=
    accepts_trailers [] (by simp) (isRange_literalShape literal) h.lacks_operandGoesOn
  exact accepts_operand rfl hatom htrailers (isRange_literalShape literal)

/-- A literal that is the whole of an argument is read as what it denotes. -/
theorem accepts_expression_literal {n : Nat} (h : EndsArgument rest) :
    Accepts ((nonterminals (n + 3)).expression true) (ofLiteral literal :: rest)
      (· = literalShape literal) rest :=
  accepts_expression [] (accepts_operand_literal h) (by simp) (isRange_literalShape literal)
    h.lacks_expressionGoesOn (by simp)

theorem accepts_expressionPhrase_literal {n : Nat} (h : EndsArgument rest) :
    Accepts (expressionPhrase (nonterminals (n + 3))) (ofLiteral literal :: rest)
      (·.shape = literalShape literal) rest :=
  (accepts_captured (accepts_expression_literal h)).bind fun _ hfound => .pure hfound

namespace Parser

variable {α β : Type} {p : Parser α} {Q : α → Prop} {R : β → Prop} {trees : List TokenTree}
  {s : State}

theorem yieldsAt_bind {f : α → Parser β} (hp : YieldsAt s p Q) (hf : ∀ a, Q a → Yields (f a) R) :
    YieldsAt s (p >>= f) R := by
  intro result state' h
  obtain ⟨a, between, ha, h⟩ := bind_eq_ok.1 h
  exact hf a (hp a between ha) between result state' h

/-- The first phrase that was read is like this. The phrases of a round are in reverse. -/
def FirstIs (Q : α → Prop) : Round (List α) (List α) → Prop
  | .again found => ∃ first, found.getLast? = some first ∧ Q first
  | .done found => ∃ first, found.head? = some first ∧ Q first

/-- If the first of several phrases is accepted, it is the first of the answers. The other phrases
may be anything. -/
theorem yieldsAt_commaSeparated (h : Accepts p trees Q rest) (htrees : trees ≠ [])
    (hs : Faces s trees) :
    YieldsAt s (commaSeparated p) fun found => ∃ first, found.head? = some first ∧ Q first := by
  have hnonempty : s.rest.isEmpty = false := by
    cases hrest : s.rest with
    | nil => exact absurd (hs.rest.symm.trans (congrArg placelessAll hrest)) htrees
    | cons => rfl
  refine yieldsAt_get ?_
  rw [repeatUpTo]
  -- the first round reads the phrase, and the others keep it
  refine yieldsAt_bind (Q := FirstIs Q) ?_ fun round hround => ?_
  · refine yieldsAt_ite (fun hend => ?_) fun _ => ?_
    · rw [hnonempty] at hend
      cases hend
    refine yieldsAt_bind (h.yieldsAt hs) fun result hresult => ?_
    refine yields_after fun _ => yields_ite ?_ ?_
    · exact yields_pure ⟨result, rfl, hresult⟩
    · exact yields_after fun _ => yields_pure ⟨result, rfl, hresult⟩
  cases round with
  | done found => exact yields_pure hround
  | again found =>
    refine yields_repeatUpTo (R := fun found => FirstIs Q (.again found)) ?_ _ hround
    rintro found ⟨first, hfirst, hQ⟩
    have hmore : ∀ result, (result :: found).getLast? = some first := fun result => by
      rw [List.getLast?_cons, hfirst]
      rfl
    refine yields_after fun _ => yields_ite (yields_pure ⟨first, by simpa, hQ⟩) ?_
    refine yields_after fun result => yields_after fun _ => yields_ite (yields_pure ?_)
      (yields_after fun _ => yields_pure ?_)
    · exact ⟨first, by rw [List.head?_reverse, hmore], hQ⟩
    · exact ⟨first, hmore result, hQ⟩

theorem holds_of_parseTrees {phrase : Nonterminals → Parser α} {a : α}
    (h : YieldsAt ⟨trees, .start, none, none, []⟩ (phrase (nonterminalsFor trees)) Q)
    (ha : parseTrees phrase trees = .ok a) : Q a := by
  obtain ⟨state, ha, -⟩ := exists_of_readAll ha
  exact h _ _ ha

end Parser

theorem EndsArgument.placelessAll (h : EndsArgument rest) : EndsArgument (placelessAll rest) := by
  cases h with
  | nil => exact .nil
  | comma joint more => exact .comma joint _

/-- Where a list of expressions can be read that begins with a literal, the literal is the first of
them. What follows it may be anything. -/
theorem exists_of_parseList (h : EndsArgument rest) {found : List Expression}
    (hfound : parseList expressionPhrase (ofLiteral literal :: rest) = some found) :
    ∃ first, found.head? = some first ∧ first.shape = literalShape literal := by
  have hfirst : Accepts (expressionPhrase (nonterminalsFor (ofLiteral literal :: rest)))
      (TokenTree.placelessAll (ofLiteral literal :: rest)) (·.shape = literalShape literal)
      (TokenTree.placelessAll rest) :=
    accepts_expressionPhrase_literal (n := 8 * sizeAll (ofLiteral literal :: rest) + 5)
      h.placelessAll
  exact holds_of_parseTrees
    (Q := fun found => ∃ first, found.head? = some first ∧ first.shape = literalShape literal)
    (yieldsAt_commaSeparated hfirst (List.cons_ne_nil _ _) ⟨rfl, rfl⟩)
    (Except.toOption_eq_some.1 hfound)

/-! ### Attributes as they are read -/

/-- What stands behind the name of an attribute says a text with this literal: an equals sign and
the literal, or a readable list of expressions with the literal in front. -/
inductive SaysLiteral (literal : String) : List TokenTree → Prop
  | value (joint : Bool) : SaysLiteral literal [.mark '=' joint .start, ofLiteral literal]
  | list (d : Delimiter) {others : List TokenTree} : EndsArgument others →
    (parseList expressionPhrase (ofLiteral literal :: others)).isSome = true →
    SaysLiteral literal [ofGroup d (ofLiteral literal :: others)]

theorem accepts_attributeArgument_value {g : Nonterminals} (joint : Bool) :
    Accepts (attributeArgument g) [.mark '=' joint .start, ofLiteral literal]
      (fun argument => ∃ tokens, argument = .value ⟨literalShape literal, tokens⟩) [] := by
  have honly : Accepts onlyLiteral [ofLiteral literal] (· = literalShape literal) [] :=
    (accepts_literal literal).andThen (.look (.iteTrue rfl (.pure rfl)))
  have hvalue : Accepts (attributeValue g) [ofLiteral literal] (· = literalShape literal) [] := by
    refine .look (.iteTrue rfl (honly.attempt.bind ?_))
    rintro _ ⟨_, rfl, rfl⟩
    exact .pure rfl
  refine .look (.iteFalse rfl (.look (.look (.look (.iteTrue ?_ ?_)))))
  · cases joint <;> rfl
  refine (accepts_mark rfl).andThen ((accepts_captured hvalue).bind ?_)
  rintro ⟨_, tokens⟩ rfl
  exact (accepts_record _).andThen (.pure ⟨_, rfl⟩)

theorem text?_of_shape_eq {expression : Expression} (h : expression.shape = literalShape literal) :
    expression.text? = Text.literalText? literal := by
  unfold Expression.text?
  rw [h, literalShape]
  cases Text.literalText? literal <;> rfl

end Grammar

open Grammar Grammar.Parser TokenTree

/-- An attribute carries the text that its literal denotes. -/
theorem Attribute.IsReadFrom.text?_eq {name literal : String} {a : Attribute}
    {argument : List TokenTree} (h : a.IsReadFrom (ofWord name :: argument))
    (hname : a.isNamed name = true) (hliteral : SaysLiteral literal argument) :
    a.text? = Text.literalText? literal := by
  obtain ⟨path, read⟩ := a
  obtain rfl := (Path.isName_iff path name).1 hname
  obtain ⟨more, g, s, s', hmore, hs, hread, hend⟩ := h.exists_argument
  obtain rfl : argument = more := (List.cons.inj hmore).2
  cases hliteral with
  | value joint =>
    obtain ⟨tokens, rfl⟩ := (accepts_attributeArgument_value joint).yieldsAt hs _ _ hread
    exact text?_of_shape_eq rfl
  | @list d others hends hreadable =>
    obtain rfl := (accepts_attributeArgument_list d _).yieldsAt hs _ _ hread
    obtain ⟨found, hfound⟩ := Option.isSome_iff_exists.1 hreadable
    obtain ⟨first, hfirst, hshape⟩ := exists_of_parseList hends hfound
    show (parseList expressionPhrase _).bind _ = _
    rw [hfound, Option.bind_some, hfirst, Option.bind_some, text?_of_shape_eq hshape]

/-! ### From the source to the lookups -/

/-- The first attribute of this name says a text with this literal. -/
def Variant.IsDescribedWith (v : Variant) (textAttribute literal : String) : Prop :=
  ∃ a argument, v.attributes.find? (·.isNamed textAttribute) = some a ∧
    a.IsReadFrom (ofWord textAttribute :: argument) ∧ SaysLiteral literal argument

/-- The text of a variant is what its literal denotes. -/
theorem Variant.IsDescribedWith.describedBy?_eq {v : Variant} {textAttribute literal : String}
    (h : v.IsDescribedWith textAttribute literal) :
    describedBy? v.attributes textAttribute = Text.literalText? literal := by
  obtain ⟨a, argument, hfirst, hread, hliteral⟩ := h
  rw [describedBy?, hfirst, Option.bind_some]
  have hname : a.isNamed textAttribute = true :=
    List.find?_some (p := fun a : Attribute => a.isNamed textAttribute) hfirst
  exact hread.text?_eq hname hliteral

namespace MarkedEnum

variable {e : MarkedEnum} {textAttribute : String}

end MarkedEnum

/-! ### A text on two lines -/

end DescriptionLookup
