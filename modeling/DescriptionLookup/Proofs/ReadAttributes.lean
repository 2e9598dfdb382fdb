import DescriptionLookup.Proofs.AcceptedExpressions

/-!
# Attributes and the tokens they are read from

An attribute that is called by one name was read from this name and its argument, and a list among
its arguments is the content of a group. So what the grammar says of an attribute can be said of the
tokens in its brackets.

* `Attribute.IsReadFrom`: the attribute is what the brackets around these tokens hold;
* `Attribute.IsReadFrom.exists_argument`: the tokens are a name and an argument;
* `Attribute.IsReadFrom.eq_list`: the tokens of an attribute with a list.
-/

namespace DescriptionLookup

open Grammar Grammar.Parser TokenTree

/-- The attribute is what the grammar makes of all of these tokens, wherever they stand. -/
def Attribute.IsReadFrom (a : Attribute) (content : List TokenTree) : Prop :=
  ∃ (g : Nonterminals) (s s' : State), Faces s content ∧ attributeBody g s = .ok (a, s') ∧
    s'.rest = []

namespace Grammar.Parser

variable {g : Nonterminals} {s s' : State} {name : String}

/-- Between these states one word was read. -/
structure ReadsWord (s s' : State) (name : String) : Prop where
  rest : ∃ pos, s.rest = .word name pos :: s'.rest
  leftover : s'.leftover = s.leftover

theorem ReadsWord.faces {trees : List TokenTree} (h : ReadsWord s s' name) (hs : Faces s trees) :
    ∃ more, trees = ofWord name :: more ∧ Faces s' more := by
  obtain ⟨pos, hrest⟩ := h.rest
  refine ⟨placelessAll s'.rest, ?_, rfl, h.leftover.trans hs.leftover⟩
  rw [← hs.rest, hrest]
  rfl

theorem readsWord_of_anyWord (h : anyWord s = .ok (name, s')) : ReadsWord s s' name := by
  obtain ⟨rest, close, within, leftover, read⟩ := s
  rcases rest with _ | ⟨⟨first, pos⟩ | _ | _ | _, rest⟩
  case cons.word =>
    cases h
    exact ⟨⟨pos, rfl⟩, rfl⟩
  all_goals cases h

theorem readsWord_of_word (h : word name s = .ok ((), s')) : ReadsWord s s' name := by
  obtain ⟨rest, close, within, leftover, read⟩ := s
  rcases rest with _ | ⟨⟨first, pos⟩ | _ | _ | _, rest⟩
  case cons.word =>
    replace h : (if first = name then _ else _ : Parser Unit) _ = _ := h
    split at h
    · next hname =>
      cases h
      exact ⟨⟨pos, hname ▸ rfl⟩, rfl⟩
    · cases h
  all_goals cases h

theorem eq_of_optionalMark_false {text : String} (h : optionalMark text s = .ok (false, s')) :
    s' = s := by
  replace h : (if (Expected.mark text).begins s.rest = true then _ else _ : Parser Bool) s = _ := h
  split at h
  · obtain ⟨_, _, _, h⟩ := bind_eq_ok.1 h
    cases h
  · cases h
    rfl

/-- A path of one segment is read from one word. -/
theorem readsWord_of_plainSegments (h : plainSegments s = .ok ([name], s')) :
    ReadsWord s s' name := by
  unfold plainSegments repeated at h
  obtain ⟨s₁, _, hs₁, h⟩ := bind_eq_ok.1 h
  cases hs₁
  rw [repeatUpTo] at h
  obtain ⟨round, s₂, hround, h⟩ := bind_eq_ok.1 h
  obtain ⟨begins, s₃, hbegins, hround⟩ := bind_eq_ok.1 hround
  cases hbegins
  split at hround
  · obtain ⟨first, s₄, hfirst, hbehind⟩ := bind_eq_ok.1 hround
    obtain ⟨goesOn, s₅, hgoesOn, hanswer⟩ := bind_eq_ok.1 hbehind
    cases goesOn with
    | false =>
      obtain rfl := eq_of_optionalMark_false hgoesOn
      cases hanswer
      cases h
      exact readsWord_of_anyWord hfirst
    | true =>
      cases hanswer
      -- a path that goes on behind its first name has more than one
      have hmore := yields_repeatUpTo (P := fun names : List String => 2 ≤ names.length)
        (R := fun found : List String => found ≠ []) (fun found hfound => ?_) _
        (List.cons_ne_nil first []) _ _ _ h
      · exact absurd hmore (by simp)
      have hlength : 0 < found.length := List.length_pos_iff.2 hfound
      refine yields_after fun _ => yields_ite ?_ ?_
      · refine yields_after fun next => yields_after fun _ => yields_ite ?_ ?_
        · exact yields_pure (List.cons_ne_nil _ _)
        · exact yields_pure (by simp; omega)
      · obtain ⟨last, found, rfl⟩ := List.exists_cons_of_ne_nil hfound
        exact yields_complain _
  · obtain ⟨_, _, _, hround⟩ := bind_eq_ok.1 hround
    cases hround
    cases h

/-- A path of one name is read from one word. -/
theorem readsWord_of_plainPath (h : plainPath s = .ok (.ofName name, s')) :
    ReadsWord s s' name := by
  obtain ⟨absolute, s₁, habsolute, h⟩ := bind_eq_ok.1 h
  obtain ⟨segments, s₂, hsegments, h⟩ := bind_eq_ok.1 h
  cases h
  obtain rfl := eq_of_optionalMark_false habsolute
  exact readsWord_of_plainSegments hsegments

/-- An attribute that is called by one name is read from this word and its argument. -/
theorem exists_of_attributeBody {argument : Attribute.Argument}
    (h : attributeBody g s = .ok (⟨.ofName name, argument⟩, s')) :
    ∃ between, ReadsWord s between name ∧ attributeArgument g between = .ok (argument, s') := by
  replace h : (if (Expected.word "unsafe").begins s.rest = true then _ else _ :
    Parser Attribute) s = _ := h
  split at h
  · obtain ⟨_, s₁, hs₁, h⟩ := bind_eq_ok.1 h
    obtain ⟨_, _, hpure, h⟩ := bind_eq_ok.1 h
    cases hpure
    obtain ⟨argument', s₂, hargument, h⟩ := bind_eq_ok.1 h
    cases h
    exact ⟨s₁, readsWord_of_word hs₁, hargument⟩
  · obtain ⟨path, s₁, hpath, h⟩ := bind_eq_ok.1 h
    obtain ⟨argument', s₂, hargument, h⟩ := bind_eq_ok.1 h
    cases h
    exact ⟨s₁, readsWord_of_plainPath hpath, hargument⟩

/-- A list is the content of a group, without the places of its tokens. -/
theorem exists_of_attributeArgument_list {d : Delimiter} {content : List TokenTree}
    (h : attributeArgument g s = .ok (.list d content, s')) :
    ∃ inner opened closed, s.rest = .group d inner opened closed :: s'.rest ∧
      placelessAll inner = content := by
  replace h : (if Expected.anyGroup.begins s.rest = true then _ else _ :
    Parser Attribute.Argument) s = _ := h
  split at h
  · obtain ⟨⟨d', tokens⟩, s₁, hgroup, h⟩ := bind_eq_ok.1 h
    cases h
    obtain ⟨rest, close, within, leftover, read⟩ := s
    rcases rest with _ | ⟨_ | _ | _ | _, rest⟩
    case cons.group =>
      cases hgroup
      exact ⟨_, _, _, rfl, rfl⟩
    all_goals cases hgroup
  · -- Without a group there is a value or nothing.
    have hother : ∀ p : Parser Attribute.Argument, Yields p (· ≠ .list d content) →
        p s ≠ .ok (.list d content, s') := fun p hp h => hp _ _ _ h rfl
    refine absurd h (hother _ ?_)
    refine yields_after fun _ => yields_after fun _ => yields_after fun _ => yields_ite ?_ ?_
    · refine yields_after fun _ => yields_after fun _ => yields_after fun _ => ?_
      exact yields_pure nofun
    · exact yields_pure nofun

/-- What is accepted is what is found. -/
theorem Accepts.yieldsAt {α : Type} {p : Parser α} {trees rest : List TokenTree} {Q : α → Prop}
    (h : Accepts p trees Q rest) (hs : Faces s trees) : YieldsAt s p Q := by
  obtain ⟨a, between, ha, hQ, -⟩ := h s hs
  intro result state' hp
  cases ha.symm.trans hp
  exact hQ

theorem accepts_attributeArgument_list (d : Delimiter) (content : List TokenTree) :
    Accepts (attributeArgument g) [ofGroup d content] (· = .list d content) [] := by
  refine .look (.iteTrue rfl ((accepts_anyGroup d content).bind ?_))
  rintro ⟨_, tokens⟩ ⟨rfl, rfl⟩
  exact .pure rfl

theorem accepts_attributeBody_list (hname : isIdentifier name = true) (d : Delimiter)
    (content : List TokenTree) :
    Accepts (attributeBody g) [ofWord name, ofGroup d content]
      (· = ⟨.ofName name, .list d content⟩) [] := by
  refine .look (.iteFalse (begins_word_eq_false hname (by decide) [ofGroup d content]) ?_)
  refine (accepts_plainPath hname rfl).bind ?_
  rintro _ rfl
  refine (accepts_attributeArgument_list d content).bind ?_
  rintro _ rfl
  exact .pure rfl

end Grammar.Parser

namespace Attribute.IsReadFrom

variable {name : String} {content : List TokenTree} {argument : Argument}

/-- The tokens of an attribute that is called by one name are this name and an argument. -/
theorem exists_argument (h : IsReadFrom ⟨.ofName name, argument⟩ content) :
    ∃ more g s s', content = ofWord name :: more ∧ Faces s more ∧
      attributeArgument g s = .ok (argument, s') ∧ s'.rest = [] := by
  obtain ⟨g, s, s', hs, h, hend⟩ := h
  obtain ⟨between, hword, hargument⟩ := exists_of_attributeBody h
  obtain ⟨more, rfl, hbetween⟩ := hword.faces hs
  exact ⟨more, g, between, s', rfl, hbetween, hargument, hend⟩

/-- The tokens of an attribute with a list are its name and one group. -/
theorem eq_list {d : Delimiter} {tokens : List TokenTree}
    (h : IsReadFrom ⟨.ofName name, .list d tokens⟩ content) :
    content = [ofWord name, ofGroup d tokens] := by
  obtain ⟨more, g, s, s', rfl, hs, hargument, hend⟩ := h.exists_argument
  obtain ⟨inner, opened, closed, hrest, rfl⟩ := exists_of_attributeArgument_list hargument
  rw [← hs.rest, hrest, hend]
  rfl

/-- From a name and a group nothing else is read than the attribute with this list. -/
theorem iff_list (hname : isIdentifier name = true) {a : Attribute} {d : Delimiter}
    {tokens : List TokenTree} :
    a.IsReadFrom [ofWord name, ofGroup d (placelessAll tokens)] ↔
      a = ⟨.ofName name, .list d (placelessAll tokens)⟩ := by
  constructor
  · rintro ⟨g, s, s', hs, hread, -⟩
    exact (accepts_attributeBody_list hname d _).yieldsAt hs _ _ hread
  · rintro rfl
    obtain ⟨a, s', ha, rfl, hs'⟩ := accepts_attributeBody_list (g := nonterminals 0) hname d
      (placelessAll tokens) ⟨[ofWord name, ofGroup d tokens], .start, none, none, []⟩ ⟨rfl, rfl⟩
    refine ⟨_, _, s', ⟨rfl, rfl⟩, ha, ?_⟩
    exact eq_nil_of_placelessAll hs'.rest

end Attribute.IsReadFrom

end DescriptionLookup
