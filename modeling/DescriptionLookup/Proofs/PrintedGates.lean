import DescriptionLookup.Proofs.RespacedTrees
import DescriptionLookup.Proofs.SourceAttributes

/-!
# Printed gates

The gates of files, modules, enums and variants are printed in front of the arms of a lookup, and
compared as texts. A gate with a list loses nothing by that: its text is read as the tokens that
stand in the source, and so two gates have one text exactly if they have the same tokens.

* `SourceText.HasGate`: the gates of a source that have a list;
* `SourceText.gates_kept`: from the source to the text of a gate, and back.
-/

namespace DescriptionLookup

open Grammar TokenTree

/-- The attribute is a gate of something in the source, and has a list of tokens. -/
structure SourceText.HasGate (source : SourceText) (a : Attribute) : Prop where
  has : source.Has a
  named : a.isNamed "cfg" = true
  list : ∃ d content, a.argument = .list d content

namespace SourceText

variable {text text' : String} {source source' : SourceText} {a b : Attribute}

/-- The tokens of a gate fill its brackets in the source, and nothing else is read from them. -/
theorem HasGate.exists_inBrackets (h : parseFile text = .ok source) (ha : source.HasGate a) :
    ∃ trees content, TokenTree.ofText (fileText text) = .ok trees ∧ InBrackets content trees ∧
      placelessAll content = a.tokens ∧ ∀ b : Attribute, b.IsReadFrom a.tokens ↔ b = a := by
  obtain ⟨trees, htrees, hstands⟩ := SourceText.standsIn_of_parseFile h
  obtain ⟨content, hread, hbrackets⟩ := (hstands a ha.has).exists_content
  obtain ⟨d, tokens, hlist⟩ := ha.list
  obtain ⟨path, argument⟩ := a
  obtain rfl : path = .ofName "cfg" := (Path.isName_iff _ _).1 ha.named
  obtain rfl : argument = .list d tokens := hlist
  have hcontent : placelessAll content = [ofWord "cfg", ofGroup d tokens] := hread.eq_list
  have htokens : Attribute.tokens ⟨.ofName "cfg", .list d tokens⟩ =
      [ofWord "cfg", ofGroup d tokens] := by
    simp [Attribute.tokens, Path.tokens, Path.ofName, List.intercalate]
  refine ⟨trees, content, htrees, hbrackets, hcontent.trans htokens.symm, fun b => ?_⟩
  -- The tokens of the list are without places, as what is read of a group is.
  obtain ⟨_, rest, -, -, hrest⟩ := placelessAll_eq_cons hcontent
  obtain ⟨_, _, -, hgroup, -⟩ := placelessAll_eq_cons hrest
  obtain ⟨inner, _, _, -, rfl⟩ := placeless_eq_group hgroup
  rw [htokens]
  exact Attribute.IsReadFrom.iff_list (by decide +kernel)

/-- The text of a gate is read as its tokens. -/
theorem HasGate.exists_ofText (h : parseFile text = .ok source) (ha : source.HasGate a) :
    ∃ found, TokenTree.ofText a.text = .ok found ∧
      placelessAll found = [ofMark '#', ofGroup .bracket a.tokens] := by
  obtain ⟨trees, content, htrees, hbrackets, hcontent, -⟩ := ha.exists_inBrackets h
  have hlexed := (isLexed_of_ofText htrees).of_inBrackets hbrackets
  obtain ⟨found, hfound, hplaceless⟩ := exists_ofText_attribute hlexed
  refine ⟨found, ?_, by rw [hplaceless, hcontent]⟩
  rw [← text_placelessAll, hcontent] at hfound
  exact hfound

/-- Two gates have one text exactly if they have the same tokens. -/
theorem HasGate.text_eq_iff (h : parseFile text = .ok source) (ha : source.HasGate a)
    (h' : parseFile text' = .ok source') (hb : source'.HasGate b) :
    a.text = b.text ↔ a.tokens = b.tokens := by
  obtain ⟨found, hfound, hplaceless⟩ := ha.exists_ofText h
  obtain ⟨found', hfound', hplaceless'⟩ := hb.exists_ofText h'
  constructor
  · intro heq
    rw [heq] at hfound
    cases hfound.symm.trans hfound'
    have hgroups := hplaceless.symm.trans hplaceless'
    simpa [ofGroup] using hgroups
  · intro heq
    rw [Attribute.text, Attribute.text, heq]

/-- A gate with a list keeps its tokens from the source to its text, where they are read again and
make the same gate. -/
theorem gates_kept (h : parseFile text = .ok source) (ha : source.HasGate a) :
    (∃ trees content found,
      TokenTree.ofText (fileText text) = .ok trees ∧ InBrackets content trees ∧
      TokenTree.ofText a.text = .ok found ∧
      placelessAll found = [ofMark '#', ofGroup .bracket (placelessAll content)] ∧
      ∀ b : Attribute, b.IsReadFrom (placelessAll content) ↔ b = a) ∧
    ∀ text' source' b, parseFile text' = .ok source' → source'.HasGate b →
      (a.text = b.text ↔ a.tokens = b.tokens) := by
  refine ⟨?_, fun text' source' b h' hb => ha.text_eq_iff h h' hb⟩
  obtain ⟨trees, content, htrees, hbrackets, hcontent, hread⟩ := ha.exists_inBrackets h
  obtain ⟨found, hfound, hplaceless⟩ := ha.exists_ofText h
  rw [← hcontent] at hplaceless hread
  exact ⟨trees, content, found, htrees, hbrackets, hfound, hplaceless, hread⟩

/-! ### A gate with joint marks and a lifetime -/

/-- The gate in `lifetimeText`. -/
def lifetimeGate : Attribute :=
  ⟨.ofName "cfg", .list .parenthesis [ofWord "x", ofJoint '>', ofJoint '>', ofJoint '=',
    ofJoint '\x27', ofWord "a"]⟩

/-- A file with a gate of a comparison and a lifetime. -/
def lifetimeText : String := "#![cfg /**/ ( x>>=\x27a )]"

theorem gates_kept_lifetime :
    parseFile lifetimeText = .ok ⟨[lifetimeGate], []⟩ ∧
    HasGate ⟨[lifetimeGate], []⟩ lifetimeGate ∧ lifetimeGate.text = "#[cfg (x >>=\x27a)]" ∧
    ∃ found, TokenTree.ofText lifetimeGate.text = .ok found ∧
      placelessAll found = [ofMark '#', ofGroup .bracket lifetimeGate.tokens] := by
  have hparse : parseFile lifetimeText = .ok ⟨[lifetimeGate], []⟩ :=
    Except.toOption_eq_some.1 (by decide +kernel)
  have hgate : HasGate ⟨[lifetimeGate], []⟩ lifetimeGate := ⟨.inl (by simp), rfl, _, _, rfl⟩
  obtain ⟨⟨trees, content, found, -, -, hfound, hplaceless, hread⟩, -⟩ := gates_kept hparse hgate
  have hcontent : placelessAll content = lifetimeGate.tokens :=
    ((hread lifetimeGate).2 rfl).eq_list
  exact ⟨hparse, hgate, by decide +kernel, found, hfound, hcontent ▸ hplaceless⟩

end SourceText

end DescriptionLookup
