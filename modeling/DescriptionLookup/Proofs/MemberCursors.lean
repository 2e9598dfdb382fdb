import DescriptionLookup.Proofs.Lookups

/-!
# Members one by one

A cursor over the members of an enum passes over variants with data, so that a call may look at any
number of variants. What matters of a cursor are the members still to come, its `remaining`: a call
yields the first of them and leaves the others. The variants not yet looked at bound their number.

* `Variant.Overrides`: when a text stands for the name of a variant;
* `MemberCursor.remaining_after`: the members still to come after any number of calls;
* `EnumDecl.cursor_yields`: the members that all calls yield, and the bounds in between.
-/

namespace DescriptionLookup

/-! ### Texts of variants -/

/-- The attribute carries a text: a string literal behind an equals sign, or one that is the first
of its list, where this is a list of expressions. -/
inductive Attribute.Carries : Attribute → String → Prop
  | value {path : Path} {expression : Expression} {text : String} :
    expression.shape = .text text → Carries ⟨path, .value expression⟩ text
  | list {path : Path} {d : Delimiter} {tokens : List TokenTree} {first : Expression}
    {others : List Expression} {text : String} :
    Grammar.parseList Grammar.expressionPhrase tokens = some (first :: others) →
    first.shape = .text text → Carries ⟨path, .list d tokens⟩ text

/-- The first attribute of this name carries the text. Those behind it may be any. -/
def Variant.Overrides (v : Variant) (textAttribute text : String) : Prop :=
  ∃ before a behind, v.attributes = before ++ a :: behind ∧
    (∀ b ∈ before, b.path ≠ .ofName textAttribute) ∧ a.path = .ofName textAttribute ∧
    a.Carries text

theorem Expression.text?_eq_some_iff {expression : Expression} {text : String} :
    expression.text? = some text ↔ expression.shape = .text text := by
  unfold Expression.text?
  cases expression.shape <;> simp

theorem Attribute.text?_eq_some_iff {a : Attribute} {text : String} :
    a.text? = some text ↔ a.Carries text := by
  obtain ⟨path, argument⟩ := a
  cases argument with
  | nothing => exact ⟨nofun, nofun⟩
  | value expression =>
    refine Expression.text?_eq_some_iff.trans ⟨.value, ?_⟩
    rintro (h | _)
    exact h
  | list d tokens =>
    show ((Grammar.parseList _ tokens).bind fun found => found.head?.bind _) = _ ↔ _
    constructor
    · intro h
      obtain ⟨found, hfound, h⟩ := Option.bind_eq_some_iff.1 h
      obtain ⟨first, hfirst, htext⟩ := Option.bind_eq_some_iff.1 h
      obtain ⟨others, rfl⟩ := List.head?_eq_some_iff.1 hfirst
      exact .list hfound (Expression.text?_eq_some_iff.1 htext)
    · rintro (_ | ⟨hfound, hshape⟩)
      rw [hfound, Option.bind_some, List.head?_cons, Option.bind_some]
      exact Expression.text?_eq_some_iff.2 hshape

theorem Variant.describedBy?_eq_some_iff {v : Variant} {textAttribute text : String} :
    describedBy? v.attributes textAttribute = some text ↔ v.Overrides textAttribute text := by
  have hnamed : ∀ a : Attribute, a.isNamed textAttribute = true ↔ a.path = .ofName textAttribute :=
    fun a => Path.isName_iff _ _
  simp only [describedBy?, Option.bind_eq_some_iff, List.find?_eq_some_iff_append,
    Attribute.text?_eq_some_iff, Bool.not_eq_true', ← Bool.not_eq_true, hnamed]
  constructor
  · rintro ⟨a, ⟨hname, before, behind, hattributes, hbefore⟩, hcarries⟩
    exact ⟨before, a, behind, hattributes, hbefore, hname, hcarries⟩
  · rintro ⟨before, a, behind, hattributes, hbefore, hname, hcarries⟩
    exact ⟨a, ⟨hname, before, behind, hattributes, hbefore⟩, hcarries⟩

/-- The member is what extraction makes of the variant. -/
structure Variant.IsMember (textAttribute : String) (v : Variant) (m : Member) : Prop where
  pattern : m.pattern = v.name
  name : m.name = unraw v.name
  gates : m.gates = DescriptionLookup.gates v.attributes
  text : ∀ text, m.text? = some text ↔ v.Overrides textAttribute text

theorem Variant.isMember_member (textAttribute : String) (v : Variant) :
    v.IsMember textAttribute (v.member textAttribute) :=
  ⟨rfl, rfl, rfl, fun _ => describedBy?_eq_some_iff⟩

/-! ### Calls -/

namespace MemberCursor

/-- The members still to come. -/
def remaining (cursor : MemberCursor) : List Member :=
  cursor.variants.filterMap (·.member? cursor.textAttribute)

/-- The cursor after a number of calls. -/
def after (cursor : MemberCursor) : Nat → MemberCursor
  | 0 => cursor
  | k + 1 => (cursor.after k).next?.2

/-- Going on to the next member leaves the variants behind it, and with them all other members. -/
theorem advance_eq_some {textAttribute : String} {variants rest : List Variant} {m : Member}
    (h : advance textAttribute variants = some (m, rest)) :
    variants.filterMap (·.member? textAttribute) =
      m :: rest.filterMap (·.member? textAttribute) := by
  induction variants with
  | nil => cases h
  | cons v variants ih =>
    unfold advance at h
    cases hv : v.member? textAttribute with
    | some m' =>
      rw [hv] at h
      cases h
      exact List.filterMap_cons_some hv
    | none =>
      rw [hv] at h
      simpa only [List.filterMap_cons, hv] using ih h

theorem advance_eq_none {textAttribute : String} {variants : List Variant}
    (h : advance textAttribute variants = none) :
    variants.filterMap (·.member? textAttribute) = [] := by
  induction variants with
  | nil => rfl
  | cons v variants ih =>
    unfold advance at h
    cases hv : v.member? textAttribute with
    | some m =>
      rw [hv] at h
      cases h
    | none =>
      rw [hv] at h
      simpa only [List.filterMap_cons, hv] using ih h

variable (cursor : MemberCursor)

/-- What a call does: it yields the first of the members still to come and leaves the others. The
bound does not grow, and once there is nothing to yield it is zero. -/
theorem next?_spec : cursor.next?.1 = cursor.remaining.head? ∧
    cursor.next?.2.remaining = cursor.remaining.tail ∧
    cursor.next?.2.upperBound ≤ cursor.upperBound ∧
    (cursor.next?.1 = none → cursor.next?.2.upperBound = 0) := by
  unfold next? remaining
  cases h : advance cursor.textAttribute cursor.variants with
  | none =>
    rw [advance_eq_none h]
    exact ⟨rfl, rfl, Nat.zero_le _, fun _ => rfl⟩
  | some found =>
    obtain ⟨m, rest⟩ := found
    rw [advance_eq_some h]
    exact ⟨rfl, rfl, (length_advance_lt h).le, nofun⟩

/-- Every call takes one member away, as long as there are any. -/
theorem remaining_after (k : Nat) : (cursor.after k).remaining = cursor.remaining.drop k := by
  induction k with
  | zero => rfl
  | succ k ih => rw [after, (next?_spec _).2.1, ih, List.tail_drop]

theorem length_remaining_le : cursor.remaining.length ≤ cursor.upperBound :=
  List.length_filterMap_le _ _

theorem upperBound_after_le {j k : Nat} (h : j ≤ k) :
    (cursor.after k).upperBound ≤ (cursor.after j).upperBound := by
  induction h with
  | refl => exact le_rfl
  | step _ ih => exact (next?_spec _).2.2.1.trans ih

end MemberCursor

namespace EnumDecl

variable (decl : EnumDecl) (textAttribute : String)

/-- The members of an enum are its variants without data, each once and in the order of declaration.
A cursor yields one with every call, and nothing behind the last. Its bound is never less than the
number of members still to come, never grows, and is zero once a call has yielded nothing. -/
theorem cursor_yields :
    List.Forall₂ (Variant.IsMember textAttribute) (decl.variants.filter (·.isUnit))
      (decl.members textAttribute) ∧
    (∀ k, ((decl.cursor textAttribute).after k).next?.1 = (decl.members textAttribute)[k]?) ∧
    (∀ k, ((decl.members textAttribute).drop k).length ≤
      ((decl.cursor textAttribute).after k).upperBound) ∧
    (∀ j k, j ≤ k → ((decl.cursor textAttribute).after k).upperBound ≤
      ((decl.cursor textAttribute).after j).upperBound) ∧
    (∀ j k, j < k → ((decl.cursor textAttribute).after j).next?.1 = none →
      ((decl.cursor textAttribute).after k).upperBound = 0) := by
  have hremaining : ∀ k, ((decl.cursor textAttribute).after k).remaining =
      (decl.members textAttribute).drop k := fun k => MemberCursor.remaining_after _ k
  refine ⟨?_, fun k => ?_, fun k => ?_, fun j k hle => MemberCursor.upperBound_after_le _ hle,
    fun j k hlt hend => ?_⟩
  · rw [members_eq]
    exact List.forall₂_map_right_iff.2
      (List.forall₂_same.2 fun v _ => v.isMember_member textAttribute)
  · rw [(MemberCursor.next?_spec _).1, hremaining, List.head?_drop]
  · rw [← hremaining]
    exact MemberCursor.length_remaining_le _
  · have hzero : ((decl.cursor textAttribute).after (j + 1)).upperBound = 0 :=
      (MemberCursor.next?_spec _).2.2.2 hend
    exact Nat.le_zero.1 (hzero ▸ MemberCursor.upperBound_after_le _ hlt)

end EnumDecl

end DescriptionLookup
