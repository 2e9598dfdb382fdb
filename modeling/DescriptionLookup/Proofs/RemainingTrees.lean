import DescriptionLookup.Proofs.AcceptedItems

/-!
# The trees that remain

A parser reads trees from the front and leaves the others, and it never forgets that a group was not
read to its end. A parser that goes back to an earlier state has not come behind that state, so the
property of a parser is relative to a state: begun after it, the parser ends after it.

* `State.After`: a state with fewer trees, and nothing forgotten;
* `Parser.Advances`: the class of parsers that end after the states they begin after, with an
  instance for every way of putting parsers together.
-/

namespace DescriptionLookup.Grammar

open TokenTree

/-- The state is another one or comes behind it: the trees before it are the last of those there,
and a group that was not read to its end there is not forgotten. -/
structure State.After (s t : State) : Prop where
  rest : s.rest <:+ t.rest
  leftover : s.leftover = none → t.leftover = none

namespace State.After

theorem refl (s : State) : s.After s := ⟨List.suffix_refl _, id⟩

theorem trans {s t u : State} (h : s.After t) (h' : t.After u) : s.After u :=
  ⟨h.rest.trans h'.rest, h'.leftover ∘ h.leftover⟩

end State.After

namespace Parser

variable {α β σ : Type} {t : State} {p : Parser α}

/-- Wherever the parser begins after the state, it ends after it. -/
class Advances (t : State) (p : Parser α) : Prop where
  after : ∀ {s s' a}, s.After t → p s = .ok (a, s') → s'.After t

namespace Advances

/-- A parser that ends after the state it begins in ends after all states before. -/
theorem of_after (h : ∀ {s s' a}, p s = .ok (a, s') → s'.After s) : Advances t p :=
  ⟨fun hs hp => (h hp).trans hs⟩

theorem after_self {s s' : State} {a : α} [h : ∀ t, Advances t p] (hp : p s = .ok (a, s')) :
    s'.After s :=
  (h s).after (.refl s) hp

/-! ### Putting parsers together -/

instance (a : α) : Advances t (pure a : Parser α) :=
  of_after fun hp => by cases hp; exact .refl _

instance (fault : Fault) : Advances t (throw fault : Parser α) := of_after fun hp => by cases hp

theorem of_bind {f : α → Parser β} (hp : Advances t p) (hf : ∀ a, Advances t (f a)) :
    Advances t (p >>= f) where
  after hs h := by
    obtain ⟨a, between, ha, h⟩ := bind_eq_ok.1 h
    exact (hf a).after (hp.after hs ha) h

instance {f : α → Parser β} [hp : Advances t p] [hf : ∀ a, Advances t (f a)] :
    Advances t (p >>= f) := of_bind hp hf

/-- What keeps its state may come back to it. -/
theorem of_get {f : State → Parser β} (hf : ∀ s, Advances s (f s)) : Advances t (get >>= f) where
  after {s} _ _ hs h := ((hf s).after (.refl s) h).trans hs

instance {f : State → Parser β} [hf : ∀ s, Advances s (f s)] : Advances t (get >>= f) := of_get hf

instance : Advances t (set t : Parser PUnit) where
  after _ h := by cases h; exact .refl t

theorem of_ite {c : Prop} [Decidable c] {q : Parser α} (hp : Advances t p) (hq : Advances t q) :
    Advances t (if c then p else q) := by
  split
  · exact hp
  · exact hq

instance {c : Prop} [Decidable c] {q : Parser α} [hp : Advances t p] [hq : Advances t q] :
    Advances t (if c then p else q) := of_ite hp hq

instance (priority := low) (p : Parser Bool) [hp : Looks p] : Advances t p :=
  of_after fun h => by rw [hp.eq_ok] at h; cases h; exact .refl _

/-! ### Faults and places -/

instance : Advances t here :=
  of_after fun {s _ _} h => by
    obtain ⟨_ | ⟨tree, rest⟩, close, within, leftover, read⟩ := s <;> cases h <;> exact .refl _

instance (complaint : Complaint) : Advances t (complain complaint : Parser α) := by
  unfold complain; infer_instance

instance (pos : Position) (complaint : Complaint) :
    Advances t (complainAt pos complaint : Parser α) := by
  unfold complainAt; infer_instance

instance (e : Expected) : Advances t (missing e : Parser α) := by unfold missing; infer_instance

instance (es : List Expected) : Advances t (missingOneOf es : Parser α) := by
  unfold missingOneOf; infer_instance

/-! ### Tokens -/

instance (tokens : List TokenTree) : Advances t (record tokens) :=
  of_after fun h => by cases h; exact ⟨List.suffix_refl _, id⟩

theorem suffix_of_afterMarks? {cs : List Char} {trees rest : List TokenTree}
    (h : afterMarks? cs trees = some rest) : rest <:+ trees := by
  fun_induction afterMarks? cs trees with
  | case1 c d joint pos trees _ => cases h; exact List.suffix_cons _ _
  | case3 c cs d pos trees _ _ ih => exact (ih h).trans (List.suffix_cons _ _)
  | case2 | case4 | case5 => cases h

instance (text : String) : Advances t (mark text) :=
  of_after fun {s _ _} h => by
    obtain ⟨_, _, hget, h⟩ := bind_eq_ok.1 h
    cases hget
    cases hmarks : afterMarks? text.toList s.rest with
    | none =>
      rw [hmarks] at h
      obtain ⟨_, _, _, h⟩ := bind_eq_ok.1 h
      cases h
    | some rest =>
      rw [hmarks] at h
      obtain ⟨pos, between, hpos, h⟩ := bind_eq_ok.1 h
      have hbetween : between.After s := after_self hpos
      obtain ⟨_, _, hrecord, h⟩ := bind_eq_ok.1 h
      cases hrecord
      cases h
      exact ⟨suffix_of_afterMarks? hmarks, hbetween.leftover⟩

instance : Advances t anyWord :=
  of_after fun {s _ _} h => by
    obtain ⟨_ | ⟨_ | _ | _ | _, rest⟩, close, within, leftover, read⟩ := s <;> cases h
    exact ⟨List.suffix_cons _ _, id⟩

instance (text : String) : Advances t (word text) :=
  of_after fun {s _ _} h => by
    obtain ⟨_ | ⟨⟨name, pos⟩ | _ | _ | _, rest⟩, close, within, leftover, read⟩ := s
    case cons.word =>
      replace h : (if name = text then _ else _ : Parser Unit) _ = _ := h
      split at h <;> cases h
      exact ⟨List.suffix_cons _ _, id⟩
    all_goals cases h

instance : Advances t seesPathParentheses := by unfold seesPathParentheses; infer_instance

instance (text : String) : Advances t (optionalMark text) := by unfold optionalMark; infer_instance

instance (text : String) : Advances t (optionalWord text) := by unfold optionalWord; infer_instance

instance : Advances t identifier :=
  of_after fun {s _ _} h => by
    obtain ⟨_ | ⟨⟨name, pos⟩ | _ | _ | _, rest⟩, close, within, leftover, read⟩ := s
    case cons.word =>
      replace h : (if isIdentifier name = true then anyWord else _ : Parser String) _ = _ := h
      split at h
      · exact after_self h
      · cases h
    all_goals cases h

theorem advances_goOn {rest : List TokenTree} (h : rest <:+ t.rest) : Advances t (goOn rest) :=
  ⟨fun hs hp => by cases hp; exact ⟨h, hs.leftover⟩⟩

theorem suffix_cons_cons (tree tree' : TokenTree) (rest : List TokenTree) :
    rest <:+ tree :: tree' :: rest :=
  (List.suffix_cons _ _).trans (List.suffix_cons _ _)

instance : Advances t lifetime := by
  refine of_get fun s => ?_
  split
  · next hrest =>
    have := advances_goOn (hrest ▸ suffix_cons_cons _ _ _)
    infer_instance
  · infer_instance

instance : Advances t optionalLifetime := by unfold optionalLifetime; infer_instance

instance : Advances t literal := by
  refine of_get fun s => ?_
  split
  · next hrest =>
    have := advances_goOn (hrest ▸ List.suffix_cons _ _)
    infer_instance
  · next hrest =>
    have := advances_goOn (hrest ▸ List.suffix_cons _ _)
    infer_instance
  · next hrest =>
    have := advances_goOn (hrest ▸ suffix_cons_cons _ _ _)
    infer_instance
  · infer_instance

instance : Advances t anyGroup := by
  refine of_get fun s => ?_
  split
  · next hrest =>
    have := advances_goOn (hrest ▸ List.suffix_cons _ _)
    infer_instance
  · infer_instance

instance : Advances t everything :=
  of_get fun s =>
    have := advances_goOn (t := s) List.nil_suffix
    inferInstance

/-! ### Groups -/

instance (left : Option Fault) : Advances t (remember left) :=
  of_after fun {s _ _} h => by
    cases h
    refine ⟨List.suffix_refl _, fun hnone => ?_⟩
    cases hleftover : s.leftover with
    | none => rfl
    | some fault =>
      rw [show (_ : State).leftover = (s.leftover <|> left) from rfl, hleftover] at hnone
      cases hnone

/-- What stands in the group does not matter, if it is read without going back. -/
instance (d : Delimiter) {inner : Parser α} [hinner : ∀ t, Advances t inner] :
    Advances t (openGroup d inner) :=
  of_after fun {s s' a} h => by
    obtain ⟨rest, close, within, leftover, read⟩ := s
    rcases rest with _ | ⟨_ | _ | _ | ⟨d', content, opened, closed⟩, rest⟩
    case cons.group =>
      replace h : (if d = d' then _ else _ : Parser (α × Option Fault)) _ = _ := h
      split at h
      · obtain ⟨_, _, hset, h⟩ := bind_eq_ok.1 h
        cases hset
        obtain ⟨result, inside, hresult, h⟩ := bind_eq_ok.1 h
        obtain ⟨_, _, hget, h⟩ := bind_eq_ok.1 h
        cases hget
        obtain ⟨_, _, hset, h⟩ := bind_eq_ok.1 h
        cases hset
        cases h
        exact ⟨List.suffix_cons _ _, (after_self hresult).leftover⟩
      · cases h
    all_goals cases h

section Groups

variable {inner : Parser α} [∀ t, Advances t inner]

instance (d : Delimiter) : Advances t (group d inner) := by unfold group; infer_instance

instance : Advances t (parentheses inner) := by unfold parentheses; infer_instance

instance : Advances t (brackets inner) := by unfold brackets; infer_instance

instance : Advances t (braces inner) := by unfold braces; infer_instance

end Groups

/-! ### Transcripts -/

section Transcripts

variable [hp : ∀ t, Advances t p]

instance : Advances t (captured p) :=
  of_after fun {s s' a} h => by
    obtain ⟨_, _, hget, h⟩ := bind_eq_ok.1 h
    cases hget
    obtain ⟨_, _, hset, h⟩ := bind_eq_ok.1 h
    cases hset
    obtain ⟨result, inside, hresult, h⟩ := bind_eq_ok.1 h
    cases h
    have hinside := (hp { s with read := [] }).after (.refl _) hresult
    exact ⟨hinside.rest, hinside.leftover⟩

instance : Advances t (silently p) := by unfold silently; infer_instance

instance (asks : α → Bool) : Advances t (verbatimIf asks p) := by
  unfold verbatimIf; infer_instance

instance (asks : α → Bool) : Advances t (omittedIf asks p) := by unfold omittedIf; infer_instance

instance : Advances t (verbatim p) := by unfold verbatim; infer_instance

end Transcripts

/-! ### Choice and repetition -/

instance [hp : ∀ t, Advances t p] : Advances t (attempt p) :=
  of_after fun {s s' a} h => by
    unfold attempt at h
    split at h
    · next hresult => cases h; exact after_self hresult
    · cases h; exact .refl _

instance : Advances t (lookAhead p) :=
  of_after fun {s s' a} h => by
    unfold lookAhead at h
    split at h <;> cases h <;> exact .refl _

section Repetition

variable {step : σ → Parser (Round σ α)}

theorem of_repeatUpTo (hstep : ∀ t current, Advances t (step current)) (rounds : Nat)
    (current : σ) : Advances t (repeatUpTo step rounds current) := by
  induction rounds generalizing current with
  | zero => unfold repeatUpTo; infer_instance
  | succ rounds ih =>
    refine of_bind inferInstance fun round => ?_
    cases round with
    | again next => exact ih next
    | done result => infer_instance

theorem of_repeated (hstep : ∀ t current, Advances t (step current)) (first : σ) :
    Advances t (repeated step first) :=
  of_get fun _ => of_repeatUpTo hstep _ _

instance [hstep : ∀ t current, Advances t (step current)] (rounds : Nat) (current : σ) :
    Advances t (repeatUpTo step rounds current) := of_repeatUpTo hstep rounds current

instance [hstep : ∀ t current, Advances t (step current)] (first : σ) :
    Advances t (repeated step first) := of_repeated hstep first

end Repetition

instance [∀ t, Advances t p] : Advances t (untilEnd p) := by unfold untilEnd; infer_instance

instance [∀ t, Advances t p] : Advances t (commaSeparated p) := by
  unfold commaSeparated; infer_instance

end Advances

end Parser

end DescriptionLookup.Grammar
