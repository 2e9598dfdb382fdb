import DescriptionLookup.Proofs.LexedTrees
import DescriptionLookup.Proofs.ReadAttributes
import DescriptionLookup.Proofs.RemainingPhrases

/-!
# Where the attributes of a source stand

Every attribute that the parser answers, of a file, a module, an enum or a variant, stands in the
trees of the text: behind a number sign, in brackets whose whole content it was read from. What is
read from the end of a group that is not read to its end does not count, since such a text is
refused; so a parser is followed only up to states in which nothing of the kind was remembered.

* `TokenTree.Inside`: the places in some trees;
* `TokenTree.InBrackets`, `IsLexed.of_inBrackets`: the tokens of an attribute at such a place;
* `Attribute.StandsIn`: the attribute is read from such tokens;
* `Parser.FindsFrom`: what the answers of a parser are like that is begun behind a state;
* `SourceText.standsIn_of_parseFile`: the attributes of a file stand in its trees.
-/

-- An instance that several branches of a rule share counts once for every branch.
set_option synthInstance.maxSize 1000000000

namespace DescriptionLookup

/-! ### Places -/

/-- The trees stand in these ones, up to the end of all or of a group. -/
inductive TokenTree.Inside (trees : List TokenTree) : List TokenTree → Prop
  | all : Inside trees trees
  | behind {tree : TokenTree} {rest : List TokenTree} :
    Inside trees (tree :: rest) → Inside trees rest
  | content {d : Delimiter} {content : List TokenTree} {opened closed : Position}
    {rest : List TokenTree} :
    Inside trees (.group d content opened closed :: rest) → Inside trees content

theorem TokenTree.Inside.suffix {trees ts us : List TokenTree} (h : Inside trees ts)
    (hsuffix : us <:+ ts) : Inside trees us := by
  obtain ⟨before, rfl⟩ := hsuffix
  induction before with
  | nil => exact h
  | cons tree before ih => exact ih h.behind

open TokenTree Grammar Grammar.Parser

/-- The tokens fill brackets behind a number sign in these trees, perhaps with an exclamation mark
between them. -/
def TokenTree.InBrackets (content trees : List TokenTree) : Prop :=
  ∃ joint pos marks opened closed rest, Inside trees
    (.mark '#' joint pos :: (marks ++ .group .bracket content opened closed :: rest)) ∧
    (marks = [] ∨ ∃ joint' pos', marks = [.mark '!' joint' pos'])

/-- The attribute is read from all of the brackets of an attribute in these trees. -/
structure Attribute.StandsIn (a : Attribute) (trees : List TokenTree) : Prop where
  exists_content : ∃ content, a.IsReadFrom (placelessAll content) ∧ InBrackets content trees

/-- An attribute of an item, or of something in it. -/
inductive Item.Has (a : Attribute) : Item → Prop
  | enumeration {decl : EnumDecl} : a ∈ decl.attributes → Has a (.enumeration decl)
  | variant {decl : EnumDecl} {v : Variant} : v ∈ decl.variants → a ∈ v.attributes →
    Has a (.enumeration decl)
  | fileModule {head : ModuleHead} : a ∈ head.attributes → Has a (.fileModule head)
  | inlineModule {head : ModuleHead} {items : List Item} : a ∈ head.attributes →
    Has a (.inlineModule head items)
  | inside {head : ModuleHead} {items : List Item} {item : Item} : item ∈ items → Has a item →
    Has a (.inlineModule head items)

/-- An attribute of a file, or of something in it. -/
def SourceText.Has (source : SourceText) (a : Attribute) : Prop :=
  a ∈ source.attributes ∨ ∃ item ∈ source.items, item.Has a

namespace Grammar.Parser

variable {α β σ : Type} {trees : List TokenTree} {t : State} {p : Parser α} {P : α → Prop}
  {Q : β → Prop}

/-! ### Answers behind a state -/

/-- Begun behind the state, and with nothing remembered at its end, every answer of the parser is
like this. -/
def FindsFrom (t : State) (p : Parser α) (P : α → Prop) : Prop :=
  ∀ s s' a, s.After t → p s = .ok (a, s') → s'.leftover = none → P a

theorem finds_of_yields (h : Yields p P) : FindsFrom t p P :=
  fun s s' a _ hp _ => h s a s' hp

theorem finds_pure {a : α} (h : P a) : FindsFrom t (pure a) P := finds_of_yields (yields_pure h)

theorem finds_bind {f : α → Parser β} [hp : Advances t p] [hf : ∀ t a, Advances t (f a)]
    (h : FindsFrom t p P) (hnext : ∀ a, P a → FindsFrom t (f a) Q) : FindsFrom t (p >>= f) Q := by
  intro s s' b hs hb hend
  obtain ⟨a, between, ha, hb⟩ := bind_eq_ok.1 hb
  have hbetween : between.leftover = none := ((hf between a).after (.refl _) hb).leftover hend
  exact hnext a (h s between a hs ha hbetween) between s' b (hp.after hs ha) hb hend

theorem finds_after {f : α → Parser β} [hp : Advances t p] (hnext : ∀ a, FindsFrom t (f a) Q) :
    FindsFrom t (p >>= f) Q := by
  intro s s' b hs hb hend
  obtain ⟨a, between, ha, hb⟩ := bind_eq_ok.1 hb
  exact hnext a between s' b (hp.after hs ha) hb hend

theorem FindsFrom.mono {s : State} (h : FindsFrom t p P) (hs : s.After t) : FindsFrom s p P :=
  fun s' s'' a hs' => h s' s'' a (hs'.trans hs)

theorem finds_get {f : State → Parser β} (h : ∀ s, s.After t → FindsFrom s (f s) Q) :
    FindsFrom t (get >>= f) Q :=
  fun s s' b hs hb hend => h s hs s s' b (.refl s) hb hend

theorem finds_ite {c : Prop} [Decidable c] {q : Parser α} (hp : FindsFrom t p P)
    (hq : FindsFrom t q P) : FindsFrom t (if c then p else q) P := by
  split
  · exact hp
  · exact hq

/-- A group that was read to its end. -/
theorem exists_of_group {d : Delimiter} {s s' : State} {a : α} (h : group d p s = .ok (a, s'))
    (hend : s'.leftover = none) :
    ∃ content opened closed start inside, s.rest = .group d content opened closed :: s'.rest ∧
      start.rest = content ∧ start.leftover = s.leftover ∧ p start = .ok (a, inside) ∧
      inside.rest = [] ∧ inside.leftover = none := by
  obtain ⟨⟨a', left⟩, between, hopen, h⟩ := bind_eq_ok.1 h
  cases h
  obtain ⟨_ | ⟨_ | _ | _ | ⟨d', content, opened, closed⟩, rest⟩, close, within, leftover, read⟩ := s
  case cons.group =>
    replace hopen : (if d = d' then _ else _ : Parser (α × Option Fault)) _ = _ := hopen
    split at hopen
    · next hd =>
      subst hd
      obtain ⟨_, _, hset, hopen⟩ := bind_eq_ok.1 hopen
      cases hset
      obtain ⟨result, inside, hresult, hopen⟩ := bind_eq_ok.1 hopen
      cases hopen
      -- nothing is remembered, neither of what stands in the group nor of its end
      exact ⟨content, opened, closed, ⟨content, closed, some d, leftover, []⟩, inside, rfl, rfl,
        rfl, hresult, nothing_left hend⟩
    · cases hopen
  all_goals cases hopen

theorem finds_group {d : Delimiter} (ht : Inside trees t.rest)
    (h : ∀ start, Inside trees start.rest → FindsFrom start p P) :
    FindsFrom t (group d p) P := by
  intro s s' a hs hp hend
  obtain ⟨content, opened, closed, start, inside, hrest, hstart, -, hread, -, hnone⟩ :=
    exists_of_group hp hend
  have hplace : Inside trees s.rest := ht.suffix hs.rest
  rw [hrest] at hplace
  exact h start (hstart ▸ hplace.content) start inside a (.refl _) hread hnone

theorem finds_captured (h : FindsFrom t p P) : FindsFrom t (captured p) fun found => P found.1 := by
  intro s s' a hs hp hend
  obtain ⟨_, _, hget, hp⟩ := bind_eq_ok.1 hp
  cases hget
  obtain ⟨_, _, hset, hp⟩ := bind_eq_ok.1 hp
  cases hset
  obtain ⟨result, inside, hresult, hp⟩ := bind_eq_ok.1 hp
  cases hp
  exact h { s with read := [] } inside result ⟨hs.rest, hs.leftover⟩ hresult hend

theorem finds_verbatimIf {asks : α → Bool} [∀ t, Advances t p] (h : FindsFrom t p P) :
    FindsFrom t (verbatimIf asks p) P := by
  refine finds_get fun s hs => finds_bind (finds_captured (h.mono hs)) fun found hfound => ?_
  exact finds_get fun _ _ => finds_after fun _ => finds_pure hfound

theorem finds_repeatUpTo {step : σ → Parser (Round σ α)} {R : σ → Prop}
    [hadvances : ∀ t current, Advances t (step current)]
    (hstep : ∀ current, R current → FindsFrom t (step current) fun
      | .again next => R next
      | .done result => P result) (rounds : Nat) {current : σ} (hcurrent : R current) :
    FindsFrom t (repeatUpTo step rounds current) P := by
  induction rounds generalizing current with
  | zero => exact finds_of_yields (yields_complain _)
  | succ rounds ih =>
    intro s s' a hs h hend
    obtain ⟨round, between, hround, h⟩ := bind_eq_ok.1 h
    cases round with
    | done result =>
      cases h
      exact hstep current hcurrent s _ (.done a) hs hround hend
    | again next =>
      -- The rounds to come forget nothing, so nothing was remembered in this one.
      have hmore : Advances between (repeatUpTo step rounds next) := inferInstance
      have hbetween : between.leftover = none := (hmore.after (.refl _) h).leftover hend
      have hnext : R next := hstep current hcurrent s between (.again next) hs hround hbetween
      exact ih hnext between s' a ((hadvances t current).after hs hround) h hend

theorem finds_repeated {step : σ → Parser (Round σ α)} {R : σ → Prop}
    [hadvances : ∀ t current, Advances t (step current)]
    (hstep : ∀ current, R current → FindsFrom t (step current) fun
      | .again next => R next
      | .done result => P result) {first : σ} (hfirst : R first) :
    FindsFrom t (repeated step first) P :=
  finds_get fun _ hs => (finds_repeatUpTo hstep _ hfirst).mono hs

theorem finds_untilEnd [∀ t, Advances t p] (h : FindsFrom t p P) :
    FindsFrom t (untilEnd p) fun results => ∀ result ∈ results, P result := by
  refine finds_repeated (R := fun found => ∀ result ∈ found, P result) (fun found hfound => ?_)
    (List.forall_mem_nil P)
  refine finds_after fun _ => finds_ite (finds_pure ?_) (finds_bind h fun result hresult =>
    finds_pure ?_)
  · simpa using hfound
  · exact List.forall_mem_cons.2 ⟨hresult, hfound⟩

theorem finds_commaSeparated [∀ t, Advances t p] (h : FindsFrom t p P) :
    FindsFrom t (commaSeparated p) fun results => ∀ result ∈ results, P result := by
  refine finds_repeated (R := fun found => ∀ result ∈ found, P result) (fun found hfound => ?_)
    (List.forall_mem_nil P)
  refine finds_after fun _ => finds_ite (finds_pure ?_) (finds_bind h fun result hresult => ?_)
  · simpa using hfound
  have hmore : ∀ r ∈ result :: found, P r := List.forall_mem_cons.2 ⟨hresult, hfound⟩
  refine finds_after fun _ => finds_ite (finds_pure ?_) (finds_after fun _ => finds_pure hmore)
  exact fun r hr => hmore r (List.mem_reverse.1 hr)

/-! ### Attributes -/

section Attributes

variable {g : Nonterminals} [g.Advance]

/-- A mark that was read stood in front. -/
theorem exists_of_mark {c : Char} {text : String} {s s' : State} (htext : text.toList = [c])
    (h : mark text s = .ok ((), s')) : ∃ joint pos, s.rest = .mark c joint pos :: s'.rest := by
  obtain ⟨_ | ⟨tree, rest⟩, close, within, leftover, read⟩ := s
  · unfold mark at h
    rw [htext] at h
    cases h
  unfold mark at h
  obtain ⟨_, _, hget, h⟩ := bind_eq_ok.1 h
  cases hget
  rw [htext] at h
  rcases tree with _ | ⟨d, joint, pos⟩ | _ | _
  case mark =>
    by_cases hc : c = d ∧ d ≠ '\x27'
    · obtain ⟨rfl, hd⟩ := hc
      have hmarks : afterMarks? [c] (.mark c joint pos :: rest) = some rest := by
        simp [afterMarks?, hd]
      dsimp only at h
      rw [hmarks] at h
      cases h
      exact ⟨joint, pos, rfl⟩
    · have hmarks : afterMarks? [c] (.mark d joint pos :: rest) = none := by
        simp [afterMarks?, hc]
      dsimp only at h
      rw [hmarks] at h
      cases h
  all_goals cases h

theorem finds_brackets (s s' : State) (a : Attribute)
    (h : brackets (attributeBody g) s = .ok (a, s')) (hend : s'.leftover = none) :
    ∃ content opened closed, s.rest = .group .bracket content opened closed :: s'.rest ∧
      a.IsReadFrom (placelessAll content) := by
  obtain ⟨content, opened, closed, start, inside, hrest, rfl, -, hread, hinside, hnone⟩ :=
    exists_of_group h hend
  have hstart : start.leftover = none := (Advances.after_self hread).leftover hnone
  exact ⟨start.rest, opened, closed, hrest, g, start, inside, ⟨rfl, hstart⟩, hread, hinside⟩

theorem finds_outerAttribute (ht : Inside trees t.rest) :
    FindsFrom t (outerAttribute g) (·.StandsIn trees) := by
  intro s s' a hs hp hend
  obtain ⟨_, between, hmark, hp⟩ := bind_eq_ok.1 hp
  obtain ⟨joint, pos, hrest⟩ := exists_of_mark (c := '#') rfl hmark
  obtain ⟨content, opened, closed, hbetween, hread⟩ := finds_brackets _ _ _ hp hend
  have hplace := ht.suffix hs.rest
  rw [hrest, hbetween] at hplace
  exact ⟨content, hread, joint, pos, [], opened, closed, s'.rest, hplace, .inl rfl⟩

theorem finds_outerAttributes (ht : Inside trees t.rest) :
    FindsFrom t (outerAttributes g) fun attributes => ∀ a ∈ attributes, a.StandsIn trees := by
  refine finds_repeated (R := fun found : List Attribute => ∀ a ∈ found, a.StandsIn trees)
    (fun found hfound => ?_) (by simp)
  refine finds_after fun _ => finds_ite ?_ (finds_pure ?_)
  · exact finds_bind (finds_outerAttribute ht) fun a ha =>
      finds_pure (List.forall_mem_cons.2 ⟨ha, hfound⟩)
  · exact fun a ha => hfound a (List.mem_reverse.1 ha)

theorem finds_innerAttributes (ht : Inside trees t.rest) :
    FindsFrom t (innerAttributes g) fun attributes => ∀ a ∈ attributes, a.StandsIn trees := by
  refine finds_repeated (R := fun found : List Attribute => ∀ a ∈ found, a.StandsIn trees)
    (fun found hfound => ?_) (by simp)
  refine finds_after fun _ => finds_after fun _ => finds_ite ?_ (finds_pure ?_)
  · intro s s' round hs hp hend
    obtain ⟨_, s₁, hsign, hp⟩ := bind_eq_ok.1 hp
    obtain ⟨_, s₂, hbang, hp⟩ := bind_eq_ok.1 hp
    obtain ⟨a, s₃, hbrackets, hp⟩ := bind_eq_ok.1 hp
    cases hp
    obtain ⟨joint, pos, hrest⟩ := exists_of_mark (c := '#') rfl hsign
    obtain ⟨joint', pos', hrest'⟩ := exists_of_mark (c := '!') rfl hbang
    obtain ⟨content, opened, closed, hcontent, hread⟩ := finds_brackets _ _ _ hbrackets hend
    have hplace := ht.suffix hs.rest
    rw [hrest, hrest', hcontent] at hplace
    exact List.forall_mem_cons.2 ⟨⟨content, hread, joint, pos, [.mark '!' joint' pos'], opened,
      closed, _, hplace, .inr ⟨joint', pos', rfl⟩⟩, hfound⟩
  · exact fun a ha => hfound a (List.mem_reverse.1 ha)

end Attributes

end Grammar.Parser

/-! ### Items without attributes that count -/

/-- No attribute of the item is kept: it is no enum and no module. -/
def Item.IsBare (item : Item) : Prop := ∀ a, ¬ item.Has a

namespace Grammar.Parser

/-- Every answer is an item without attributes that count. -/
class AnswersBare (p : Parser Item) : Prop where
  yields : Yields p Item.IsBare

namespace AnswersBare

variable {α : Type} {g : Nonterminals}

theorem of_item {item : Item} (h : item.IsBare) : AnswersBare (pure item) := ⟨yields_pure h⟩

instance (kind : ItemKind) (name : String) : AnswersBare (pure (.named kind name)) :=
  of_item fun _ h => nomatch h

instance (absolute : Bool) (tree : UseTree) : AnswersBare (pure (.imports absolute tree)) :=
  of_item fun _ h => nomatch h

instance (name binding : String) : AnswersBare (pure (.externCrate name binding)) :=
  of_item fun _ h => nomatch h

instance : AnswersBare (pure .irregular) := of_item fun _ h => nomatch h

instance : AnswersBare (pure .unnamed) := of_item fun _ h => nomatch h

theorem of_bind {p : Parser α} {f : α → Parser Item} (hf : ∀ a, AnswersBare (f a)) :
    AnswersBare (p >>= f) := ⟨yields_after fun a => (hf a).yields⟩

instance {p : Parser α} {f : α → Parser Item} [hf : ∀ a, AnswersBare (f a)] :
    AnswersBare (p >>= f) := of_bind hf

instance {c : Prop} [Decidable c] {p q : Parser Item} [hp : AnswersBare p] [hq : AnswersBare q] :
    AnswersBare (if c then p else q) := ⟨yields_ite hp.yields hq.yields⟩

instance (es : List Expected) : AnswersBare (missingOneOf es) := ⟨yields_missingOneOf _⟩

instance : AnswersBare useItem :=
  of_bind fun _ => of_bind fun _ => of_bind fun _ => of_bind fun tree => of_bind fun _ => by
    cases tree <;> infer_instance

instance (start : State) (visible : Visibility) : AnswersBare (foreignBlock g start visible) := by
  unfold foreignBlock
  cases visible <;> infer_instance

instance (start : State) (visible : Visibility) : AnswersBare (externItem g start visible) := by
  unfold externItem; infer_instance

instance : AnswersBare (staticItem g) := by unfold staticItem; infer_instance

instance (alias? : Bool) : AnswersBare (traitItem g alias?) := by unfold traitItem; infer_instance

instance (visible : Visibility) : AnswersBare (implItem g visible) := by
  unfold implItem; infer_instance

instance : AnswersBare rulesItem := by unfold rulesItem; infer_instance

end AnswersBare

variable {trees : List TokenTree} {t : State} {g : Nonterminals}

/-- The attributes that the item keeps stand in the trees. -/
abbrev Standing (trees : List TokenTree) (item : Item) : Prop := ∀ a, item.Has a → a.StandsIn trees

theorem finds_of_bare {p : Parser Item} [hp : AnswersBare p] : FindsFrom t p (Standing trees) :=
  finds_of_yields fun s item s' hitem a ha => absurd ha (hp.yields s item s' hitem a)

section Items

variable [g.Advance]

theorem finds_variant (ht : Inside trees t.rest) :
    FindsFrom t (variant g) fun v => ∀ a ∈ v.attributes, a.StandsIn trees := by
  refine finds_bind (finds_outerAttributes ht) fun attributes hattributes => ?_
  refine finds_of_yields (yields_after fun _ => yields_after fun name => ?_)
  refine yields_after fun _ => yields_after fun _ => ?_
  extract_lets next
  have hnext : ∀ isUnit, Yields (next isUnit) fun v => ∀ a ∈ v.attributes, a.StandsIn trees := by
    refine fun isUnit => yields_after fun _ => ?_
    extract_lets last
    have hlast : ∀ c, Yields (last c) fun v => ∀ a ∈ v.attributes, a.StandsIn trees :=
      fun _ => yields_pure hattributes
    exact yields_ite (yields_after hlast) (hlast ())
  refine yields_ite (yields_after fun _ => yields_after hnext) (yields_ite ?_ (yields_after hnext))
  exact yields_after fun _ => yields_after hnext

theorem finds_enumDecl (ht : Inside trees t.rest) {attributes : List Attribute}
    (hattributes : ∀ a ∈ attributes, a.StandsIn trees) (visible : Visibility) :
    FindsFrom t (enumDecl g attributes visible) fun decl => Standing trees (.enumeration decl) := by
  refine finds_after fun _ => finds_after fun _ => finds_after fun _ => finds_after fun _ => ?_
  refine finds_bind (finds_group ht fun start hstart =>
    finds_commaSeparated (finds_variant hstart)) fun variants hvariants => finds_pure ?_
  intro a h
  cases h with
  | enumeration ha => exact hattributes a ha
  | variant hv ha => exact hvariants _ hv a ha

theorem finds_moduleItem (ht : Inside trees t.rest)
    (hitem : ∀ t : State, Inside trees t.rest → FindsFrom t g.item (Standing trees))
    {attributes : List Attribute} (hattributes : ∀ a ∈ attributes, a.StandsIn trees)
    (visible : Visibility) :
    FindsFrom t (moduleItem g attributes visible) (Standing trees) := by
  refine finds_after fun _ => finds_after fun _ => ?_
  extract_lets next
  have hnext : ∀ name, FindsFrom t (next name) (Standing trees) := by
    refine fun name => finds_after fun _ => finds_ite (finds_pure ?_) ?_
    · intro a h
      cases h with
      | fileModule ha => exact hattributes a ha
    refine finds_after fun _ => finds_ite (finds_group ht fun start hstart => ?_) finds_of_bare
    refine finds_bind (finds_innerAttributes hstart) fun inner hinner => ?_
    refine finds_bind (finds_untilEnd (hitem start hstart)) fun items hitems => finds_pure ?_
    intro a h
    cases h with
    | inlineModule ha => exact (List.mem_append.1 ha).elim (hattributes a) (hinner a)
    | inside hmem ha => exact hitems _ hmem a ha
  exact finds_after fun _ => finds_ite (finds_after hnext) (finds_after hnext)

theorem finds_unsafeItem (ht : Inside trees t.rest)
    (hitem : ∀ t : State, Inside trees t.rest → FindsFrom t g.item (Standing trees))
    {attributes : List Attribute} (hattributes : ∀ a ∈ attributes, a.StandsIn trees)
    (visible : Visibility) :
    FindsFrom t (unsafeItem g t attributes visible) (Standing trees) := by
  refine finds_after fun _ => finds_ite finds_of_bare ?_
  refine finds_after fun _ => finds_after fun _ => finds_ite finds_of_bare ?_
  refine finds_after fun _ => finds_ite finds_of_bare ?_
  refine finds_after fun _ => finds_ite finds_of_bare ?_
  exact finds_after fun _ => finds_ite (finds_moduleItem ht hitem hattributes visible) finds_of_bare

theorem finds_item (ht : Inside trees t.rest)
    (hitem : ∀ t : State, Inside trees t.rest → FindsFrom t g.item (Standing trees)) :
    FindsFrom t (item g) (Standing trees) := by
  refine finds_verbatimIf (finds_bind (finds_outerAttributes ht) fun attributes hattributes => ?_)
  refine finds_get fun start hstart => ?_
  replace ht : Inside trees start.rest := ht.suffix hstart.rest
  refine finds_after fun visible => ?_
  extract_lets bare
  refine finds_after fun _ => finds_ite finds_of_bare ?_
  refine finds_after fun _ => finds_ite finds_of_bare ?_
  refine finds_after fun _ => finds_ite finds_of_bare ?_
  refine finds_after fun _ => finds_ite finds_of_bare ?_
  refine finds_after fun _ => finds_ite finds_of_bare ?_
  refine finds_after fun _ => finds_ite (finds_unsafeItem ht hitem hattributes visible) ?_
  refine finds_after fun _ => finds_ite (finds_moduleItem ht hitem hattributes visible) ?_
  refine finds_after fun _ => finds_ite finds_of_bare ?_
  refine finds_after fun _ => finds_ite finds_of_bare ?_
  refine finds_after fun _ => finds_ite ?_ ?_
  · exact finds_bind (finds_enumDecl ht hattributes visible) fun decl hdecl => finds_pure hdecl
  refine finds_after fun _ => finds_after fun _ => finds_ite finds_of_bare ?_
  refine finds_after fun _ => finds_ite finds_of_bare ?_
  refine finds_after fun _ => finds_after fun _ => finds_ite finds_of_bare ?_
  refine finds_after fun _ => finds_after fun _ => finds_after fun _ => finds_ite finds_of_bare ?_
  refine finds_after fun _ => finds_ite finds_of_bare ?_
  refine finds_after fun _ => finds_ite ?_ finds_of_bare
  exact finds_after fun name? => by cases name? <;> exact finds_of_bare

end Items

theorem finds_nonterminals_item (depth : Nat) (ht : Inside trees t.rest) :
    FindsFrom t (nonterminals depth).item (Standing trees) := by
  induction depth generalizing t with
  | zero => exact finds_of_yields (yields_complain _)
  | succ depth ih => exact finds_item ht fun _ => ih

/-- The attributes that a file keeps stand in the trees. -/
theorem finds_file (depth : Nat) (ht : Inside trees t.rest) :
    FindsFrom t (file (nonterminals depth)) fun source =>
      ∀ a, source.Has a → a.StandsIn trees := by
  refine finds_bind (finds_innerAttributes ht) fun attributes hattributes => ?_
  refine finds_bind (finds_untilEnd (finds_nonterminals_item depth ht)) fun items hitems =>
    finds_pure ?_
  rintro a (ha | ⟨item, hitem, ha⟩)
  · exact hattributes a ha
  · exact hitems item hitem a ha

end Grammar.Parser

/-! ### Lexed attributes -/

theorem IsLexed.of_inside {trees ts : List TokenTree} (h : IsLexed trees) (hts : Inside trees ts) :
    IsLexed ts := by
  induction hts with
  | all => exact h
  | behind _ ih =>
    cases ih with
    | word _ _ h | literal _ _ h | mark _ _ _ h | joint _ _ h | group _ _ _ _ h => exact h
  | content _ ih =>
    cases ih with
    | group _ _ _ h => exact h

/-- What fills the brackets of an attribute is lexed as all trees are. -/
theorem IsLexed.of_inBrackets {trees content : List TokenTree} (h : IsLexed trees)
    (hcontent : InBrackets content trees) : IsLexed content := by
  obtain ⟨joint, pos, marks, opened, closed, rest, hinside, -⟩ := hcontent
  have hgroup : (.group .bracket content opened closed :: rest) <:+
      .mark '#' joint pos :: (marks ++ .group .bracket content opened closed :: rest) :=
    (List.suffix_append ..).trans (List.suffix_cons ..)
  exact h.of_inside (hinside.suffix hgroup).content

/-! ### Files -/

/-- The attributes of a file, of its modules and enums and of their variants stand in its trees. -/
theorem SourceText.standsIn_of_parseFile {text : String} {source : SourceText}
    (h : parseFile text = .ok source) : ∃ trees, TokenTree.ofText (fileText text) = .ok trees ∧
      ∀ a, source.Has a → a.StandsIn trees := by
  obtain ⟨trees, htrees, h⟩ := exists_of_parseText h
  obtain ⟨state, hsource, -, hleftover⟩ := exists_of_readAll h
  exact ⟨trees, htrees, finds_file _ .all _ state source (.refl _) hsource hleftover⟩

end DescriptionLookup
