import DescriptionLookup.Proofs.AcceptedItems

/-!
# Accepted parameters

The parameters, bounds and predicates that consist of names, and implementations for types that have
such parameters.

* `IsPlainBound`, `IsPlainParam`, `IsPlainPredicate`: the phrases;
* `accepts_generics`, `accepts_optionalWhere`: their lists, as an item declares them;
* `accepts_item_impl_declared`: an implementation that declares parameters.
-/

namespace DescriptionLookup.Grammar

open Grammar.Parser TokenTree

variable {g : Nonterminals} {names : List String} {name : String} {trees rest : List TokenTree}

/-! ### Bounds -/

/-- A path of names, perhaps behind a leading `::`. -/
inductive IsNamePath : List TokenTree → Prop
  | relative {name : String} {names : List String} : IsPathHead name →
    (∀ name ∈ names, IsPathName name) → IsNamePath (ofWord name :: separated names)
  | absolute {name : String} {names : List String} : IsPathName name →
    (∀ name ∈ names, IsPathName name) → IsNamePath (separated (name :: names))

/-- A bound without arguments: a lifetime, or a trait, perhaps behind a question mark. -/
inductive IsPlainBound : List TokenTree → Prop
  | lifetime {tokens : List TokenTree} : IsLifetime tokens → IsPlainBound tokens
  | trait {tokens : List TokenTree} : IsNamePath tokens → IsPlainBound tokens
  | relaxed {tokens : List TokenTree} : IsNamePath tokens → IsPlainBound (ofMark '?' :: tokens)

/-- Phrases of a kind with plus signs between them. -/
inductive PlusSeparated (P : List TokenTree → Prop) : List TokenTree → Prop
  | last {phrase : List TokenTree} : P phrase → PlusSeparated P phrase
  | cons {phrase rest : List TokenTree} : P phrase → PlusSeparated P rest →
    PlusSeparated P (phrase ++ ofMark '+' :: rest)

/-- What goes on with the bound before it. -/
def boundGoesOn : List Expected := .group .parenthesis :: pathGoesOn

theorem IsNamePath.accepts_path (h : IsNamePath trees) (hrest : lacks pathGoesOn rest = true) :
    Accepts (path g false) (trees ++ rest) (fun shape => shape.arguments = none) rest := by
  cases h with
  | relative hname hnames =>
    exact (Grammar.accepts_path hname.isPathName hnames hrest false).imp fun _ h => h ▸ rfl
  | absolute hname hnames =>
    exact (accepts_path_absolute hname hnames hrest false).imp fun _ h => h ▸ rfl

theorem accepts_binder_none (h : (Expected.word "for").begins trees = false) :
    Accepts (binder g) trees (· = false) trees :=
  (accepts_optionalWord_absent h).andThen (.iteFalse rfl (.pure rfl))

/-- The path of a trait without arguments. -/
theorem accepts_traitPath (h : IsNamePath trees) (hrest : lacks boundGoesOn rest = true) :
    Accepts (traitPath g) (trees ++ rest) (· = ()) rest := by
  have hpath : lacks pathGoesOn rest = true := lacks_of_subset hrest (List.subset_cons_self ..)
  have hparentheses : glance seesParentheses rest = false :=
    begins_of_lacks (e := .group .parenthesis) hrest (by simp [boundGoesOn])
  have hcolons : glance (seesMark "::") rest = false :=
    begins_of_lacks (e := .mark "::") hpath (by simp [pathGoesOn])
  have hsees : Accepts seesPathParentheses rest (· = false) rest :=
    .look (.iteFalse hparentheses (.look (.iteFalse hcolons (.pure rfl))))
  refine (accepts_captured (h.accepts_path hpath)).bind ?_
  rintro ⟨shape, tokens⟩ harguments
  exact hsees.andThen (.iteFalse (by simp) (accepts_record tokens))

/-- A path of names begins with none of the words and marks that may stand in front of a trait. -/
theorem IsNamePath.lacks (h : IsNamePath trees) (rest : List TokenTree) :
    Grammar.lacks [.lifetime, .word "use", .word "for", .word "const", .group .parenthesis,
      .group .bracket, .mark "?", .mark "+", .mark ",", .mark ">", .mark "=", .group .brace,
      .mark ";"]
      (trees ++ rest) = true := by
  cases h with
  | relative hname _ =>
    have hword : ∀ text ∈ reservedWords, text ∉ ["Self", "super", "self", "crate"] →
        ∀ trees, (Expected.word text).begins (ofWord _ :: trees) = false :=
      fun _ htext hhead trees => hname.begins_word_eq_false htext hhead trees
    simp only [Grammar.lacks, List.cons_append, List.all_cons,
      hword "use" (by decide) (by decide), hword "for" (by decide) (by decide),
      hword "const" (by decide) (by decide)]
    rfl
  | absolute _ _ => rfl

theorem accepts_constModifier (h : lacks [.group .bracket, .word "const"] trees = true) :
    Accepts (constModifier true) trees (· = false) trees :=
  .here fun _ => .look (.iteFalse (begins_of_lacks (e := .group .bracket) h (by simp))
    ((accepts_optionalWord_absent (begins_of_lacks h (by simp))).andThen
      (.iteFalse rfl (.pure rfl))))

/-- A trait without arguments, perhaps behind a question mark. -/
theorem accepts_traitBound (h : IsNamePath trees) (hrest : lacks boundGoesOn rest = true) :
    Accepts (traitBound g true) (trees ++ rest) (fun _ => True) rest ∧
      Accepts (traitBound g true) (ofMark '?' :: (trees ++ rest)) (fun _ => True) rest := by
  have hno := fun {e : Expected} (he : e ∈ _) => begins_of_lacks (h.lacks rest) (e := e) he
  have hbinder : Accepts (binder g) (trees ++ rest) (· = false) (trees ++ rest) :=
    accepts_binder_none (hno (by simp))
  constructor
  · refine hbinder.andThen ((accepts_constModifier ?_).andThen (.here fun _ => ?_))
    · exact lacks_of_subset (h.lacks rest) (by simp)
    refine (accepts_optionalMark_absent (hno (by simp))).andThen (.iteFalse rfl ?_)
    refine Accepts.andThen (a := false) (.pure rfl) ((accepts_traitPath h hrest).andThen ?_)
    exact .iteFalse rfl (.pure trivial)
  · refine (accepts_binder_none rfl).andThen ?_
    refine (accepts_constModifier rfl).andThen (.here fun _ => ?_)
    refine (accepts_optionalMark rfl).andThen (.iteTrue rfl ?_)
    refine hbinder.andThen ((accepts_traitPath h hrest).andThen ?_)
    exact .iteFalse rfl (.pure trivial)

theorem accepts_paramBound {n : Nat} (h : IsPlainBound trees)
    (hrest : lacks boundGoesOn rest = true) :
    Accepts (paramBound (nonterminals (n + 1))) (trees ++ rest) (· = ()) rest := by
  have hbound : Accepts (bound (nonterminals n) false true) (trees ++ rest)
      (fun _ => True) rest := by
    cases h with
    | lifetime h =>
      obtain @⟨name, -⟩ := h
      exact .look (.iteTrue rfl ((accepts_lifetime name).andThen (.pure trivial)))
    | trait h =>
      have hno := fun {e : Expected} (he : e ∈ _) => begins_of_lacks (h.lacks rest) (e := e) he
      refine .look (.iteFalse (hno (by simp)) (.look (.iteFalse (hno (by simp)) ?_)))
      refine (accepts_verbatimIf (Q := fun _ => True) ?_).bind fun _ _ => .pure trivial
      exact .look (.iteFalse (hno (by simp)) (accepts_traitBound h hrest).1)
    | relaxed h =>
      refine .look (.iteFalse rfl (.look (.iteFalse rfl ?_)))
      refine (accepts_verbatimIf (Q := fun _ => True) ?_).bind fun _ _ => .pure trivial
      exact .look (.iteFalse rfl (accepts_traitBound h hrest).2)
  exact Accepts.bind (p := (nonterminals (n + 1)).bound false true) hbound fun _ _ => .pure rfl

/-- Bounds with plus signs between them, in front of what ends them. -/
theorem accepts_boundsUntil {P : List TokenTree → Prop} {stops : Parser Bool} [Looks stops]
    {bound : Parser Unit} (hP : ∀ {phrase rest}, P phrase → lacks boundGoesOn rest = true →
      glance stops (phrase ++ rest) = false ∧ Accepts bound (phrase ++ rest) (· = ()) rest)
    (h : PlusSeparated P trees) (hrest : lacks (.mark "+" :: boundGoesOn) rest = true) :
    Accepts (boundsUntil stops bound) (trees ++ rest) (fun _ => True) rest := by
  have hbound : lacks boundGoesOn rest = true := lacks_of_subset hrest (List.subset_cons_self ..)
  refine Repeats.accepts ?_
  -- A round reads one bound; only behind the last one stands no plus sign.
  induction h with
  | last hphrase =>
    obtain ⟨hstops, haccepts⟩ := hP hphrase hbound
    refine .done (P := (· = .done ())) (.seeing hstops (.iteFalse rfl (haccepts.andThen ?_)))
      fun _ h => ⟨_, h, trivial⟩
    refine (accepts_optionalMark_absent (begins_of_lacks hrest (by simp))).andThen ?_
    exact .iteFalse rfl (.pure rfl)
  | @cons phrase trees hphrase _ ih =>
    obtain ⟨hstops, haccepts⟩ := @hP _ (ofMark '+' :: (trees ++ rest)) hphrase rfl
    rw [List.append_assoc, List.cons_append]
    refine .again (P := (· = .again ())) (.seeing hstops (.iteFalse rfl (haccepts.andThen
      ((accepts_optionalMark rfl).andThen (.iteTrue rfl (.pure rfl)))))) ?_ fun _ h => ⟨_, h, ih⟩
    simp only [List.length_append, List.length_cons]
    omega

/-! ### Parameters -/

/-- A parameter without attributes and default as it is declared. -/
inductive IsPlainParam : List TokenTree → Prop
  | lifetime {tokens : List TokenTree} : IsLifetime tokens → IsPlainParam tokens
  | boundedLifetime {tokens bounds : List TokenTree} : IsLifetime tokens →
    PlusSeparated IsLifetime bounds → IsPlainParam (tokens ++ ofMark ':' :: bounds)
  | type {name : String} : isIdentifier name = true → IsPlainParam [ofWord name]
  | boundedType {name : String} {bounds : List TokenTree} : isIdentifier name = true →
    PlusSeparated IsPlainBound bounds → IsPlainParam (ofWord name :: ofMark ':' :: bounds)
  | const {name first : String} {names : List String} : isIdentifier name = true →
    IsPathHead first → (∀ name ∈ names, IsPathName name) →
    IsPlainParam (ofWord "const" :: ofWord name :: ofMark ':' :: ofWord first :: separated names)

/-- What goes on with the parameter before it. -/
def paramGoesOn : List Expected := [.mark ":", .mark "=", .group .parenthesis] ++ typeGoesOn

theorem lacks_bounds (h : lacks paramGoesOn rest = true) :
    lacks (.mark "+" :: boundGoesOn) rest = true :=
  lacks_of_subset h (by simp [paramGoesOn, typeGoesOn, boundGoesOn, pathGoesOn])

theorem accepts_lifetimes {bounds : List TokenTree} (h : PlusSeparated IsLifetime bounds)
    (hrest : lacks paramGoesOn rest = true) :
    Accepts (boundsUntil (do if ← atEnd then return true else seesAny [.mark ",", .mark ">"])
      lifetime) (bounds ++ rest) (fun _ => True) rest := by
  refine accepts_boundsUntil (P := IsLifetime) ?_ h (lacks_bounds hrest)
  intro phrase rest hphrase _
  obtain @⟨name, -⟩ := hphrase
  exact ⟨rfl, accepts_lifetime name⟩

theorem accepts_typeBounds {n : Nat} {bounds : List TokenTree}
    (h : PlusSeparated IsPlainBound bounds) (hrest : lacks paramGoesOn rest = true) :
    Accepts (boundsUntil (do
        if ← atEnd then return true else seesAny [.mark ",", .mark ">", .mark "="])
      (paramBound (nonterminals (n + 1)))) (bounds ++ rest) (fun _ => True) rest := by
  refine accepts_boundsUntil (P := IsPlainBound) ?_ h (lacks_bounds hrest)
  intro phrase rest hphrase hrest
  refine ⟨?_, accepts_paramBound hphrase hrest⟩
  cases hphrase with
  | lifetime h => cases h; rfl
  | trait h => cases h <;> rfl
  | relaxed h => rfl

theorem accepts_lifetimeParam (hrest : lacks paramGoesOn rest = true) (name : String)
    (attributes : List TokenTree) :
    Accepts (lifetimeParam attributes) (ofJoint '\x27' :: ofWord name :: rest)
      (fun _ => True) rest ∧
      ∀ {bounds}, PlusSeparated IsLifetime bounds →
        Accepts (lifetimeParam attributes)
          (ofJoint '\x27' :: ofWord name :: ofMark ':' :: (bounds ++ rest)) (fun _ => True)
          rest := by
  constructor
  · refine (accepts_captured (accepts_lifetime name)).bind ?_
    rintro ⟨_, read⟩ -
    have hcolon : (Expected.mark ":").begins rest = false :=
      begins_of_lacks hrest (by simp [paramGoesOn])
    refine (accepts_captured (accepts_optionalMark_absent hcolon)).bind ?_
    rintro ⟨_, colon⟩ rfl
    refine (accepts_captured (Q := fun _ => True) (.iteFalse rfl (.pure trivial))).bind ?_
    rintro ⟨_, found⟩ -
    exact .pure trivial
  · intro bounds hbounds
    refine (accepts_captured (accepts_lifetime name)).bind ?_
    rintro ⟨_, read⟩ -
    refine (accepts_captured (accepts_optionalMark rfl)).bind ?_
    rintro ⟨_, colon⟩ rfl
    refine (accepts_captured (.iteTrue rfl (accepts_lifetimes hbounds hrest))).bind ?_
    rintro ⟨_, found⟩ -
    exact .pure trivial

/-- A parameter without default. -/
theorem accepts_default_none {p : Parser Unit} (h : (Expected.mark "=").begins trees = false) :
    Accepts (captured do if ← optionalMark "=" then p) trees (fun _ => True) trees := by
  refine accepts_captured (Q := fun _ => True) ((accepts_optionalMark_absent h).andThen ?_)
  exact .iteFalse rfl (.pure trivial)

theorem accepts_typeParam {n : Nat} (hname : isIdentifier name = true)
    (hrest : lacks paramGoesOn rest = true) (attributes : List TokenTree) :
    Accepts (typeParam (nonterminals (n + 1)) attributes) (ofWord name :: rest) (fun _ => True)
        rest ∧
      ∀ {bounds}, PlusSeparated IsPlainBound bounds →
        Accepts (typeParam (nonterminals (n + 1)) attributes)
          (ofWord name :: ofMark ':' :: (bounds ++ rest)) (fun _ => True) rest := by
  have hequals : (Expected.mark "=").begins rest = false :=
    begins_of_lacks hrest (by simp [paramGoesOn])
  constructor
  · refine (accepts_captured (accepts_identifier hname)).bind ?_
    rintro ⟨_, read⟩ -
    have hcolon : (Expected.mark ":").begins rest = false :=
      begins_of_lacks hrest (by simp [paramGoesOn])
    refine (accepts_captured (accepts_optionalMark_absent hcolon)).bind ?_
    rintro ⟨_, colon⟩ rfl
    refine (accepts_captured (Q := fun _ => True) (.iteFalse rfl (.pure trivial))).bind ?_
    rintro ⟨_, found⟩ -
    refine (accepts_default_none hequals).bind ?_
    rintro ⟨_, default⟩ -
    exact .pure trivial
  · intro bounds hbounds
    refine (accepts_captured (accepts_identifier hname)).bind ?_
    rintro ⟨_, read⟩ -
    refine (accepts_captured (accepts_optionalMark rfl)).bind ?_
    rintro ⟨_, colon⟩ rfl
    refine (accepts_captured (.iteTrue rfl (accepts_typeBounds hbounds hrest))).bind ?_
    rintro ⟨_, found⟩ -
    refine (accepts_default_none hequals).bind ?_
    rintro ⟨_, default⟩ -
    exact .pure trivial

theorem accepts_constParam {n : Nat} {first : String} (hname : isIdentifier name = true)
    (hfirst : IsPathHead first) (hnames : ∀ name ∈ names, IsPathName name)
    (hrest : lacks paramGoesOn rest = true) (attributes : List TokenTree) :
    Accepts (constParam (nonterminals (n + 1)) attributes)
      (ofWord "const" :: ofWord name :: ofMark ':' :: ofWord first :: (separated names ++ rest))
      (fun _ => True) rest := by
  have hequals : (Expected.mark "=").begins rest = false :=
    begins_of_lacks hrest (by simp [paramGoesOn])
  have htype : Accepts ((nonterminals (n + 1)).type true)
      (ofWord first :: (separated names ++ rest)) _ rest :=
    accepts_type_path (g := nonterminals n) hfirst hnames
      (lacks_of_subset hrest (List.subset_append_right _ _))
  refine (accepts_silently (accepts_word "const")).andThen ?_
  refine (accepts_captured (accepts_identifier hname)).bind ?_
  rintro ⟨_, read⟩ -
  refine (accepts_captured (Q := fun _ => True)
    ((accepts_mark rfl).andThen (htype.bind fun _ _ => .pure trivial))).bind ?_
  rintro ⟨_, found⟩ -
  refine (accepts_default_none hequals).bind ?_
  rintro ⟨_, default⟩ -
  exact .pure trivial

theorem accepts_declaredParam {n : Nat} (h : IsPlainParam trees)
    (hrest : lacks paramGoesOn rest = true) :
    Accepts (declaredParam (nonterminals (n + 1))) (trees ++ rest) (fun _ => True) rest := by
  have hnone : ∀ content ∈ ([] : List (List TokenTree)), IsAttributeContent content := by simp
  have hattributes : ∀ {trees : List TokenTree}, (Expected.mark "#").begins trees = false →
      Accepts (captured (outerAttributes (nonterminals (n + 1)))) trees (fun _ => True) trees :=
    fun hsharp => accepts_captured (accepts_outerAttributes hnone hsharp)
  cases h with
  | lifetime h =>
    obtain @⟨name, -⟩ := h
    refine (hattributes rfl).bind ?_
    rintro ⟨_, attributes⟩ -
    exact .look (.iteTrue rfl (accepts_lifetimeParam hrest name attributes).1)
  | boundedLifetime h hbounds =>
    obtain @⟨name, -⟩ := h
    refine (hattributes rfl).bind ?_
    rintro ⟨_, attributes⟩ -
    exact .look (.iteTrue rfl ((accepts_lifetimeParam hrest name attributes).2 hbounds))
  | type hname =>
    refine (hattributes rfl).bind ?_
    rintro ⟨_, attributes⟩ -
    exact .look (.iteFalse rfl (.look (.iteTrue hname
      (accepts_typeParam hname hrest attributes).1)))
  | boundedType hname hbounds =>
    refine (hattributes rfl).bind ?_
    rintro ⟨_, attributes⟩ -
    exact .look (.iteFalse rfl (.look (.iteTrue hname
      ((accepts_typeParam hname hrest attributes).2 hbounds))))
  | const hname hfirst hnames =>
    have hconst : isIdentifier "const" = false := by decide +kernel
    refine (hattributes rfl).bind ?_
    rintro ⟨_, attributes⟩ -
    exact .look (.iteFalse rfl (.look (.iteFalse hconst (.look (.iteTrue rfl
      (accepts_constParam hname hfirst hnames hrest attributes))))))

/-! ### Lists of parameters -/

theorem IsPlainParam.begins (h : IsPlainParam trees) (rest : List TokenTree) :
    (Expected.mark ">").begins (trees ++ rest) = false := by
  cases h with
  | lifetime h => cases h; rfl
  | boundedLifetime h _ => cases h; rfl
  | _ => rfl

theorem accepts_generics {n : Nat} {params : List TokenTree}
    (h : CommaSeparated IsPlainParam params) :
    Accepts (generics (nonterminals (n + 1))) (ofMark '<' :: (params ++ ofMark '>' :: rest))
      (fun _ => True) rest := by
  refine .look (.iteFalse rfl ((accepts_silently (accepts_mark rfl)).andThen ?_))
  refine Accepts.bind (Q := fun _ => True) (t := ofMark '>' :: rest) (Repeats.accepts ?_) ?_
  · -- A round reads one parameter, and the comma behind it if there is one.
    generalize ([] : List GenericParam) = found
    induction h generalizing found with
    | nil =>
      exact .done (P := (· = .done found.reverse)) (.look (.iteTrue rfl (.pure rfl)))
        fun _ h => ⟨_, h, trivial⟩
    | last hparam =>
      refine .done (P := fun round => ∃ params, round = .done params)
        (.look (.iteFalse (hparam.begins _) ((accepts_declaredParam hparam rfl).bind ?_)))
        fun _ ⟨params, h⟩ => ⟨params, h, trivial⟩
      exact fun _ _ => .look (.iteTrue rfl (.pure ⟨_, rfl⟩))
    | @cons param params hparam _ ih =>
      rw [List.append_assoc]
      refine .again (P := fun round => ∃ params, round = .again params)
        (.look (.iteFalse (hparam.begins _) ((accepts_declaredParam hparam rfl).bind ?_))) ?_
        fun _ ⟨params, h⟩ => ⟨params, h, ih params⟩
      · exact fun _ _ => .look (.iteFalse rfl ((accepts_silently (accepts_mark rfl)).andThen
          (.pure ⟨_, rfl⟩)))
      · simp only [List.cons_append, List.length_append, List.length_cons]
        omega
  · intro params _
    refine (accepts_silently (accepts_mark rfl)).andThen ?_
    cases params with
    | nil => exact .iteFalse rfl (.pure trivial)
    | cons => exact .iteTrue rfl ((accepts_record _).andThen (.pure trivial))

/-- A name behind the angle and an end of the name behind it are seen as a declaration. -/
theorem accepts_seesDeclaration {c : Char} {more : List TokenTree}
    (hangle : (Expected.mark "<").begins trees = true)
    (hname : (Expected.lifetime.begins (behindFirst trees) ||
      Expected.identifier.begins (behindFirst trees)) = true)
    (hbehind : behindFirst (behindFirst trees) = ofMark c :: more) (hc : c ∈ [',', '>', ':']) :
    Accepts seesDeclaration trees (· = true) trees := by
  refine .look (.iteFalse (by simp [hangle]) (.look (.look (.look ?_))))
  -- Some beginnings are a declaration, whatever stands behind them.
  cases hdeclares : (glance (seesSecond (.mark ">")) trees ||
      glance (seesSecond (.mark "#")) trees || glance (seesSecond (.word "const")) trees) with
  | true => exact .iteTrue rfl (.pure rfl)
  | false =>
    refine .iteFalse rfl (.look (.look (.iteTrue hname ?_)))
    refine .look (.look (.look (.look (.look (.pure ?_)))))
    show ((Expected.mark ">").begins (behindFirst (behindFirst trees)) ||
      (Expected.mark ",").begins (behindFirst (behindFirst trees)) ||
      ((Expected.mark ":").begins (behindFirst (behindFirst trees)) &&
        !(Expected.mark "::").begins (behindFirst (behindFirst trees))) ||
      (Expected.mark "=").begins (behindFirst (behindFirst trees))) = true
    rw [hbehind]
    obtain rfl | rfl | rfl : c = ',' ∨ c = '>' ∨ c = ':' := by simpa using hc
    · rfl
    · rfl
    · rfl

/-- Parameters in angle brackets are seen as a declaration. -/
theorem CommaSeparated.accepts_seesDeclaration {params : List TokenTree}
    (h : CommaSeparated IsPlainParam params) :
    Accepts seesDeclaration (ofMark '<' :: (params ++ ofMark '>' :: rest)) (· = true)
      (ofMark '<' :: (params ++ ofMark '>' :: rest)) := by
  have hparam : ∀ {param more : List TokenTree} {c : Char}, IsPlainParam param →
      c ∈ [',', '>', ':'] → Accepts seesDeclaration (ofMark '<' :: (param ++ ofMark c :: more))
        (· = true) (ofMark '<' :: (param ++ ofMark c :: more)) := by
    intro param more c hparam hc
    cases hparam with
    | lifetime h =>
      cases h
      exact Grammar.accepts_seesDeclaration rfl rfl rfl hc
    | boundedLifetime h _ =>
      cases h
      exact Grammar.accepts_seesDeclaration (c := ':') rfl rfl rfl (by simp)
    | type hname => exact Grammar.accepts_seesDeclaration rfl hname rfl hc
    | boundedType hname _ =>
      exact Grammar.accepts_seesDeclaration (c := ':') rfl hname rfl (by simp)
    | const _ _ _ => exact .look (.iteFalse rfl (.look (.look (.look (.iteTrue rfl (.pure rfl))))))
  cases h with
  | nil => exact .look (.iteFalse rfl (.look (.look (.look (.iteTrue rfl (.pure rfl))))))
  | last h => exact hparam h (by simp)
  | cons h _ =>
    rw [List.append_assoc]
    exact hparam h (by simp)

/-! ### Predicates -/

/-- A predicate on a lifetime, or on a type that is a path of names. -/
inductive IsPlainPredicate : List TokenTree → Prop
  | lifetime {tokens bounds : List TokenTree} : IsLifetime tokens →
    PlusSeparated IsLifetime bounds → IsPlainPredicate (tokens ++ ofMark ':' :: bounds)
  | type {name : String} {names : List String} {bounds : List TokenTree} : IsPathHead name →
    (∀ name ∈ names, IsPathName name) → PlusSeparated IsPlainBound bounds →
    IsPlainPredicate (ofWord name :: (separated names ++ ofMark ':' :: bounds))

instance : Looks seesPredicateEnd := by
  unfold seesPredicateEnd
  infer_instance

instance : Looks seesLifetimeBoundsEnd := by
  unfold seesLifetimeBoundsEnd
  infer_instance

theorem accepts_predicate {n : Nat} (h : IsPlainPredicate trees)
    (hrest : lacks (.mark "+" :: boundGoesOn) rest = true) :
    Accepts (predicate (nonterminals (n + 1))) (trees ++ rest) (fun _ => True) rest := by
  cases h with
  | @lifetime tokens bounds h hbounds =>
    obtain @⟨name, -⟩ := h
    refine .look (.look (.iteTrue rfl
      ((accepts_lifetime name).andThen ((accepts_mark rfl).andThen ?_))))
    refine accepts_boundsUntil (P := IsLifetime) ?_ hbounds hrest
    intro phrase rest hphrase _
    obtain @⟨name, -⟩ := hphrase
    exact ⟨rfl, accepts_lifetime name⟩
  | @type name names bounds hname hnames hbounds =>
    have htype : Accepts ((nonterminals (n + 1)).type true)
        (ofWord name :: (separated names ++ ofMark ':' :: (bounds ++ rest)))
        (· = .path (plainShape (name :: names))) (ofMark ':' :: (bounds ++ rest)) :=
      accepts_type_path hname hnames rfl
    have hfor : (Expected.word "for").begins
        (ofWord name :: (separated names ++ ofMark ':' :: (bounds ++ rest))) = false :=
      hname.begins_word_eq_false (by decide) (by decide) _
    rw [List.cons_append, List.append_assoc, List.cons_append]
    refine .look (.look (.iteFalse rfl ((accepts_binder_none hfor).andThen ?_)))
    refine Accepts.bind (Q := fun _ => True) (htype.bind fun _ _ => .pure trivial) fun _ _ => ?_
    refine (accepts_mark rfl).andThen (accepts_boundsUntil (P := IsPlainBound) ?_ hbounds hrest)
    intro phrase rest hphrase hrest
    refine ⟨?_, accepts_paramBound hphrase hrest⟩
    cases hphrase with
    | lifetime h => cases h; rfl
    | trait h => cases h <;> rfl
    | relaxed h => rfl

theorem IsPlainPredicate.sees (h : IsPlainPredicate trees) (rest : List TokenTree) :
    glance seesPredicateEnd (trees ++ rest) = false ∧
      (Expected.mark "<").begins (trees ++ rest) = false := by
  cases h with
  | lifetime h _ => cases h; exact ⟨rfl, rfl⟩
  | type _ _ _ => exact ⟨rfl, rfl⟩

/-- Predicates with a comma behind each. -/
def predicateTokens (predicates : List (List TokenTree)) : List TokenTree :=
  predicates.flatMap (· ++ [ofMark ','])

/-- A where clause in front of members. -/
theorem accepts_optionalWhere {n : Nat} {predicates : List (List TokenTree)}
    {members : List TokenTree} (h : ∀ predicate ∈ predicates, IsPlainPredicate predicate) :
    Accepts (optionalWhere (nonterminals (n + 1)))
      (ofWord "where" :: (predicateTokens predicates ++ ofGroup .brace members :: rest))
      (fun _ => True) (ofGroup .brace members :: rest) := by
  refine .look (.iteTrue rfl (Accepts.bind (Q := fun _ => True) (accepts_omittedIf ?_) fun _ _ =>
    .pure trivial))
  have hdeclaration : Accepts seesDeclaration
      (predicateTokens predicates ++ ofGroup .brace members :: rest) (· = false)
      (predicateTokens predicates ++ ofGroup .brace members :: rest) := by
    refine .look (.iteTrue ?_ (.pure rfl))
    cases predicates with
    | nil => rfl
    | cons predicate predicates =>
      have hsees := (h predicate List.mem_cons_self).sees
      rw [predicateTokens, List.flatMap_cons, List.append_assoc, List.append_assoc]
      show (!(Expected.mark "<").begins _) = true
      rw [(hsees _).2]
      rfl
  refine (accepts_word "where").andThen (hdeclaration.andThen (.iteFalse rfl (Repeats.accepts ?_)))
  clear hdeclaration
  -- Behind the last predicate stands a comma, so that one more round sees the end.
  generalize ([] : List (List TokenTree)) = found
  induction predicates generalizing found with
  | nil =>
    exact .done (P := (· = .done found.reverse)) (.look (.iteTrue rfl (.pure rfl)))
      fun _ h => ⟨_, h, trivial⟩
  | cons predicate predicates ih =>
    obtain ⟨hpredicate, hpredicates⟩ := List.forall_mem_cons.1 h
    have htrees : predicateTokens (predicate :: predicates) ++ ofGroup .brace members :: rest =
        predicate ++ ofMark ',' ::
          (predicateTokens predicates ++ ofGroup .brace members :: rest) := by
      simp [predicateTokens]
    rw [htrees]
    refine .again (P := fun round => ∃ found, round = .again found)
      (.seeing (hpredicate.sees _).1 (.iteFalse rfl
        ((accepts_captured (accepts_predicate hpredicate rfl)).bind ?_))) ?_
      fun _ ⟨found, h⟩ => ⟨found, h, ih hpredicates found⟩
    · rintro ⟨_, tokens⟩ -
      exact (accepts_record tokens).andThen ((accepts_optionalMark rfl).andThen
        (.iteTrue rfl (.pure ⟨_, rfl⟩)))
    · simp only [List.length_append, List.length_cons]
      omega

/-! ### Implementations -/

/-- What an implementation of a trait begins with where the type has parameters. -/
def declaredHeader (params : List TokenTree) (trait : String) (names : List String)
    (arguments : List TokenTree) (predicates : List (List TokenTree)) : List TokenTree :=
  ofWord "impl" :: ofMark '<' :: (params ++ ofMark '>' :: ofWord trait :: ofWord "for" ::
    ofWord "crate" :: (separated names ++ ofMark '<' :: (arguments ++ ofMark '>' ::
      ofWord "where" :: predicateTokens predicates)))

theorem accepts_item_impl_declared {n : Nat} {contents : List (List TokenTree)}
    {trait last : String}
    {params arguments members : List TokenTree} {predicates : List (List TokenTree)}
    (hcontents : ∀ content ∈ contents, IsAttributeContent content)
    (hparams : CommaSeparated IsPlainParam params) (htrait : isIdentifier trait = true)
    (hnames : ∀ name ∈ names, IsPathName name) (hlast : isIdentifier last = true)
    (harguments : ArePlainArguments arguments)
    (hpredicates : ∀ predicate ∈ predicates, IsPlainPredicate predicate)
    (hinner : (Expected.mark "!").begins (behindFirst members) = false)
    (hmembers : AcceptsEach (implMember (nonterminals (n + 2))) members fun _ => True) :
    Accepts (item (nonterminals (n + 2)))
      (implTokens contents (declaredHeader params trait (names ++ [last]) arguments predicates)
        members ++ rest) (· = .unnamed) rest := by
  have hwhere := @accepts_optionalWhere rest (n + 1) _ members hpredicates
  generalize hconditions : ofWord "where" :: (predicateTokens predicates ++
    ofGroup .brace members :: rest) = conditions at hwhere
  have hangle := harguments.acceptsAngle (n := n) false conditions
  have hself : Accepts (anyType (nonterminals (n + 2))) (ofWord "crate" ::
      (separated (names ++ [last]) ++ (ofMark '<' :: (arguments ++ [ofMark '>']) ++ conditions)))
      (· = ()) conditions := by
    have hcrate : IsPathName "crate" := .inr (by decide)
    have hpath := accepts_path_angle (g := nonterminals (n + 1)) hcrate hnames hlast hangle
      (by subst hconditions; rfl)
    refine Accepts.bind (p := (nonterminals (n + 2)).type true) (accepts_type_of_path
      (.inr (by decide)) ?_ hpath (by subst hconditions; rfl)) fun _ _ => .pure rfl
    exact begins_separated rfl (fun _ => rfl) _
  have htokens : implTokens contents
      (declaredHeader params trait (names ++ [last]) arguments predicates) members ++ rest =
      attributeTokens contents ++ ofWord "impl" :: ofMark '<' :: (params ++ ofMark '>' ::
        ofWord trait :: ofWord "for" :: ofWord "crate" :: (separated (names ++ [last]) ++
          (ofMark '<' :: (arguments ++ [ofMark '>']) ++ conditions))) := by
    subst hconditions
    simp [implTokens, declaredHeader]
  rw [htokens]
  exact accepts_item_implementation hcontents htrait
    (.inr ⟨hparams.accepts_seesDeclaration, accepts_generics hparams⟩) hself hwhere hinner hmembers

end DescriptionLookup.Grammar
