import DescriptionLookup.Proofs.Acceptance

/-!
# Accepted paths and types

Paths of names and types that are such paths, also with arguments behind the last name, in front of
whatever does not go on with them.
-/

namespace DescriptionLookup.Grammar

open Grammar.Parser TokenTree

/-! ### What does not begin here -/

/-- None of these comes next. -/
def lacks (es : List Expected) (trees : List TokenTree) : Bool := es.all fun e => !e.begins trees

theorem begins_of_lacks {es : List Expected} {trees : List TokenTree} {e : Expected}
    (h : lacks es trees = true) (he : e ∈ es) : e.begins trees = false := by
  simpa using List.all_eq_true.1 h e he

theorem lacks_of_subset {es es' : List Expected} {trees : List TokenTree}
    (h : lacks es trees = true) (hsub : es' ⊆ es) : lacks es' trees = true :=
  List.all_eq_true.2 fun e he => by simpa using begins_of_lacks h (hsub he)

variable {g : Nonterminals} {names : List String} {name : String} {trees rest : List TokenTree}

/-- A name that a path may have anywhere: an identifier, or a keyword that is a segment. -/
def IsPathName (name : String) : Prop := isIdentifier name = true ∨ name ∈ "Self" :: bareSegments

/-- A name that a path without arguments may begin with. -/
def IsPathHead (name : String) : Prop :=
  isIdentifier name = true ∨ name ∈ ["Self", "super", "self", "crate"]

theorem IsPathHead.isPathName (h : IsPathHead name) : IsPathName name :=
  h.imp_right fun h => List.mem_append_left ["try"] h

theorem IsPathName.isWord (h : IsPathName name) :
    Token.isWord name.toList = true := by
  rcases h with h | h
  · exact (Bool.and_eq_true_iff.1 h).2
  · have hall : ∀ name ∈ "Self" :: bareSegments, Token.isWord name.toList = true := by
      decide +kernel
    exact hall name h

theorem begins_word_eq_false {text : String} (hname : isIdentifier name = true)
    (htext : text ∈ reservedWords) (rest : List TokenTree) :
    (Expected.word text).begins (ofWord name :: rest) = false := by
  show (name == text) = false
  rw [beq_eq_false_iff_ne]
  rintro rfl
  simp [isIdentifier, htext] at hname

theorem begins_literal_eq_false (hname : isIdentifier name = true) (rest : List TokenTree) :
    Expected.literal.begins (ofWord name :: rest) = false := by
  show ((Expected.word "true").begins (ofWord name :: rest) ||
    (Expected.word "false").begins (ofWord name :: rest)) = false
  rw [begins_word_eq_false hname (by decide), begins_word_eq_false hname (by decide)]
  rfl

theorem any_begins_eq_false (hname : isIdentifier name = true) {texts : List String}
    (htexts : ∀ text ∈ texts, text ∈ reservedWords) (rest : List TokenTree) :
    ((texts.map Expected.word).any fun e => e.begins (ofWord name :: rest)) = false := by
  rw [List.any_map, List.any_eq_false]
  exact fun text hmem => by simp [begins_word_eq_false hname (htexts text hmem)]

theorem IsPathHead.begins_word_eq_false {text : String} (hname : IsPathHead name)
    (htext : text ∈ reservedWords) (hhead : text ∉ ["Self", "super", "self", "crate"])
    (rest : List TokenTree) : (Expected.word text).begins (ofWord name :: rest) = false := by
  rcases hname with hname | hname
  · exact Grammar.begins_word_eq_false hname htext rest
  · exact beq_eq_false_iff_ne.2 fun h => hhead (h ▸ hname)

theorem IsPathHead.any_begins {es : List Expected} (hname : IsPathHead name)
    (hes : [.identifier, .word "Self", .word "super", .word "self", .word "crate"] ⊆ es)
    (rest : List TokenTree) : (es.any fun e => e.begins (ofWord name :: rest)) = true := by
  rw [List.any_eq_true]
  rcases hname with hname | hname
  · exact ⟨.identifier, hes (by simp), hname⟩
  · refine ⟨.word name, hes ?_, beq_self_eq_true name⟩
    simpa [eq_comm] using hname

/-! ### Paths -/

theorem begins_separated {e : Expected} (h : e.begins rest = false)
    (hcolon : ∀ more, e.begins (ofJoint ':' :: more) = false) (names : List String) :
    e.begins (separated names ++ rest) = false := by
  cases names with
  | nil => exact h
  | cons => exact hcolon _

/-- What goes on with the path before it. -/
def pathGoesOn : List Expected := [.mark "::", .mark "<"]

/-- A name without arguments behind it. -/
theorem accepts_segment_bare (hname : IsPathName name)
    (hangle : (Expected.mark "<").begins trees = false)
    (hcolons : ((Expected.mark "::").begins trees &&
      (Expected.mark "<").begins (behindFirst (behindFirst trees))) = false) (inExpression : Bool) :
    Accepts (segment g inExpression) (ofWord name :: trees) (· = (name, none)) trees := by
  rcases hname with hname | hname
  · refine .look (.iteFalse (any_begins_eq_false hname (by decide) trees) ?_)
    refine .look (.iteFalse (begins_word_eq_false hname (by decide) trees) ?_)
    refine (accepts_identifier hname).andThen ?_
    refine .seeing hangle (.look (.look (.iteFalse (by simp) ?_)))
    exact .look (.look (.iteFalse hcolons (.pure rfl)))
  rcases List.mem_cons.1 hname with rfl | hname
  · refine .look (.iteFalse rfl (.look (.iteTrue rfl ?_)))
    refine (accepts_anyWord "Self").andThen ?_
    refine .seeing hangle (.look (.look (.iteFalse (by simp) ?_)))
    exact .look (.look (.iteFalse hcolons (.pure rfl)))
  · have hsees : glance (seesAny (bareSegments.map .word)) (ofWord name :: trees) = true := by
      show ((bareSegments.map Expected.word).any fun e => e.begins (ofWord name :: _)) = true
      simpa [Expected.begins] using hname
    exact .look (.iteTrue hsees ((accepts_anyWord name).andThen (.pure rfl)))

/-- Behind a name of a path stands the next one, or what does not go on with the path. -/
theorem accepts_segment (hname : IsPathName name) (hrest : lacks pathGoesOn rest = true)
    (inExpression : Bool) :
    Accepts (segment g inExpression) (ofWord name :: (separated names ++ rest)) (· = (name, none))
      (separated names ++ rest) := by
  refine accepts_segment_bare hname (begins_separated
    (begins_of_lacks hrest (by simp [pathGoesOn])) (fun _ => rfl) names) ?_ inExpression
  cases names with
  | nil =>
    have hcolons : (Expected.mark "::").begins (separated [] ++ rest) = false :=
      begins_of_lacks hrest (by simp [pathGoesOn])
    rw [hcolons, Bool.false_and]
  | cons => rfl

/-- The shape of a path without arguments. -/
def plainShape (names : List String) : PathShape := ⟨⟨false, names⟩, true, none⟩

theorem repeats_segments (hnames : ∀ name ∈ names, IsPathName name)
    (hrest : lacks pathGoesOn rest = true) (inExpression absolute : Bool) (before : List String) :
    Repeats (fun (shape : PathShape) => do
      if (← seesMark "::") && !(← seesThird (.group .parenthesis)) then
        mark "::"
        let (name, arguments) ← segment g inExpression
        return .again (shape.snoc name arguments)
      return .done shape) ⟨⟨absolute, before⟩, true, none⟩ (separated names ++ rest)
      (· = (⟨⟨absolute, before ++ names⟩, true, none⟩ : PathShape)) rest := by
  induction names generalizing before with
  | nil =>
    have hcolons : glance (seesMark "::") (separated [] ++ rest) = false :=
      begins_of_lacks (e := .mark "::") hrest (by simp [pathGoesOn])
    refine .done (P := (· = .done ⟨⟨absolute, before⟩, true, none⟩))
      (.look (.look (.iteFalse ?_ (.pure rfl)))) fun _ h => ⟨_, h, by rw [List.append_nil]⟩
    rw [hcolons, Bool.false_and]
  | cons next names ih =>
    obtain ⟨hnext, hnames⟩ := List.forall_mem_cons.1 hnames
    have hround := ih hnames (before ++ [next])
    rw [List.append_assoc] at hround
    refine .again (P := (· = .again ⟨⟨absolute, before ++ [next]⟩, true, none⟩))
      (.look (.look (.iteTrue rfl ((accepts_mark rfl).andThen ?_)))) ?_ fun _ h => ⟨_, h, hround⟩
    · exact (accepts_segment hnext hrest inExpression).andThen (.pure rfl)
    · show (separated names ++ rest).length < (separated names ++ rest).length + 3
      omega

theorem accepts_path (hname : IsPathName name) (hnames : ∀ name ∈ names, IsPathName name)
    (hrest : lacks pathGoesOn rest = true) (inExpression : Bool) :
    Accepts (path g inExpression) (ofWord name :: (separated names ++ rest))
      (· = plainShape (name :: names)) rest :=
  (accepts_optionalMark_absent rfl).andThen ((accepts_segment hname hrest inExpression).andThen
    (repeats_segments hnames hrest inExpression false [name]).accepts)

/-- A path behind a leading `::`. -/
theorem accepts_path_absolute (hname : IsPathName name) (hnames : ∀ name ∈ names, IsPathName name)
    (hrest : lacks pathGoesOn rest = true) (inExpression : Bool) :
    Accepts (path g inExpression) (separated (name :: names) ++ rest)
      (· = ⟨⟨true, name :: names⟩, true, none⟩) rest :=
  (accepts_optionalMark rfl).andThen ((accepts_segment hname hrest inExpression).andThen
    (repeats_segments hnames hrest inExpression true [name]).accepts)

theorem accepts_qualifiedPath (hname : IsPathName name) (hnames : ∀ name ∈ names, IsPathName name)
    (hrest : lacks pathGoesOn rest = true) (inExpression : Bool) :
    Accepts (qualifiedPath g inExpression) (ofWord name :: (separated names ++ rest))
      (· = some (plainShape (name :: names))) rest :=
  (accepts_optionalMark_absent rfl).andThen
    ((accepts_path hname hnames hrest inExpression).andThen (.pure rfl))

/-! ### Types -/

/-- What goes on with the type before it. -/
def typeGoesOn : List Expected := [.mark "!", .mark "+", .mark "#"] ++ pathGoesOn

/-- A phrase that is not there has no transcript. -/
theorem accepts_captured_nothing {α : Type} {p : Parser α} {a : α}
    (h : ∀ s, Faces s trees → p s = .ok (a, s)) :
    Accepts (captured p) trees (· = (a, [])) trees := by
  intro s hs
  have hp := h { s with read := [] } ⟨hs.rest, hs.leftover⟩
  exact ⟨(a, []), s, bind_eq_ok.2 ⟨s, s, rfl,
    bind_eq_ok.2 ⟨_, _, rfl, bind_eq_ok.2 ⟨a, _, hp, rfl⟩⟩⟩,
    rfl, hs⟩

theorem accepts_captured_binder (h : (Expected.word "for").begins trees = false) :
    Accepts (captured (binder g)) trees (· = (false, [])) trees := by
  refine accepts_captured_nothing fun s hs => ?_
  have hsees : seesWord "for" s = .ok (false, s) := by
    rw [Looks.eq_ok (p := seesWord "for"), hs.rest]
    exact congrArg (fun b => Except.ok (b, s)) h
  exact bind_eq_ok.2 ⟨false, s, bind_eq_ok.2 ⟨false, s, hsees, rfl⟩, rfl⟩

theorem accepts_type_of_pathType {Q : TypeShape → Prop} {plus : Bool} (hname : IsPathHead name)
    (htrees : (Expected.mark "#").begins trees = false)
    (h : Accepts (pathType g [] plus) (ofWord name :: trees) Q rest) :
    Accepts (type g plus) (ofWord name :: trees) Q rest := by
  have hword : ∀ text ∈ reservedWords, text ∉ ["Self", "super", "self", "crate"] →
      (Expected.word text).begins (ofWord name :: trees) = false :=
    fun _ htext hhead => hname.begins_word_eq_false htext hhead trees
  have hkeyword : glance (seesAny [.word "fn", .word "unsafe", .word "extern"])
      (ofWord name :: trees) = false := by
    rw [glance_seesAny]
    simp only [List.any_cons, hword "fn" (by decide) (by decide),
      hword "unsafe" (by decide) (by decide), hword "extern" (by decide) (by decide)]
    rfl
  have hpath : glance (seesAny [.identifier, .word "super", .word "self", .word "Self",
      .word "crate", .mark "::", .mark "<"]) (ofWord name :: trees) = true :=
    hname.any_begins (by simp) trees
  refine accepts_verbatimIf
    ((accepts_captured_binder (hword "for" (by decide) (by decide))).andThen ?_)
  refine .look (.iteFalse rfl ?_)
  refine .look (.iteFalse hkeyword ?_)
  refine .look (.look (.iteFalse ?_ ?_))
  · have hsecond : glance (seesSecond (.mark "#")) (ofWord name :: trees) = false := htrees
    rw [hsecond, Bool.and_false]
  exact .look (.iteTrue hpath h)

/-- A path without arguments is a type. -/
theorem accepts_type_path {plus : Bool} (hname : IsPathHead name)
    (hnames : ∀ name ∈ names, IsPathName name) (hrest : lacks typeGoesOn rest = true) :
    Accepts (type g plus) (ofWord name :: (separated names ++ rest))
      (· = .path (plainShape (name :: names))) rest := by
  have hpath : lacks pathGoesOn rest = true :=
    lacks_of_subset hrest (List.subset_append_right _ _)
  have hsharp : (Expected.mark "#").begins rest = false :=
    begins_of_lacks hrest (by simp [typeGoesOn])
  have hbang : glance (seesMark "!") rest = false :=
    begins_of_lacks (e := .mark "!") hrest (by simp [typeGoesOn])
  have hplus : glance (seesMark "+") rest = false :=
    begins_of_lacks (e := .mark "+") hrest (by simp [typeGoesOn])
  refine accepts_type_of_pathType hname (begins_separated hsharp (fun _ => rfl) names) ?_
  refine (accepts_captured (accepts_qualifiedPath hname.isPathName hnames hpath false)).bind ?_
  rintro ⟨shape, tokens⟩ rfl
  refine .look (.look (.iteFalse (by simp [hbang]) ?_))
  refine (accepts_record _).andThen (.look (.iteFalse (by simp [hplus]) (.pure rfl)))

/-! ### Arguments -/

/-- A lifetime. -/
inductive IsLifetime : List TokenTree → Prop
  | intro {name : String} : Token.isWord name.toList = true →
    IsLifetime [ofJoint '\x27', ofWord name]

/-- An argument in angle brackets: a lifetime, or a type that is a name. -/
inductive IsPlainArgument : List TokenTree → Prop
  | lifetime {tokens : List TokenTree} : IsLifetime tokens → IsPlainArgument tokens
  | type {name : String} : isIdentifier name = true → IsPlainArgument [ofWord name]

/-- Phrases of a kind with commas between them; a comma may follow the last. -/
inductive CommaSeparated (P : List TokenTree → Prop) : List TokenTree → Prop
  | nil : CommaSeparated P []
  | last {phrase : List TokenTree} : P phrase → CommaSeparated P phrase
  | cons {phrase rest : List TokenTree} : P phrase → CommaSeparated P rest →
    CommaSeparated P (phrase ++ ofMark ',' :: rest)

/-- Arguments with commas between them. -/
abbrev ArePlainArguments : List TokenTree → Prop := CommaSeparated IsPlainArgument

theorem accepts_genericArgument {n : Nat} {argument : List TokenTree}
    (h : IsPlainArgument argument)
    (hrest : lacks (.mark "=" :: .mark ":" :: typeGoesOn) rest = true) :
    Accepts (genericArgument (nonterminals (n + 1))) (argument ++ rest) (fun _ => True) rest := by
  have htype : lacks typeGoesOn rest = true :=
    lacks_of_subset hrest (List.subset_append_right [_, _] _)
  cases h with
  | lifetime h =>
    obtain @⟨name, -⟩ := h
    refine .look (.look (.iteTrue ?_ ((accepts_lifetime name).andThen (.pure trivial))))
    show (true && !(Expected.mark "+").begins rest) = true
    rw [begins_of_lacks htype (by simp [typeGoesOn])]
    rfl
  | @type name hidentifier =>
    have hliteral : glance (seesAny [.literal, .group .brace]) (ofWord name :: rest) = false := by
      rw [glance_seesAny, List.any_cons, begins_literal_eq_false hidentifier]
      rfl
    have hname : Accepts ((nonterminals (n + 1)).type true) (ofWord name :: (separated [] ++ rest))
        (· = .path (plainShape [name])) rest :=
      accepts_type_path (g := nonterminals n) (.inl hidentifier) (by simp) htype
    refine .look (.look (.iteFalse rfl ?_))
    refine .look (.iteFalse hliteral ?_)
    refine hname.andThen (.iteTrue rfl ?_)
    have hno := fun {e : Expected} (he : e ∈ _) => begins_of_lacks hrest he
    refine (accepts_optionalMark_absent (hno (by simp))).andThen (.iteFalse rfl ?_)
    refine (accepts_optionalMark_absent (hno (by simp))).andThen (.iteFalse rfl ?_)
    exact .pure trivial

theorem IsPlainArgument.begins {argument : List TokenTree} (h : IsPlainArgument argument)
    (rest : List TokenTree) : (Expected.mark ">").begins (argument ++ rest) = false := by
  cases h with
  | lifetime h => cases h; rfl
  | type => rfl

theorem accepts_angleArguments {n : Nat} {arguments : List TokenTree}
    (h : ArePlainArguments arguments) (joint : Bool) :
    Accepts (angleArguments (nonterminals (n + 1)))
      (.mark '<' joint .start :: (arguments ++ ofMark '>' :: rest)) (fun _ => True) rest := by
  refine (accepts_silently (accepts_mark rfl)).andThen ?_
  refine Accepts.bind (Q := fun _ => True) (t := ofMark '>' :: rest) (Repeats.accepts ?_) ?_
  · generalize ([] : List AngleEntry) = found
    induction h generalizing found with
    | nil =>
      exact .done (P := (· = .done found.reverse)) (.look (.iteTrue rfl (.pure rfl)))
        fun _ h => ⟨_, h, trivial⟩
    | last hargument =>
      refine .done (P := fun round => ∃ entries, round = .done entries)
        (.look (.iteFalse (hargument.begins _)
          ((accepts_captured (accepts_genericArgument hargument rfl)).bind ?_)))
        fun round ⟨entries, h⟩ => ⟨entries, h, trivial⟩
      exact fun _ _ => .look (.iteTrue rfl (.pure ⟨_, rfl⟩))
    | @cons argument arguments hargument _ ih =>
      rw [List.append_assoc]
      refine .again (P := fun round => ∃ entries, round = .again entries)
        (.look (.iteFalse (hargument.begins _)
          ((accepts_captured (accepts_genericArgument hargument rfl)).bind ?_))) ?_
        fun round ⟨entries, h⟩ => ⟨entries, h, ih entries⟩
      · exact fun _ _ => .look (.iteFalse rfl ((accepts_silently (accepts_mark rfl)).andThen
          (.pure ⟨_, rfl⟩)))
      · simp only [List.cons_append, List.length_append, List.length_cons]
        omega
  · intro entries _
    exact (accepts_silently (accepts_mark rfl)).andThen ((accepts_record _).andThen (.pure trivial))

/-- These trees are arguments in angle brackets, in front of `rest`. -/
structure AcceptsAngle (g : Nonterminals) (arguments rest : List TokenTree) : Prop where
  opens : (Expected.mark "<").begins (arguments ++ rest) = true
  compares : (Expected.mark "<=").begins (arguments ++ rest) = false
  shifts : (Expected.mark "<<=").begins (arguments ++ rest) = false
  accepts : Accepts (angleArguments g) (arguments ++ rest) (fun _ => True) rest

theorem ArePlainArguments.acceptsAngle {n : Nat} {arguments : List TokenTree}
    (h : ArePlainArguments arguments) (joint : Bool) (rest : List TokenTree) :
    AcceptsAngle (nonterminals (n + 1)) (.mark '<' joint .start :: (arguments ++ [ofMark '>']))
      rest := by
  have htrees : (.mark '<' joint .start :: (arguments ++ [ofMark '>'])) ++ rest =
      .mark '<' joint .start :: (arguments ++ ofMark '>' :: rest) := by
    simp
  -- An apostrophe may follow without a gap, but no equals sign and no second angle.
  have hshort : ∀ text, text = "<=" ∨ text = "<<=" → (Expected.mark text).begins
      (.mark '<' joint .start :: (arguments ++ ofMark '>' :: rest)) = false := by
    have hhead : arguments = [] ∨ ∃ argument more, IsPlainArgument argument ∧
        arguments = argument ++ more := by
      cases h with
      | nil => exact .inl rfl
      | last hargument => exact .inr ⟨_, [], hargument, (List.append_nil _).symm⟩
      | cons hargument _ => exact .inr ⟨_, _, hargument, rfl⟩
    intro text htext
    rcases hhead with rfl | ⟨argument, more, hargument, rfl⟩
    · rcases htext with rfl | rfl <;> cases joint <;> rfl
    · cases hargument with
      | lifetime h => cases h; rcases htext with rfl | rfl <;> cases joint <;> rfl
      | type => rcases htext with rfl | rfl <;> cases joint <;> rfl
  refine ⟨?_, ?_, ?_, ?_⟩ <;> rw [htrees]
  · cases joint <;> rfl
  · exact hshort _ (.inl rfl)
  · exact hshort _ (.inr rfl)
  · exact accepts_angleArguments h joint

section Angle

variable {arguments : List TokenTree}

theorem accepts_segment_angle (hname : isIdentifier name = true)
    (harguments : AcceptsAngle g arguments rest) :
    Accepts (segment g false) (ofWord name :: (arguments ++ rest)) (fun _ => True) rest := by
  refine .look (.iteFalse (any_begins_eq_false hname (by decide) (arguments ++ rest)) ?_)
  refine .look (.iteFalse (begins_word_eq_false hname (by decide) (arguments ++ rest)) ?_)
  refine (accepts_identifier hname).andThen ?_
  refine .seeing harguments.opens (.seeing harguments.compares (.seeing harguments.shifts ?_))
  exact .iteTrue rfl (harguments.accepts.bind fun _ _ => .pure trivial)

/-- A path whose last name has arguments. -/
theorem accepts_path_angle {last : String} (hname : IsPathName name)
    (hnames : ∀ name ∈ names, IsPathName name) (hlast : isIdentifier last = true)
    (harguments : AcceptsAngle g arguments rest) (hrest : lacks pathGoesOn rest = true) :
    Accepts (path g false) (ofWord name :: (separated (names ++ [last]) ++ (arguments ++ rest)))
      (fun _ => True) rest := by
  have hcolons : glance (seesMark "::") rest = false :=
    begins_of_lacks (e := .mark "::") hrest (by simp [pathGoesOn])
  -- Behind a name that is not the last one stands the separator in front of another name.
  have hbare : ∀ {name names}, IsPathName name → Accepts (segment g false)
      (ofWord name :: (separated (names ++ [last]) ++ (arguments ++ rest))) (· = (name, none))
      (separated (names ++ [last]) ++ (arguments ++ rest)) := by
    intro name names hname
    refine accepts_segment_bare hname ?_ ?_ false <;> cases names <;> rfl
  refine (accepts_optionalMark_absent rfl).andThen ((hbare hname).andThen (Repeats.accepts ?_))
  generalize (⟨⟨false, [name]⟩, _, _⟩ : PathShape) = shape
  induction names generalizing shape with
  | nil =>
    refine .again (P := fun round => ∃ shape, round = .again shape) (t := rest)
      (.look (.look (.iteTrue rfl ((accepts_mark rfl).andThen ?_)))) ?_ ?_
    · exact (accepts_segment_angle hlast harguments).bind fun _ _ => .pure ⟨_, rfl⟩
    · show rest.length < (arguments ++ rest).length + 3
      rw [List.length_append]
      omega
    · rintro _ ⟨shape, rfl⟩
      refine ⟨_, rfl, .done (P := fun round => ∃ shape, round = .done shape)
        (.seeing hcolons (.look (.iteFalse rfl (.pure ⟨_, rfl⟩)))) fun _ ⟨shape, h⟩ =>
          ⟨shape, h, trivial⟩⟩
  | cons next names ih =>
    obtain ⟨hnext, hnames⟩ := List.forall_mem_cons.1 hnames
    refine .again (P := fun round => ∃ shape, round = .again shape)
      (t := separated (names ++ [last]) ++ (arguments ++ rest))
      (.look (.look (.iteTrue rfl ((accepts_mark rfl).andThen ?_)))) ?_ ?_
    · exact (hbare hnext).andThen (.pure ⟨_, rfl⟩)
    · show (separated (names ++ [last]) ++ (arguments ++ rest)).length <
        (separated (names ++ [last]) ++ (arguments ++ rest)).length + 3
      omega
    · rintro _ ⟨shape, rfl⟩
      exact ⟨_, rfl, ih hnames shape⟩

theorem accepts_type_of_path {plus : Bool} (hname : IsPathHead name)
    (htrees : (Expected.mark "#").begins trees = false)
    (hpath : Accepts (path g false) (ofWord name :: trees) (fun _ => True) rest)
    (hrest : lacks typeGoesOn rest = true) :
    Accepts (type g plus) (ofWord name :: trees) (fun _ => True) rest := by
  have hbang : glance (seesMark "!") rest = false :=
    begins_of_lacks (e := .mark "!") hrest (by simp [typeGoesOn])
  have hplus : glance (seesMark "+") rest = false :=
    begins_of_lacks (e := .mark "+") hrest (by simp [typeGoesOn])
  have hqualified : Accepts (qualifiedPath g false) (ofWord name :: trees)
      (fun shape => ∃ shape', shape = some shape') rest :=
    (accepts_optionalMark_absent rfl).andThen (.iteFalse rfl
      (hpath.bind fun shape _ => .pure ⟨shape, rfl⟩))
  refine accepts_type_of_pathType hname htrees ((accepts_captured hqualified).bind ?_)
  rintro ⟨_, tokens⟩ ⟨shape, rfl⟩
  refine .look (.look (.iteFalse (by simp [hbang]) ?_))
  exact (accepts_record _).andThen (.look (.iteFalse (by simp [hplus]) (.pure trivial)))

/-- A name with arguments is a type. -/
theorem accepts_type_angle {plus : Bool} (hname : isIdentifier name = true)
    (harguments : AcceptsAngle g arguments rest) (hrest : lacks typeGoesOn rest = true) :
    Accepts (type g plus) (ofWord name :: (arguments ++ rest)) (fun _ => True) rest := by
  have hcolons : glance (seesMark "::") rest = false :=
    begins_of_lacks (e := .mark "::") hrest (by simp [typeGoesOn, pathGoesOn])
  have hsharp : (Expected.mark "#").begins (arguments ++ rest) = false := by
    have hopens := harguments.opens
    generalize arguments ++ rest = found at hopens
    rcases found with _ | ⟨_ | ⟨c, joint, pos⟩ | _ | _, more⟩
    case cons.mark =>
      by_cases hc : c = '<'
      · subst hc
        rfl
      · simp [Expected.begins, afterMarks?, Ne.symm hc] at hopens
    all_goals rfl
  refine accepts_type_of_path (.inl hname) hsharp ?_ hrest
  refine (accepts_optionalMark_absent rfl).andThen
    ((accepts_segment_angle hname harguments).bind fun _ _ => Repeats.accepts ?_)
  refine .done (P := fun round => ∃ shape, round = .done shape)
    (.seeing hcolons (.look (.iteFalse rfl (.pure ⟨_, rfl⟩)))) ?_
  rintro _ ⟨shape, h⟩
  exact ⟨shape, h, trivial⟩

end Angle

/-- The tokens of `Cow<'static, str>`. -/
def cowTokens : List TokenTree :=
  [ofWord "Cow", ofJoint '<', ofJoint '\x27', ofWord "static", ofMark ',', ofWord "str",
    ofMark '>']

theorem accepts_cow {n : Nat} {plus : Bool} (hrest : lacks typeGoesOn rest = true) :
    Accepts (type (nonterminals (n + 1)) plus) (cowTokens ++ rest) (fun _ => True) rest := by
  have hstr : isIdentifier "str" = true := by decide +kernel
  have hstatic : Token.isWord "static".toList = true := by decide +kernel
  have harguments : ArePlainArguments [ofJoint '\x27', ofWord "static", ofMark ',', ofWord "str"] :=
    .cons (IsPlainArgument.lifetime ⟨hstatic⟩) (.last (IsPlainArgument.type hstr))
  exact accepts_type_angle (by decide +kernel) (harguments.acceptsAngle true rest) hrest

end DescriptionLookup.Grammar
