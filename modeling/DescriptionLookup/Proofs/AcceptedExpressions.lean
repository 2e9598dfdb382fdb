import DescriptionLookup.Proofs.AcceptedTypes

/-!
# Accepted expressions

Attributes, visibilities and patterns, and the expressions that consist of paths, calls, methods,
invocations and casts.
-/

namespace DescriptionLookup.Grammar

open Grammar.Parser TokenTree

variable {g : Nonterminals} {names : List String} {name : String} {trees rest : List TokenTree}

/-! ### Attributes -/

/-- What may stand behind the path of an attribute: nothing, a group, or a literal behind an equals
sign. -/
inductive IsArgument : List TokenTree → Prop
  | nothing : IsArgument []
  | list (d : Delimiter) (content : List TokenTree) : IsArgument [ofGroup d content]
  | value (text : String) : IsArgument [ofMark '=', ofLiteral text]

/-- The content of the brackets of an attribute that is called by a name. -/
inductive IsAttributeContent : List TokenTree → Prop
  | named {name : String} {argument : List TokenTree} : isIdentifier name = true →
    IsArgument argument → IsAttributeContent (ofWord name :: argument)

theorem accepts_plainPath (hname : isIdentifier name = true)
    (hrest : (Expected.mark "::").begins rest = false) :
    Accepts plainPath (ofWord name :: rest) (· = Path.ofName name) rest := by
  have hsees : glance (seesAny [.identifier, .word "super", .word "self", .word "Self",
      .word "crate"]) (ofWord name :: rest) = true := by
    show List.any _ _ = true
    simp [Expected.begins, hname]
  refine (accepts_optionalMark_absent rfl).andThen ?_
  have hsegments : Accepts plainSegments (ofWord name :: rest) (· = [name]) rest :=
    Repeats.accepts (.done (P := (· = .done [name])) (.look (.iteTrue hsees
      ((accepts_anyWord name).andThen ((accepts_optionalMark_absent hrest).andThen
        (.iteFalse rfl (.pure rfl)))))) fun _ h => ⟨_, h, rfl⟩)
  exact hsegments.andThen (.pure rfl)

theorem accepts_attributeArgument {argument : List TokenTree} (h : IsArgument argument) :
    Accepts (attributeArgument g) argument (fun _ => True) [] := by
  cases h with
  | nothing => exact .look (.iteFalse rfl (.look (.look (.look (.iteFalse rfl (.pure trivial))))))
  | list d content =>
    exact .look (.iteTrue rfl ((accepts_anyGroup d content).bind fun _ _ => .pure trivial))
  | value text =>
    have honly : Accepts onlyLiteral [ofLiteral text] (fun _ => True) [] :=
      (accepts_literal text).andThen (.look (.iteTrue rfl (.pure trivial)))
    have hvalue : Accepts (attributeValue g) [ofLiteral text] (fun _ => True) [] := by
      refine .look (.iteTrue rfl (honly.attempt.bind ?_))
      rintro _ ⟨shape, rfl, -⟩
      exact .pure trivial
    refine .look (.iteFalse rfl (.look (.look (.look (.iteTrue rfl ?_)))))
    refine (accepts_mark rfl).andThen ((accepts_captured hvalue).bind fun _ _ => ?_)
    exact (accepts_record _).andThen (.pure trivial)

theorem accepts_attributeBody {content : List TokenTree} (h : IsAttributeContent content) :
    Accepts (attributeBody g) content (fun _ => True) [] := by
  obtain @⟨name, argument, hname, hargument⟩ := h
  have hcolons : (Expected.mark "::").begins argument = false := by cases hargument <;> rfl
  refine .look (.iteFalse (begins_word_eq_false hname (by decide) argument) ?_)
  refine (accepts_plainPath hname hcolons).andThen ?_
  exact (accepts_attributeArgument hargument).bind fun _ _ => .pure trivial

/-- The tokens of attributes in front of what they apply to. -/
def attributeTokens (contents : List (List TokenTree)) : List TokenTree :=
  contents.flatMap fun content => [ofMark '#', ofGroup .bracket content]

theorem accepts_outerAttributes {contents : List (List TokenTree)}
    (h : ∀ content ∈ contents, IsAttributeContent content)
    (hrest : (Expected.mark "#").begins rest = false) :
    Accepts (outerAttributes g) (attributeTokens contents ++ rest) (fun _ => True) rest := by
  refine Repeats.accepts ?_
  generalize ([] : List Attribute) = found
  induction contents generalizing found with
  | nil =>
    exact .done (P := fun round => ∃ found, round = .done found)
      (.look (.iteFalse hrest (.pure ⟨_, rfl⟩))) fun _ ⟨found, h⟩ => ⟨found, h, trivial⟩
  | cons content contents ih =>
    obtain ⟨hcontent, hcontents⟩ := List.forall_mem_cons.1 h
    refine .again (P := fun round => ∃ found, round = .again found)
      (.look (.iteTrue rfl ?_)) ?_ fun _ ⟨found, h⟩ => ⟨found, h, ih hcontents found⟩
    · have hattribute : Accepts (outerAttribute g)
          (ofMark '#' :: ofGroup .bracket content :: (attributeTokens contents ++ rest))
          (fun _ => True) (attributeTokens contents ++ rest) :=
        (accepts_mark rfl).andThen (accepts_group (accepts_attributeBody hcontent))
      exact hattribute.bind fun _ _ => .pure ⟨_, rfl⟩
    · show (attributeTokens contents ++ rest).length < (attributeTokens contents ++ rest).length + 2
      omega

theorem accepts_innerAttributes
    (htrees : (Expected.mark "!").begins (behindFirst trees) = false) :
    Accepts (innerAttributes g) trees (· = []) trees := by
  refine Repeats.accepts (.done (P := (· = .done [])) (.look (.look (.iteFalse ?_ (.pure rfl))))
    fun _ h => ⟨_, h, rfl⟩)
  show (_ && (Expected.mark "!").begins (behindFirst trees)) = false
  rw [htrees, Bool.and_false]

/-! ### Visibility -/

theorem accepts_visibility_inherited (h : (Expected.word "pub").begins trees = false) :
    Accepts visibility trees (· = .inherited) trees :=
  (accepts_optionalWord_absent h).andThen (.iteFalse rfl (.pure rfl))

theorem accepts_visibility_everywhere (h : (Expected.group .parenthesis).begins rest = false) :
    Accepts visibility (ofWord "pub" :: rest) (· = .everywhere) rest :=
  (accepts_optionalWord "pub").andThen (.iteTrue rfl (.look (.iteFalse h (.pure rfl))))


/-! ### Patterns -/

/-- What goes on with the pattern before it. -/
def patternGoesOn : List Expected :=
  [.mark "!", .mark "|", .mark "..", .mark "@", .group .brace, .group .parenthesis] ++ pathGoesOn

instance : Looks seesBar := inferInstanceAs (Looks (_ >>= _))

instance : Looks seesPathPattern := by unfold seesPathPattern; infer_instance

theorem accepts_alternatives {n : Nat} (htrees : (Expected.mark "|").begins trees = false)
    (h : Accepts (pattern (nonterminals n)) trees (fun _ => True) rest)
    (hrest : lacks patternGoesOn rest = true) :
    Accepts (alternatives (nonterminals (n + 1))) trees (fun _ => True) rest := by
  have hbar : glance seesBar rest = false := by
    show ((Expected.mark "|").begins rest && _ && _) = false
    rw [begins_of_lacks hrest (by simp [patternGoesOn])]
    rfl
  refine (accepts_optionalMark_absent htrees).andThen (h.bind fun shape _ => Repeats.accepts ?_)
  exact .done (P := fun round => ∃ shape, round = .done shape)
    (.look (.iteFalse hbar (.pure ⟨_, rfl⟩))) fun _ ⟨shape, h⟩ => ⟨shape, h, trivial⟩

theorem accepts_pattern_low_line :
    Accepts (pattern g) (ofWord "_" :: rest) (fun _ => True) rest := by
  refine .look (.iteFalse rfl ?_)
  exact (accepts_optionalWord "_").andThen (.iteTrue rfl (.pure trivial))

/-- A path from the crate root is a pattern. -/
theorem accepts_pattern_path (hnames : ∀ name ∈ names, IsPathName name)
    (hrest : lacks patternGoesOn rest = true) :
    Accepts (pattern g) (ofWord "crate" :: (separated names ++ rest)) (fun _ => True) rest := by
  have hpath : lacks pathGoesOn rest = true :=
    lacks_of_subset hrest (List.subset_append_right _ _)
  have hbang : glance (seesMark "!") rest = false :=
    begins_of_lacks (e := .mark "!") hrest (by simp [patternGoesOn])
  refine .look (.iteTrue rfl ?_)
  refine (accepts_qualifiedPath (.inr (by decide)) hnames hpath true).andThen ?_
  refine .look (.look (.iteFalse (by rw [hbang]; rfl) ?_))
  refine .look (.iteFalse (begins_of_lacks (e := .group .brace) hrest (by simp [patternGoesOn])) ?_)
  refine .look (.iteFalse
    (begins_of_lacks (e := .group .parenthesis) hrest (by simp [patternGoesOn])) ?_)
  refine .look (.iteFalse (begins_of_lacks (e := .mark "..") hrest (by simp [patternGoesOn])) ?_)
  exact .pure trivial

/-- A name is a pattern. -/
theorem accepts_pattern_name (hname : isIdentifier name = true)
    (hrest : lacks patternGoesOn rest = true) :
    Accepts (pattern g) (ofWord name :: rest) (fun _ => True) rest := by
  have hword : ∀ text ∈ reservedWords, (Expected.word text).begins (ofWord name :: rest) = false :=
    fun text htext => begins_word_eq_false hname htext rest
  have hbehind : ∀ e ∈ patternGoesOn, glance (seesSecond e) (ofWord name :: rest) = false :=
    fun e he => begins_of_lacks hrest he
  have hpath : Accepts seesPathPattern (ofWord name :: rest) (· = false) (ofWord name :: rest) := by
    refine .look (.iteTrue hname ?_)
    refine .look (.look (.look (.look (.look (.iteFalse ?_ ?_)))))
    · simp only [Bool.or_eq_false_iff]
      refine ⟨⟨⟨⟨?_, ?_⟩, ?_⟩, ?_⟩, ?_⟩ <;>
        exact hbehind _ (by simp [patternGoesOn, pathGoesOn])
    refine .look (.look (.iteFalse ?_ (.of_looks ?_)))
    · rw [glance_seesWord, hword "self" (by decide), Bool.false_and]
    · rw [glance_seesAny]
      simp only [List.any_cons, hword "Self" (by decide), hword "super" (by decide),
        hword "crate" (by decide)]
      rfl
  have hliteral : glance (seesAny [.mark "-", .literal, .word "const"]) (ofWord name :: rest) =
      false := by
    rw [glance_seesAny]
    simp only [List.any_cons, hword "const" (by decide), begins_literal_eq_false hname]
    rfl
  have hnamed : glance (seesAny [.word "ref", .word "mut", .word "self", .identifier])
      (ofWord name :: rest) = true := by
    show List.any _ _ = true
    simp [Expected.begins, hname]
  refine hpath.andThen (.iteFalse rfl ?_)
  refine (accepts_optionalWord_absent (hword "_" (by decide))).andThen (.iteFalse rfl ?_)
  refine .look (.iteFalse (hword "box" (by decide)) ?_)
  refine .look (.iteFalse hliteral ?_)
  refine .look (.iteTrue hnamed ?_)
  refine (accepts_optionalWord_absent (hword "ref" (by decide))).andThen ?_
  refine (accepts_optionalWord_absent (hword "mut" (by decide))).andThen ?_
  refine .look (.iteFalse (hword "self" (by decide)) ?_)
  refine (accepts_identifier hname).andThen ?_
  refine (accepts_optionalMark_absent (begins_of_lacks hrest (by simp [patternGoesOn]))).andThen
    (.iteFalse rfl ?_)
  exact .pure trivial


/-! ### Operands -/

/-- What goes on with the operand before it. -/
def operandGoesOn : List Expected :=
  [.group .parenthesis, .group .bracket, .mark ".", .mark "?", .mark "!", .mark "#"] ++ pathGoesOn

/-- What goes on with the expression before it. -/
def expressionGoesOn : List Expected :=
  [.mark "=", .mark "..", .word "as"] ++ binaryOperators.map fun (text, _) => .mark text

theorem accepts_seesBinary_none
    (h : lacks (binaryOperators.map fun (text, _) => .mark text) rest = true) :
    Accepts seesBinary rest (· = none) rest := by
  intro s hs
  refine ⟨_, s, rfl, List.find?_eq_none.2 ?_, hs⟩
  rintro ⟨text, precedence⟩ hop
  show ¬ (Expected.mark text).begins s.rest = true
  rw [← begins_placelessAll, hs.rest]
  simpa using begins_of_lacks (e := .mark text) h (List.mem_map.2 ⟨_, hop, rfl⟩)

instance : Looks seesAssignment := inferInstanceAs (Looks (_ >>= _))

/-- What goes on with the cast before it. -/
def castGoesOn : List Expected :=
  [.mark ".", .mark "?", .group .bracket, .group .parenthesis] ++ typeGoesOn ++
    (.mark "=" :: .mark ".." :: binaryOperators.map fun (text, _) => .mark text)

theorem accepts_castFollower?_none (hrest : lacks castGoesOn rest = true) :
    Accepts castFollower? rest (· = none) rest := by
  have hpoint : glance (seesMark ".") rest = false :=
    begins_of_lacks (e := .mark ".") hrest (by simp [castGoesOn])
  refine .seeing hpoint (.look (.iteFalse rfl ?_))
  refine .look (.iteFalse (begins_of_lacks (e := .mark "?") hrest (by simp [castGoesOn])) ?_)
  refine .look (.iteFalse (begins_of_lacks (e := .group .bracket) hrest (by simp [castGoesOn])) ?_)
  exact .look (.iteFalse (begins_of_lacks (e := .group .parenthesis) hrest (by simp [castGoesOn]))
    (.pure rfl))

/-- The tokens of casts to types that are names. -/
def castTokens (types : List String) : List TokenTree :=
  types.flatMap fun name => [ofWord "as", ofWord name]

/-- No operators follow but casts. -/
theorem accepts_operators {n : Nat} {structs : Bool} (types : List String)
    {shape : Expression.Shape}
    {base : Precedence}
    (htypes : ∀ name ∈ types, isIdentifier name = true) (hshape : isRange shape = false)
    (hrest : lacks expressionGoesOn rest = true)
    (hcast : types ≠ [] → lacks castGoesOn rest = true) :
    Accepts (operators (nonterminals (n + 1)) structs shape base) (castTokens types ++ rest)
      (· = types.foldl (fun _ _ => .other) shape) rest := by
  refine Repeats.accepts ?_
  induction types generalizing shape with
  | nil =>
    refine .done (P := (· = .done shape)) ?_ fun _ h => ⟨_, h, rfl⟩
    have hassign : glance seesAssignment rest = false := by
      show ((Expected.mark "=").begins rest && _) = false
      rw [begins_of_lacks hrest (by simp [expressionGoesOn])]
      rfl
    have hdots : glance (seesMark "..") rest = false :=
      begins_of_lacks (e := .mark "..") hrest (by simp [expressionGoesOn])
    have has : glance (seesWord "as") rest = false :=
      begins_of_lacks (e := .word "as") hrest (by simp [expressionGoesOn])
    cases shape with
    | range => cases hshape
    | _ =>
      refine (accepts_seesBinary_none
        (lacks_of_subset hrest (List.subset_append_right _ _))).andThen ?_
      refine .look (.iteFalse (by rw [hassign, Bool.and_false]) ?_)
      refine .look (.iteFalse (by rw [hdots, Bool.and_false]) ?_)
      exact .look (.iteFalse (by rw [has, Bool.and_false]) (.pure rfl))
  | cons type types ih =>
    obtain ⟨htype, htypes⟩ := List.forall_mem_cons.1 htypes
    refine .again (P := (· = .again .other)) (t := castTokens types ++ rest) ?_ ?_
      fun _ h => ⟨_, h, ih htypes rfl fun _ => hcast (by simp)⟩
    · have hbehind : lacks castGoesOn (castTokens types ++ rest) = true := by
        cases types with
        | nil => exact hcast (by simp)
        | cons => rfl
      have hname : Accepts ((nonterminals (n + 1)).type false)
          (ofWord type :: (separated [] ++ (castTokens types ++ rest)))
          (· = .path (plainShape [type])) (castTokens types ++ rest) :=
        accepts_type_path (g := nonterminals n) (.inl htype) (by simp)
          (lacks_of_subset hbehind fun _ he =>
            List.mem_append_left _ (List.mem_append_right _ he))
      have hrank : decide (base.rank ≤ Precedence.cast.rank) = true := by cases base <;> rfl
      cases shape with
      | range => cases hshape
      | _ =>
        refine (accepts_seesBinary_none rfl).andThen ?_
        refine .look (.iteFalse (Bool.and_false _) (.look (.iteFalse (Bool.and_false _) ?_)))
        refine .look (.iteTrue (by rw [hrank]; rfl) ?_)
        refine (accepts_word "as").andThen (hname.andThen ?_)
        exact (accepts_castFollower?_none hbehind).andThen (.pure rfl)
    · show (castTokens types ++ rest).length < (castTokens types ++ rest).length + 2
      omega

/-- What may follow an operand: the arguments of a call, or a method and its arguments. -/
inductive IsTrailer (g : Nonterminals) : List TokenTree → Prop
  | call {arguments : List TokenTree} : Accepts (expressions g) arguments (fun _ => True) [] →
    IsTrailer g [ofGroup .parenthesis arguments]
  | method {name : String} {arguments : List TokenTree} : isIdentifier name = true →
    Accepts (expressions g) arguments (fun _ => True) [] →
    IsTrailer g [ofMark '.', ofWord name, ofGroup .parenthesis arguments]

/-- A method and its arguments. -/
theorem accepts_behindPoint {arguments : List TokenTree} (hname : isIdentifier name = true)
    (harguments : Accepts (expressions g) arguments (fun _ => True) []) :
    Accepts (behindPoint g) (ofWord name :: ofGroup .parenthesis arguments :: rest)
      (fun _ => True) rest := by
  refine .get fun s hs => ?_
  have hnumber : numberAhead? s.rest = none := by
    obtain ⟨tree, more, hmore, htree, -⟩ := placelessAll_eq_cons hs.rest
    obtain ⟨pos, rfl⟩ := placeless_eq_word htree
    rw [hmore]
    rfl
  rw [hnumber]
  refine (accepts_optionalWord_absent (begins_word_eq_false hname (by decide) _)).andThen
    (.iteFalse rfl ?_)
  have hmember : Accepts member (ofWord name :: ofGroup .parenthesis arguments :: rest) (· = true)
      (ofGroup .parenthesis arguments :: rest) :=
    .look (.iteTrue hname ((accepts_identifier hname).andThen (.pure rfl)))
  refine hmember.andThen (.look (.iteFalse rfl (.look (.iteTrue rfl ?_))))
  exact accepts_group harguments

theorem accepts_trailers (pieces : List (List TokenTree)) {shape : Expression.Shape}
    (hpieces : ∀ piece ∈ pieces, IsTrailer g piece) (hshape : isRange shape = false)
    (hrest : lacks operandGoesOn rest = true) :
    Accepts (trailers g shape) (pieces.flatten ++ rest)
      (· = pieces.foldl (fun _ _ => .other) shape) rest := by
  refine Repeats.accepts ?_
  induction pieces generalizing shape with
  | nil =>
    have hpoint : glance (seesMark ".") rest = false :=
      begins_of_lacks (e := .mark ".") hrest (by simp [operandGoesOn])
    have hquestion : glance (seesMark "?") rest = false :=
      begins_of_lacks (e := .mark "?") hrest (by simp [operandGoesOn])
    refine .done (P := (· = .done shape)) ?_ fun _ h => ⟨_, h, rfl⟩
    refine .look (.iteFalse
      (begins_of_lacks (e := .group .parenthesis) hrest (by simp [operandGoesOn])) ?_)
    refine .seeing hpoint (.look (.iteFalse rfl ?_))
    refine .look (.iteFalse
      (begins_of_lacks (e := .group .bracket) hrest (by simp [operandGoesOn])) ?_)
    exact .seeing hquestion (.iteFalse rfl (.pure rfl))
  | cons piece pieces ih =>
    obtain ⟨hpiece, hpieces⟩ := List.forall_mem_cons.1 hpieces
    refine .again (P := (· = .again .other)) (t := pieces.flatten ++ rest) ?_ ?_
      fun _ h => ⟨_, h, ih hpieces rfl⟩
    · cases hpiece with
      | call harguments =>
        refine .look (.iteTrue rfl ?_)
        exact (accepts_group harguments).bind fun _ _ => .pure rfl
      | method hname harguments =>
        refine .look (.iteFalse rfl ?_)
        refine .look (.look (.iteTrue ?_ ?_))
        · rw [hshape]
          rfl
        refine (accepts_mark rfl).andThen ((accepts_behindPoint hname harguments).bind ?_)
        exact fun _ _ => .pure rfl
    · cases hpiece <;>
        simp only [List.flatten_cons, List.cons_append, List.nil_append, List.length_cons] <;>
        omega

/-- A path is an operand. -/
theorem accepts_atom_of_path {structs : Bool} {Q : Expression.Shape → Prop}
    (hname : IsPathHead name) (htrees : (Expected.mark "#").begins trees = false)
    (h : Accepts (pathExpression g structs) (ofWord name :: trees) Q rest) :
    Accepts (atom g structs) (ofWord name :: trees) Q rest := by
  have hword : ∀ text ∈ reservedWords, text ∉ ["Self", "super", "self", "crate"] →
      (Expected.word text).begins (ofWord name :: trees) = false :=
    fun _ htext hhead => hname.begins_word_eq_false htext hhead trees
  have hliteral : Expected.literal.begins (ofWord name :: trees) = false := by
    show ((Expected.word "true").begins (ofWord name :: trees) ||
      (Expected.word "false").begins (ofWord name :: trees)) = false
    rw [hword "true" (by decide) (by decide), hword "false" (by decide) (by decide)]
    rfl
  have hasync : Accepts seesAsyncBlock (ofWord name :: trees) (· = false)
      (ofWord name :: trees) := by
    refine .look (.iteTrue ?_ (.pure rfl))
    rw [glance_seesWord, hword "async" (by decide) (by decide)]
    rfl
  have hdeclaration : Accepts seesDeclarationBehindWord (ofWord name :: trees) (fun _ => True)
      (ofWord name :: trees) := (Accepts.lookAhead_any _).bind fun _ _ => .pure trivial
  have hclosure : Accepts seesClosure (ofWord name :: trees) (· = false)
      (ofWord name :: trees) := by
    refine .look (.iteFalse ?_ ?_)
    · rw [glance_seesAny]
      simp only [List.any_cons, hword "move" (by decide) (by decide),
        hword "static" (by decide) (by decide)]
      rfl
    refine .seeing (hword "for" (by decide) (by decide)) ?_
    refine hdeclaration.bind fun _ _ => .iteFalse rfl ?_
    refine .seeing (hword "const" (by decide) (by decide)) (.look (.iteFalse rfl ?_))
    exact .seeing (hword "async" (by decide) (by decide)) (.look (.look (.pure rfl)))
  have hpath : Accepts seesPath (ofWord name :: trees) (· = true) (ofWord name :: trees) :=
    .look (.iteTrue (hname.any_begins (by simp) trees) (.pure rfl))
  refine .look (.iteFalse hliteral ?_)
  refine hasync.andThen (.iteFalse rfl ?_)
  refine .seeing (hword "try" (by decide) (by decide)) (.look (.iteFalse rfl ?_))
  refine hclosure.andThen (.iteFalse rfl ?_)
  refine .look (.seeing htrees (.iteFalse (Bool.and_false _) ?_))
  exact hpath.andThen (.iteTrue rfl h)

theorem accepts_pathExpression {structs : Bool} (hname : IsPathHead name)
    (hnames : ∀ name ∈ names, IsPathName name) (hrest : lacks (.mark "!" :: pathGoesOn) rest = true)
    (hstructs : (structs && (Expected.group .brace).begins rest) = false) :
    Accepts (pathExpression g structs) (ofWord name :: (separated names ++ rest)) (· = .other)
      rest := by
  have hpath : lacks pathGoesOn rest = true :=
    lacks_of_subset hrest (List.subset_cons_self _ _)
  refine (accepts_qualifiedPath hname.isPathName hnames hpath true).andThen ?_
  refine .seeing (begins_of_lacks (e := .mark "!") hrest (by simp)) (.look (.iteFalse rfl ?_))
  exact .look (.iteFalse hstructs (.pure rfl))

/-- An invocation of a rule by name. -/
theorem accepts_pathExpression_invocation {structs : Bool} (hname : IsPathHead name) (d : Delimiter)
    (content : List TokenTree) :
    Accepts (pathExpression g structs) (ofWord name :: ofMark '!' :: ofGroup d content :: rest)
      (· = .invocation (d == .brace)) rest := by
  have hpath : Accepts (qualifiedPath g true)
      (ofWord name :: (separated [] ++ ofMark '!' :: ofGroup d content :: rest))
      (· = some (plainShape [name])) (ofMark '!' :: ofGroup d content :: rest) :=
    accepts_qualifiedPath hname.isPathName (by simp) rfl true
  refine hpath.andThen (.look (.look (.iteTrue rfl ?_)))
  refine (accepts_mark rfl).andThen ((accepts_anyGroup d content).bind ?_)
  rintro ⟨d', content'⟩ ⟨rfl, -⟩
  exact .pure rfl

/-- An operand without attributes and operators before it. -/
theorem accepts_operand {structs : Bool} {first shape : Expression.Shape} {mid : List TokenTree}
    (htrees : lacks [.mark "#", .mark "&", .mark "*", .mark "!", .mark "-"] trees = true)
    (hatom : Accepts (atom g structs) trees (· = first) mid)
    (htrailers : Accepts (trailers g first) mid (· = shape) rest) (hshape : isRange shape = false) :
    Accepts (operand g structs) trees (· = shape) rest := by
  have hattributes : Accepts (outerAttributes g) (attributeTokens [] ++ trees)
      (fun _ => True) trees :=
    accepts_outerAttributes (by simp) (begins_of_lacks htrees (by simp))
  refine accepts_verbatimIf (hattributes.bind fun attributes _ => ?_)
  refine (accepts_optionalMark_absent (begins_of_lacks htrees (by simp))).andThen (.iteFalse rfl ?_)
  refine .look (.iteFalse ?_ ?_)
  · simpa using ⟨begins_of_lacks (e := .mark "*") htrees (by simp),
      begins_of_lacks (e := .mark "!") htrees (by simp),
      begins_of_lacks (e := .mark "-") htrees (by simp)⟩
  refine .here fun pos => hatom.andThen (htrailers.andThen (.iteFalse ?_ (.pure rfl)))
  rw [hshape, Bool.false_and]

/-- An operand without operators around it but casts behind it is an expression. -/
theorem accepts_expression {n : Nat} {structs : Bool} (types : List String)
    {shape : Expression.Shape}
    (h : Accepts (operand (nonterminals (n + 1)) structs) trees (· = shape)
      (castTokens types ++ rest))
    (htypes : ∀ name ∈ types, isIdentifier name = true) (hshape : isRange shape = false)
    (hrest : lacks expressionGoesOn rest = true)
    (hcast : types ≠ [] → lacks castGoesOn rest = true) :
    Accepts ((nonterminals (n + 3)).expression structs) trees
      (· = types.foldl (fun _ _ => .other) shape) rest :=
  Accepts.andThen (p := (nonterminals (n + 2)).operand structs) h
    (accepts_operators types htypes hshape hrest hcast)

end DescriptionLookup.Grammar
