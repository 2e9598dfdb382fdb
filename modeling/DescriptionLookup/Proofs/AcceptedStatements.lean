import DescriptionLookup.Proofs.AcceptedExpressions

/-!
# Accepted statements and functions

A match over one name, whose arms are paths, names or a low line, each with the call of a function
behind it; constants in front of such a match; and functions that have it for a body.
-/

namespace DescriptionLookup.Grammar

open Grammar.Parser TokenTree

variable {g : Nonterminals} {names : List String} {name : String} {trees rest : List TokenTree}

theorem accepts_blockExpression?_path (hname : IsPathHead name) :
    Accepts (blockExpression? g) (ofWord name :: trees) (· = false) (ofWord name :: trees) := by
  have hword : ∀ text ∈ reservedWords, text ∉ ["Self", "super", "self", "crate"] →
      (Expected.word text).begins (ofWord name :: trees) = false :=
    fun _ htext hhead => hname.begins_word_eq_false htext hhead trees
  have hdeclaration : Accepts seesDeclarationBehindWord (ofWord name :: trees) (fun _ => True)
      (ofWord name :: trees) := (Accepts.lookAhead_any _).bind fun _ _ => .pure trivial
  refine .look (.iteFalse (hword "if" (by decide) (by decide)) ?_)
  refine .look (.iteFalse (hword "while" (by decide) (by decide)) ?_)
  refine .seeing (hword "for" (by decide) (by decide)) ?_
  refine hdeclaration.bind fun _ _ => .iteFalse rfl ?_
  refine .look (.iteFalse (hword "loop" (by decide) (by decide)) ?_)
  refine .look (.iteFalse (hword "match" (by decide) (by decide)) ?_)
  refine .seeing (hword "try" (by decide) (by decide)) (.look (.iteFalse rfl ?_))
  refine (accepts_optionalWord_absent (hword "unsafe" (by decide) (by decide))).andThen
    (.iteFalse rfl ?_)
  refine .seeing (hword "const" (by decide) (by decide)) (.look (.iteFalse rfl ?_))
  refine .look (.iteFalse rfl (.look (.iteFalse rfl ?_)))
  exact .pure rfl

/-- An operand that begins with a path is an expression that stands alone. -/
theorem accepts_standalone_path {n : Nat} {statement : Bool} {shape : Expression.Shape}
    (hname : IsPathHead name)
    (h : Accepts (operand (nonterminals (n + 2)) true) (ofWord name :: trees) (· = shape) rest)
    (hshape : isRange shape = false) (hrest : lacks expressionGoesOn rest = true) :
    Accepts (standalone (nonterminals (n + 2)) statement) (ofWord name :: trees) (· = shape)
      rest := by
  have hattributes : Accepts (outerAttributes (nonterminals (n + 2)))
      (attributeTokens [] ++ ofWord name :: trees) (fun _ => True) (ofWord name :: trees) :=
    accepts_outerAttributes (by simp) rfl
  have hoperators : Accepts ((nonterminals (n + 2)).operators true shape .jump)
      (castTokens [] ++ rest) (· = shape) rest :=
    accepts_operators (n := n) [] (by simp) hshape hrest (by simp)
  refine accepts_verbatimIf ((accepts_captured hattributes).bind ?_)
  rintro ⟨attributes, marks⟩ -
  refine .here fun pos => ?_
  refine Accepts.bind (Q := fun found => found.1 = (shape, shape)) (t := rest)
    (accepts_captured (Q := (· = (shape, shape))) ?_) ?_
  · refine (accepts_blockExpression?_path hname).andThen (.iteFalse rfl ?_)
    refine (accepts_captured h).bind ?_
    rintro ⟨_, tokens⟩ rfl
    exact (accepts_record _).andThen (hoperators.andThen (.pure rfl))
  · rintro ⟨_, tokens⟩ rfl
    exact (accepts_record _).andThen ((accepts_record _).andThen (.pure rfl))

/-- A call of a function of a type, as the whole of an arm. -/
theorem accepts_standalone_call {n : Nat} {statement : Bool} {function : String}
    {arguments : List TokenTree} (hname : isIdentifier name = true)
    (hfunction : isIdentifier function = true)
    (harguments : Accepts (expressions (nonterminals (n + 2))) arguments (fun _ => True) []) :
    Accepts (standalone (nonterminals (n + 2)) statement)
      (ofWord name ::
        (separated [function] ++ ofGroup .parenthesis arguments :: ofMark ',' :: rest))
      (· = .other) (ofMark ',' :: rest) := by
  have hpath : Accepts (pathExpression (nonterminals (n + 2)) true)
      (ofWord name ::
        (separated [function] ++ ofGroup .parenthesis arguments :: ofMark ',' :: rest))
      (· = .other) (ofGroup .parenthesis arguments :: ofMark ',' :: rest) :=
    accepts_pathExpression (.inl hname) (by simp [IsPathName, hfunction]) rfl rfl
  have htrailers : Accepts (trailers (nonterminals (n + 2)) .other)
      ([[ofGroup .parenthesis arguments]].flatten ++ ofMark ',' :: rest) (· = .other)
      (ofMark ',' :: rest) :=
    accepts_trailers [_] (by simpa using .call harguments) rfl rfl
  have hsharp : lacks [.mark "#", .mark "&", .mark "*", .mark "!", .mark "-"]
      (ofWord name ::
        (separated [function] ++ ofGroup .parenthesis arguments :: ofMark ',' :: rest))
      = true := rfl
  exact accepts_standalone_path (.inl hname)
    (accepts_operand hsharp (accepts_atom_of_path (.inl hname) rfl hpath) htrailers rfl) rfl rfl

/-- A pattern of a lookup: a path from the crate root, a name, or a low line. -/
inductive IsPattern : List TokenTree → Prop
  | path {names : List String} : (∀ name ∈ names, IsPathName name) →
    IsPattern (ofWord "crate" :: separated names)
  | name {name : String} : isIdentifier name = true → IsPattern [ofWord name]
  | any : IsPattern [ofWord "_"]

theorem IsPattern.accepts {n : Nat} {pattern : List TokenTree} (h : IsPattern pattern)
    (hrest : lacks patternGoesOn rest = true) :
    Accepts (alternatives (nonterminals (n + 1))) (pattern ++ rest) (fun _ => True) rest := by
  cases h with
  | path hnames => exact accepts_alternatives rfl (accepts_pattern_path hnames hrest) hrest
  | name hname => exact accepts_alternatives rfl (accepts_pattern_name hname hrest) hrest
  | any => exact accepts_alternatives rfl accepts_pattern_low_line hrest

/-- What an arm answers with: the call of a function of a type. -/
def callTokens (type function : String) (arguments : List TokenTree) : List TokenTree :=
  ofWord type :: (separated [function] ++ [ofGroup .parenthesis arguments])

/-- The tokens of an arm. -/
def armTokens (contents : List (List TokenTree)) (pattern answer : List TokenTree) :
    List TokenTree :=
  attributeTokens contents ++ (pattern ++ ofJoint '=' :: ofMark '>' :: (answer ++ [ofMark ',']))

theorem accepts_arm {n : Nat} {contents : List (List TokenTree)}
    {pattern arguments : List TokenTree}
    {type function : String} (hcontents : ∀ content ∈ contents, IsAttributeContent content)
    (hpattern : IsPattern pattern) (htype : isIdentifier type = true)
    (hfunction : isIdentifier function = true)
    (harguments : Accepts (expressions (nonterminals (n + 2))) arguments (fun _ => True) []) :
    Accepts (arm (nonterminals (n + 3)))
      (armTokens contents pattern (callTokens type function arguments) ++ rest) (fun _ => True)
      rest := by
  have htokens : armTokens contents pattern (callTokens type function arguments) ++ rest =
      attributeTokens contents ++ (pattern ++ ofJoint '=' :: ofMark '>' :: ofWord type ::
        (separated [function] ++ ofGroup .parenthesis arguments :: ofMark ',' :: rest)) := by
    simp [armTokens, callTokens, separated]
  have hsharp : ∀ more, (Expected.mark "#").begins (pattern ++ ofJoint '=' :: more) = false := by
    cases hpattern <;> exact fun _ => rfl
  rw [htokens]
  refine (accepts_outerAttributes hcontents (hsharp _)).bind fun _ _ => ?_
  refine (hpattern.accepts rfl).bind fun _ _ => ?_
  refine (accepts_optionalWord_absent rfl).andThen (.iteFalse rfl ((accepts_mark rfl).andThen ?_))
  refine Accepts.andThen (p := (nonterminals (n + 3)).standalone false)
    (accepts_standalone_call htype hfunction harguments) ?_
  exact .look (.iteTrue rfl ((accepts_mark rfl).imp fun _ _ => trivial))

/-! ### Arguments of calls -/

theorem accepts_expressions_of_expression {a : Expression.Shape} (hne : trees ≠ [])
    (h : Accepts (g.expression true) trees (· = a) []) :
    Accepts (expressions g) trees (fun _ => True) [] :=
  (accepts_commaSeparated (.last h hne (Q := fun _ => True) fun _ _ => trivial)).bind
    fun _ _ => .pure trivial

/-- A literal is an argument. -/
theorem accepts_expressions_literal {n : Nat} {text : String}
    (hshape : isRange (literalShape text) = false) :
    Accepts (expressions (nonterminals (n + 3))) [ofLiteral text] (fun _ => True) [] := by
  have hatom : Accepts (atom (nonterminals (n + 1)) true) [ofLiteral text] (· = literalShape text)
      [] := .look (.iteTrue rfl ((accepts_literal text).andThen (.pure rfl)))
  have hoperand : Accepts (operand (nonterminals (n + 1)) true) [ofLiteral text]
      (· = literalShape text) (castTokens [] ++ []) :=
    accepts_operand rfl hatom (accepts_trailers [] (by simp) hshape rfl) hshape
  exact accepts_expressions_of_expression (by simp)
    (accepts_expression [] hoperand (by simp) hshape rfl (by simp))

/-- The invocation of a rule is an argument. -/
theorem accepts_expressions_invocation {n : Nat} (hname : isIdentifier name = true)
    (content : List TokenTree) :
    Accepts (expressions (nonterminals (n + 3)))
      [ofWord name, ofMark '!', ofGroup .parenthesis content] (fun _ => True) [] := by
  have hatom : Accepts (atom (nonterminals (n + 1)) true)
      [ofWord name, ofMark '!', ofGroup .parenthesis content] (· = .invocation false) [] :=
    accepts_atom_of_path (.inl hname) rfl
      (accepts_pathExpression_invocation (.inl hname) .parenthesis content)
  have hoperand : Accepts (operand (nonterminals (n + 1)) true)
      [ofWord name, ofMark '!', ofGroup .parenthesis content] (· = .invocation false)
      (castTokens [] ++ []) :=
    accepts_operand rfl hatom (accepts_trailers [] (by simp) rfl rfl) rfl
  exact accepts_expressions_of_expression (by simp)
    (accepts_expression [] hoperand (by simp) rfl rfl (by simp))

/-- The call of a method of a name is an argument. -/
theorem accepts_expressions_method {n : Nat} {method : String} (hname : isIdentifier name = true)
    (hmethod : isIdentifier method = true) :
    Accepts (expressions (nonterminals (n + 3)))
      [ofWord name, ofMark '.', ofWord method, ofGroup .parenthesis []] (fun _ => True) [] := by
  have hpath : Accepts (pathExpression (nonterminals (n + 1)) true)
      (ofWord name :: (separated [] ++ [ofMark '.', ofWord method, ofGroup .parenthesis []]))
      (· = .other) [ofMark '.', ofWord method, ofGroup .parenthesis []] :=
    accepts_pathExpression (.inl hname) (by simp) rfl rfl
  have hnothing : Accepts (expressions (nonterminals (n + 1))) [] (fun _ => True) [] :=
    (accepts_commaSeparated (.nil (Q := fun _ => True) trivial)).bind fun _ _ => .pure trivial
  have htrailers : Accepts (trailers (nonterminals (n + 1)) .other)
      ([[ofMark '.', ofWord method, ofGroup .parenthesis []]].flatten ++ []) (· = .other) [] :=
    accepts_trailers [_] (by simpa using .method hmethod hnothing) rfl rfl
  have hoperand : Accepts (operand (nonterminals (n + 1)) true)
      [ofWord name, ofMark '.', ofWord method, ofGroup .parenthesis []] (· = .other)
      (castTokens [] ++ []) :=
    accepts_operand rfl (accepts_atom_of_path (.inl hname) rfl hpath) htrailers rfl
  exact accepts_expressions_of_expression (by simp)
    (accepts_expression [] hoperand (by simp) rfl rfl (by simp))

/-! ### Matches -/

/-- A name that stands for itself in front of a block. -/
theorem accepts_scrutinee {n : Nat} (hname : IsPathHead name) (content : List TokenTree) :
    Accepts ((nonterminals (n + 3)).expression false)
      (ofWord name :: ofGroup .brace content :: rest) (· = .other)
      (ofGroup .brace content :: rest) := by
  have hpath : Accepts (pathExpression (nonterminals (n + 1)) false)
      (ofWord name :: (separated [] ++ ofGroup .brace content :: rest)) (· = .other)
      (ofGroup .brace content :: rest) :=
    accepts_pathExpression hname (by simp) rfl rfl
  exact accepts_expression [] (accepts_operand rfl (accepts_atom_of_path hname rfl hpath)
    (accepts_trailers [] (by simp) rfl rfl) rfl) (by simp) rfl rfl (by simp)

theorem accepts_matchExpression {n : Nat} {arms : List TokenTree} (hname : IsPathHead name)
    (harms : AcceptsEach (arm (nonterminals (n + 3))) arms fun _ => True)
    (hinner : (Expected.mark "!").begins (behindFirst arms) = false) :
    Accepts (matchExpression (nonterminals (n + 3)))
      (ofWord "match" :: ofWord name :: ofGroup .brace arms :: rest) (fun _ => True) rest := by
  refine (accepts_word "match").andThen ((accepts_scrutinee hname arms).andThen (accepts_group ?_))
  exact (accepts_innerAttributes hinner).andThen
    ((accepts_untilEnd harms).bind fun _ _ => .pure trivial)

theorem accepts_standalone_match {n : Nat} {statement : Bool} {arms : List TokenTree}
    (hname : IsPathHead name) (harms : AcceptsEach (arm (nonterminals (n + 3))) arms fun _ => True)
    (hinner : (Expected.mark "!").begins (behindFirst arms) = false) :
    Accepts (standalone (nonterminals (n + 3)) statement)
      [ofWord "match", ofWord name, ofGroup .brace arms] (· = .block) [] := by
  generalize htrees : [ofWord name, ofGroup .brace arms] = trees
  have hattributes : Accepts (outerAttributes (nonterminals (n + 3)))
      (attributeTokens [] ++ ofWord "match" :: trees) (fun _ => True) (ofWord "match" :: trees) :=
    accepts_outerAttributes (by simp) rfl
  have hdeclaration : Accepts seesDeclarationBehindWord (ofWord "match" :: trees) (fun _ => True)
      (ofWord "match" :: trees) := (Accepts.lookAhead_any _).bind fun _ _ => .pure trivial
  have hblock : Accepts (blockExpression? (nonterminals (n + 3))) (ofWord "match" :: trees)
      (· = true) [] := by
    refine .look (.iteFalse rfl (.look (.iteFalse rfl (.look ?_))))
    refine hdeclaration.bind fun _ _ => .iteFalse rfl (.look (.iteFalse rfl ?_))
    subst htrees
    refine .look (.iteTrue rfl ?_)
    exact (accepts_matchExpression hname harms hinner).bind fun _ _ => .pure rfl
  refine accepts_verbatimIf ((accepts_captured hattributes).bind ?_)
  rintro ⟨attributes, marks⟩ -
  refine .here fun pos => ?_
  refine Accepts.bind (Q := fun found => found.1 = (Expression.Shape.block, Expression.Shape.block))
    (t := []) (accepts_captured (Q := (· = (Expression.Shape.block, Expression.Shape.block))) ?_) ?_
  · exact hblock.andThen (.iteTrue rfl (.look (.look (.look (.iteFalse rfl (.pure rfl))))))
  · rintro ⟨_, tokens⟩ rfl
    exact (accepts_record _).andThen ((accepts_record _).andThen (.pure rfl))


/-! ### Statements -/

/-- No invocation begins with a keyword. -/
theorem accepts_invocationStart_keyword (hname : name = "const" ∨ name = "match") :
    Accepts invocationStart (ofWord name :: rest) (· = .expression) (ofWord name :: rest) := by
  rintro ⟨found, close, within, leftover, read⟩ ⟨hrest, hleftover⟩
  obtain ⟨tree, more, rfl, htree, rfl⟩ := placelessAll_eq_cons hrest
  obtain ⟨pos, rfl⟩ := placeless_eq_word htree
  rcases hname with rfl | rfl <;> exact ⟨_, _, rfl, rfl, rfl, hleftover⟩

theorem accepts_seesItem_const (hname : isIdentifier name = true) :
    Accepts seesItem (ofWord "const" :: ofWord name :: rest) (· = true)
      (ofWord "const" :: ofWord name :: rest) := by
  have hword : ∀ text ∈ reservedWords,
      glance (seesSecond (.word text)) (ofWord "const" :: ofWord name :: rest) = false :=
    fun text htext => begins_word_eq_false hname htext rest
  have hconst : Accepts seesConstItem (ofWord "const" :: ofWord name :: rest) (· = true)
      (ofWord "const" :: ofWord name :: rest) := by
    refine .look (.iteFalse rfl (.look (.seeing (hword "static" (by decide)) ?_)))
    refine .seeing (hword "move" (by decide)) (.look (.iteFalse rfl ?_))
    exact .seeing (hword "async" (by decide)) (.iteFalse rfl (.pure rfl))
  refine .look (.iteFalse rfl (.look (.look (.iteFalse rfl ?_))))
  refine .look (.look (.look (.iteFalse rfl ?_)))
  exact hconst.andThen (.iteTrue rfl (.pure rfl))

theorem accepts_seesItem_match :
    Accepts seesItem (ofWord "match" :: rest) (· = false) (ofWord "match" :: rest) := by
  refine .look (.iteFalse rfl (.look (.look (.iteFalse rfl ?_))))
  refine .look (.look (.look (.iteFalse rfl ?_)))
  refine Accepts.andThen (.look (.iteTrue rfl (.pure rfl))) (.iteFalse rfl ?_)
  refine .look (.look (.iteFalse rfl (.look (.look (.look (.look (.iteFalse rfl ?_)))))))
  refine .look (.look (.iteFalse rfl (.look (.look (.iteFalse rfl ?_)))))
  exact .look (.look (.look (.pure rfl)))

/-- A constant is a statement. -/
theorem accepts_statement_const {contents : List (List TokenTree)} {Q : Item → Prop}
    {tail : List TokenTree}
    (hcontents : ∀ content ∈ contents, IsAttributeContent content)
    (hname : isIdentifier name = true)
    (hitem : Accepts g.item (attributeTokens contents ++ ofWord "const" :: ofWord name :: tail) Q
      rest) :
    Accepts (statement g) (attributeTokens contents ++ ofWord "const" :: ofWord name :: tail)
      (· = false) rest := by
  refine .get fun start hstart => ?_
  refine (accepts_outerAttributes hcontents rfl).bind fun _ _ => ?_
  refine (accepts_invocationStart_keyword (.inl rfl)).andThen ?_
  refine .look (.iteFalse rfl ((accepts_seesItem_const hname).andThen (.iteTrue rfl ?_)))
  exact .set hstart (hitem.bind fun _ _ => .pure rfl)

/-- A match at the end is a statement. -/
theorem accepts_statement_match {n : Nat} {arms : List TokenTree} (hname : IsPathHead name)
    (harms : AcceptsEach (arm (nonterminals (n + 3))) arms fun _ => True)
    (hinner : (Expected.mark "!").begins (behindFirst arms) = false) :
    Accepts (statement (nonterminals (n + 4))) [ofWord "match", ofWord name, ofGroup .brace arms]
      (· = false) [] := by
  have hattributes : Accepts (outerAttributes (nonterminals (n + 4)))
      (attributeTokens [] ++ [ofWord "match", ofWord name, ofGroup .brace arms]) (fun _ => True)
      [ofWord "match", ofWord name, ofGroup .brace arms] := accepts_outerAttributes (by simp) rfl
  refine .get fun start hstart => hattributes.bind fun _ _ => ?_
  refine (accepts_invocationStart_keyword (.inr rfl)).andThen ?_
  refine .look (.iteFalse rfl (accepts_seesItem_match.andThen (.iteFalse rfl ?_)))
  refine .set hstart (Accepts.andThen (p := (nonterminals (n + 4)).standalone true)
    (accepts_standalone_match hname harms hinner) ?_)
  exact (accepts_optionalMark_absent rfl).andThen (.iteFalse rfl (.pure rfl))


/-- Statements that others may follow, and one at the end. -/
theorem accepts_statements {α : Type} (as : List α) (tokens : α → List TokenTree)
    {last : List TokenTree} (hne : ∀ a ∈ as, tokens a ≠ [])
    (hsemicolon : ∀ a ∈ as, ∀ more, (Expected.mark ";").begins (tokens a ++ more) = false)
    (hstatement : ∀ a ∈ as, ∀ more, Accepts (statement g) (tokens a ++ more) (· = false) more)
    (hlast : last ≠ []) (hlastSemicolon : (Expected.mark ";").begins last = false)
    (hlastStatement : Accepts (statement g) last (· = false) []) :
    Accepts (statements g) (as.flatMap tokens ++ last) (fun _ => True) [] := by
  have hend : ∀ {trees : List TokenTree}, trees ≠ [] → glance atEnd trees = false := by
    intro trees htrees
    cases trees with
    | nil => exact absurd rfl htrees
    | cons => rfl
  refine Repeats.accepts ?_
  induction as with
  | nil =>
    refine .done (P := (· = .done ())) ?_ fun _ h => ⟨(), h, trivial⟩
    refine (accepts_optionalMark_absent hlastSemicolon).andThen (.iteFalse rfl ?_)
    refine .look (.iteFalse (hend hlast) (hlastStatement.andThen ?_))
    exact .look (.iteTrue rfl (.pure rfl))
  | cons a as ih =>
    obtain ⟨ha, hne⟩ := List.forall_mem_cons.1 hne
    obtain ⟨hasemicolon, hsemicolon⟩ := List.forall_mem_cons.1 hsemicolon
    obtain ⟨hastatement, hstatement⟩ := List.forall_mem_cons.1 hstatement
    rw [List.flatMap_cons, List.append_assoc]
    refine .again (P := (· = .again ())) ?_ ?_ fun _ h => ⟨(), h, ih hne hsemicolon hstatement⟩
    · refine (accepts_optionalMark_absent (hasemicolon _)).andThen (.iteFalse rfl ?_)
      refine .look (.iteFalse (hend (by simp [ha])) ((hastatement _).andThen ?_))
      exact .look (.iteFalse (hend (by simp [hlast])) (.iteFalse rfl (.pure rfl)))
    · have hpos := List.length_pos_iff.2 ha
      simp only [List.length_append]
      omega

/-! ### Functions -/

/-- Whether a function comes next is seen behind the words that may stand before `fn`. -/
theorem accepts_seesFunction {mid : List TokenTree}
    (hconst : Accepts (optionalWord "const") trees (fun _ => True) mid)
    (hmid : lacks [.word "async", .word "unsafe", .word "extern"] mid = true) :
    Accepts (seesFunction false) trees (· = (Expected.word "fn").begins mid) trees := by
  refine Accepts.bind
    (.lookAhead (Q := (· = (Expected.word "fn").begins mid)) (t := mid) ?_) ?_
  · refine hconst.bind fun _ _ => ?_
    refine (accepts_optionalWord_absent (begins_of_lacks hmid (by simp))).andThen ?_
    refine (accepts_optionalWord_absent (begins_of_lacks hmid (by simp))).andThen (.iteFalse rfl ?_)
    have hextern := begins_of_lacks (e := .word "extern") hmid (by simp)
    exact Accepts.andThen (.look (.iteFalse hextern (.pure rfl))) (.of_looks rfl)
  · rintro _ ⟨_, rfl, rfl⟩
    exact .pure rfl

/-- The receiver of a method that borrows its value. -/
theorem accepts_functionArguments_receiver :
    Accepts (functionArguments g) [ofMark '&', ofWord "self"] (fun _ => True) [] := by
  have hattributes : Accepts (outerAttributes g) (attributeTokens [] ++ [ofMark '&', ofWord "self"])
      (fun _ => True) [ofMark '&', ofWord "self"] := accepts_outerAttributes (by simp) rfl
  have hsees : Accepts seesReceiver [ofMark '&', ofWord "self"] (· = true)
      [ofMark '&', ofWord "self"] := by
    refine Accepts.bind (.lookAhead (Q := (· = true)) (t := [ofWord "self"]) ?_) ?_
    · refine (accepts_optionalMark rfl).andThen (.iteTrue rfl ?_)
      refine (accepts_optionalLifetime_absent rfl).andThen ?_
      exact (accepts_optionalWord_absent rfl).andThen (.look (.look (.pure rfl)))
    · rintro _ ⟨_, rfl, rfl⟩
      exact .pure rfl
  have hreceiver : Accepts (receiver g) [ofMark '&', ofWord "self"] (fun _ => True) [] := by
    refine (accepts_optionalMark rfl).andThen (.iteTrue rfl ?_)
    refine (accepts_optionalLifetime_absent rfl).andThen ?_
    refine (accepts_optionalWord_absent rfl).andThen (.here fun pos => ?_)
    exact (accepts_word "self").andThen (.iteFalse rfl (.pure trivial))
  have hargument : Accepts (functionArgument g) [ofMark '&', ofWord "self"]
      (fun kind => ∃ pos, kind = .receiver pos) [] := by
    refine .look (.iteFalse rfl (hsees.andThen (.iteTrue rfl ?_)))
    exact hreceiver.bind fun pos _ => .pure ⟨pos, rfl⟩
  refine Repeats.accepts (.done (P := (· = .done ())) ?_ fun _ h => ⟨(), h, trivial⟩)
  refine .look (.iteFalse rfl (hattributes.bind fun _ _ => hargument.bind ?_))
  rintro _ ⟨pos, rfl⟩
  exact .look (.look (.iteTrue rfl (.pure rfl)))

/-- An argument of a function with its type. -/
theorem accepts_functionArguments_typed {n : Nat} {type : String} (hname : isIdentifier name = true)
    (htype : isIdentifier type = true) :
    Accepts (functionArguments (nonterminals (n + 1))) [ofWord name, ofMark ':', ofWord type]
      (fun _ => True) [] := by
  have hattributes : Accepts (outerAttributes (nonterminals (n + 1)))
      (attributeTokens [] ++ [ofWord name, ofMark ':', ofWord type])
      (fun _ => True) [ofWord name, ofMark ':', ofWord type] :=
    accepts_outerAttributes (by simp) rfl
  have hword : ∀ text ∈ reservedWords,
      (Expected.word text).begins [ofWord name, ofMark ':', ofWord type] = false :=
    fun text htext => begins_word_eq_false hname htext _
  have hsees : Accepts seesReceiver [ofWord name, ofMark ':', ofWord type] (· = false)
      [ofWord name, ofMark ':', ofWord type] := by
    refine Accepts.bind
      (.lookAhead (Q := (· = false)) (t := [ofWord name, ofMark ':', ofWord type]) ?_) ?_
    · refine (accepts_optionalMark_absent rfl).andThen (.iteFalse rfl ?_)
      refine (accepts_optionalWord_absent (hword "mut" (by decide))).andThen ?_
      exact .seeing (hword "self" (by decide)) (.look (.pure rfl))
    · rintro _ ⟨_, rfl, rfl⟩
      exact .pure rfl
  have hargument : Accepts (functionArgument (nonterminals (n + 1)))
      [ofWord name, ofMark ':', ofWord type] (· = .typed) [] := by
    refine .look (.iteFalse rfl (hsees.andThen (.iteFalse rfl ?_)))
    refine .look (.look (.iteFalse (Bool.and_false _) ?_))
    refine Accepts.bind (p := (nonterminals (n + 1)).pattern) (accepts_pattern_name hname rfl)
      fun _ _ => ?_
    refine (accepts_mark rfl).andThen ((accepts_optionalMark_absent rfl).andThen (.iteFalse rfl ?_))
    have hanyType : Accepts ((nonterminals (n + 1)).type true) (ofWord type :: (separated [] ++ []))
        (· = .path (plainShape [type])) [] := accepts_type_path (.inl htype) (by simp) rfl
    exact Accepts.andThen (a := ()) (hanyType.bind fun _ _ => .pure rfl) (.pure rfl)
  refine Repeats.accepts (.done (P := (· = .done ())) ?_ fun _ h => ⟨(), h, trivial⟩)
  refine .look (.iteFalse rfl (hattributes.bind fun _ _ => hargument.andThen ?_))
  exact .look (.look (.iteTrue rfl (.pure rfl)))

/-- The declaration of a function that answers with a text. -/
theorem accepts_signature {n : Nat} {arguments : List TokenTree} (hname : isIdentifier name = true)
    (harguments : Accepts (functionArguments (nonterminals (n + 2))) arguments (fun _ => True) [])
    (body : List TokenTree) :
    Accepts (signature (nonterminals (n + 2)) false)
      (ofWord "fn" :: ofWord name :: ofGroup .parenthesis arguments :: ofJoint '-' :: ofMark '>' ::
        (cowTokens ++ ofGroup .brace body :: rest)) (· = name) (ofGroup .brace body :: rest) := by
  refine (accepts_optionalWord_absent rfl).andThen ((accepts_optionalWord_absent rfl).andThen ?_)
  refine (accepts_optionalWord_absent rfl).andThen (.iteFalse rfl ?_)
  refine Accepts.andThen (.look (.iteFalse rfl (.pure rfl))) ?_
  refine (accepts_word "fn").andThen ((accepts_identifier hname).andThen ?_)
  have hgenerics : ∀ more, Accepts (generics (nonterminals (n + 2)))
      (ofGroup .parenthesis arguments :: more) (· = none)
      (ofGroup .parenthesis arguments :: more) :=
    fun more => .look (.iteTrue rfl (.pure rfl))
  refine (hgenerics _).andThen ((accepts_openGroup harguments).bind ?_)
  rintro ⟨_, _⟩ ⟨-, rfl⟩
  have hresult : Accepts (resultType (nonterminals (n + 2)) true)
      (ofJoint '-' :: ofMark '>' :: (cowTokens ++ ofGroup .brace body :: rest)) (fun _ => True)
      (ofGroup .brace body :: rest) := by
    refine (accepts_optionalMark rfl).andThen (.iteTrue rfl ?_)
    exact Accepts.bind (p := (nonterminals (n + 2)).type true) (accepts_cow rfl)
      fun _ _ => .pure trivial
  refine hresult.bind fun _ _ => Accepts.andThen (a := none) (.look (.iteFalse rfl (.pure rfl))) ?_
  exact accepts_remember_none.andThen (.pure rfl)

end DescriptionLookup.Grammar
