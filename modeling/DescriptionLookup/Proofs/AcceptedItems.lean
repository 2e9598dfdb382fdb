import DescriptionLookup.Proofs.AcceptedStatements
import DescriptionLookup.Proofs.TextPieces

/-!
# Accepted items

Constants, implementations, imports and modules, and files of such items.
-/

namespace DescriptionLookup

/-- What a tree imports, under the path of these names. -/
def UseTree.under (names : List String) (tree : UseTree) : UseTree := names.foldr .path tree

namespace Grammar

open Grammar.Parser TokenTree

variable {g : Nonterminals} {names : List String} {name : String} {trees rest : List TokenTree}

theorem accepts_generics_none (h : (Expected.mark "<").begins trees = false) :
    Accepts (generics g) trees (· = none) trees := by
  refine .look (.iteTrue ?_ (.pure rfl))
  show (!(Expected.mark "<").begins trees) = true
  rw [h]
  rfl

theorem accepts_optionalWhere_none (h : (Expected.word "where").begins trees = false) :
    Accepts (optionalWhere g) trees (· = none) trees := .look (.iteFalse h (.pure rfl))

/-! ### Constants -/

/-- The tokens of a constant of a number type for the value of a path. -/
def constantTokens (contents : List (List TokenTree)) (name type : String) (names : List String) :
    List TokenTree :=
  attributeTokens contents ++ ofWord "const" :: ofWord name :: ofMark ':' :: ofWord type ::
    ofMark '=' :: ofWord "crate" :: (separated names ++ [ofWord "as", ofWord type, ofMark ';'])

theorem accepts_cast {n : Nat} {type : String} (hnames : ∀ name ∈ names, IsPathName name)
    (htype : isIdentifier type = true) :
    Accepts ((nonterminals (n + 3)).expression true)
      (ofWord "crate" :: (separated names ++ ofWord "as" :: ofWord type :: ofMark ';' :: rest))
      (· = .other) (ofMark ';' :: rest) := by
  have hhead : IsPathHead "crate" := .inr (by decide)
  have hpath : Accepts (pathExpression (nonterminals (n + 1)) true)
      (ofWord "crate" :: (separated names ++ ofWord "as" :: ofWord type :: ofMark ';' :: rest))
      (· = .other) (ofWord "as" :: ofWord type :: ofMark ';' :: rest) :=
    accepts_pathExpression hhead hnames rfl rfl
  have hsharp : (Expected.mark "#").begins
      (separated names ++ ofWord "as" :: ofWord type :: ofMark ';' :: rest) = false :=
    begins_separated rfl (fun _ => rfl) names
  have htrailers : Accepts (trailers (nonterminals (n + 1)) .other)
      (ofWord "as" :: ofWord type :: ofMark ';' :: rest) (· = .other)
      (castTokens [type] ++ ofMark ';' :: rest) := accepts_trailers [] (by simp) rfl rfl
  exact accepts_expression [type]
    (accepts_operand rfl (accepts_atom_of_path hhead hsharp hpath) htrailers rfl)
    (by simpa using htype) rfl rfl fun _ => rfl

/-- What begins with a constant's name is no function. -/
theorem accepts_seesFunction_const (hname : isIdentifier name = true) (behind : List TokenTree) :
    Accepts (seesFunction false) (ofWord "const" :: ofWord name :: behind) (· = false)
      (ofWord "const" :: ofWord name :: behind) := by
  have hword : ∀ text ∈ reservedWords, (Expected.word text).begins (ofWord name :: behind) = false :=
    fun text htext => begins_word_eq_false hname htext behind
  have hmid : lacks [.word "async", .word "unsafe", .word "extern"] (ofWord name :: behind) =
      true := by
    simp only [lacks, List.all_cons, hword "async" (by decide), hword "unsafe" (by decide),
      hword "extern" (by decide)]
    rfl
  exact (accepts_seesFunction ((accepts_optionalWord "const").imp fun _ _ => trivial) hmid).imp
    fun _ h => h.trans (hword "fn" (by decide))

/-- The type of a constant and its value, which is the cast of a path to that type. -/
theorem accepts_constantDeclaration {n : Nat} {type : String}
    (hnames : ∀ name ∈ names, IsPathName name) (htype : isIdentifier type = true)
    (rest : List TokenTree) :
    Accepts (constantDeclaration (nonterminals (n + 3)))
      (ofMark ':' :: ofWord type :: ofMark '=' :: ofWord "crate" ::
        (separated names ++ ofWord "as" :: ofWord type :: ofMark ';' :: rest))
      (· = ⟨false, true⟩) rest := by
  have htyped : Accepts (anyType (nonterminals (n + 3))) (ofWord type :: (separated [] ++
      ofMark '=' :: ofWord "crate" ::
        (separated names ++ ofWord "as" :: ofWord type :: ofMark ';' :: rest))) (· = ())
      (ofMark '=' :: ofWord "crate" ::
        (separated names ++ ofWord "as" :: ofWord type :: ofMark ';' :: rest)) :=
    Accepts.bind (p := (nonterminals (n + 3)).type true)
      (accepts_type_path (.inl htype) (by simp) rfl) fun _ _ => .pure rfl
  refine (accepts_generics_none rfl).andThen ((accepts_mark rfl).andThen (htyped.andThen ?_))
  refine (accepts_optionalMark rfl).andThen (.iteTrue rfl ?_)
  refine Accepts.andThen (a := ()) ((accepts_cast hnames htype).bind fun _ _ => .pure rfl) ?_
  refine (accepts_optionalWhere_none rfl).andThen ((accepts_mark rfl).andThen ?_)
  exact .pure rfl

theorem accepts_item_const {n : Nat} {contents : List (List TokenTree)} {type : String}
    (hcontents : ∀ content ∈ contents, IsAttributeContent content)
    (hname : isIdentifier name = true) (hnames : ∀ name ∈ names, IsPathName name)
    (htype : isIdentifier type = true) :
    Accepts (item (nonterminals (n + 3))) (constantTokens contents name type names ++ rest)
      (· = .named .constant name) rest := by
  have htokens : constantTokens contents name type names ++ rest =
      attributeTokens contents ++ ofWord "const" :: ofWord name :: ofMark ':' :: ofWord type ::
        ofMark '=' :: ofWord "crate" ::
          (separated names ++ ofWord "as" :: ofWord type :: ofMark ';' :: rest) := by
    simp [constantTokens]
  have hdeclaration := accepts_constantDeclaration (n := n) hnames htype rest
  rw [htokens]
  generalize (ofMark ':' :: ofWord type :: ofMark '=' :: ofWord "crate" ::
    (separated names ++ ofWord "as" :: ofWord type :: ofMark ';' :: rest) : List TokenTree) = value
    at hdeclaration ⊢
  have hconstantName : Accepts constantName (ofWord name :: value) (· = name) value := by
    refine .look (.iteTrue ?_ (accepts_anyWord name))
    show (isIdentifier name || _) = true
    rw [hname, Bool.true_or]
  refine accepts_verbatimIf ((accepts_outerAttributes hcontents rfl).bind fun _ _ => ?_)
  refine .get fun start _ => (accepts_visibility_inherited rfl).andThen ?_
  refine (accepts_seesFunction_const hname value).andThen (.iteFalse rfl ?_)
  refine .look (.iteFalse rfl (.look (.iteFalse rfl (.look (.iteFalse rfl ?_)))))
  refine (accepts_optionalWord "const").andThen (.iteTrue rfl ?_)
  exact hconstantName.andThen (hdeclaration.andThen (.pure rfl))

/-! ### Members of implementations -/

theorem accepts_body {n : Nat} {content : List TokenTree}
    (hinner : (Expected.mark "!").begins (behindFirst content) = false)
    (h : Accepts (statements (nonterminals n)) content (fun _ => True) []) :
    Accepts (body (nonterminals (n + 1))) (ofGroup .brace content :: rest) (fun _ => True)
      rest := by
  refine accepts_group ((accepts_innerAttributes hinner).andThen ?_)
  exact Accepts.bind (p := (nonterminals (n + 1)).statements) h fun _ _ => .pure trivial

/-- The tokens of the declaration of a function that answers with a text. -/
def signatureTokens (name : String) (arguments : List TokenTree) : List TokenTree :=
  ofWord "fn" :: ofWord name :: ofGroup .parenthesis arguments :: ofJoint '-' :: ofMark '>' ::
    cowTokens

/-- The tokens of such a function. -/
def functionTokens (name : String) (arguments content : List TokenTree) : List TokenTree :=
  signatureTokens name arguments ++ [ofGroup .brace content]

theorem accepts_implMember_function {n : Nat} {arguments content : List TokenTree}
    (hname : isIdentifier name = true)
    (harguments : Accepts (functionArguments (nonterminals (n + 2))) arguments (fun _ => True) [])
    (hinner : (Expected.mark "!").begins (behindFirst content) = false)
    (hcontent : Accepts (statements (nonterminals (n + 1))) content (fun _ => True) []) :
    Accepts (implMember (nonterminals (n + 2))) (functionTokens name arguments content ++ rest)
      (fun _ => True) rest := by
  have htokens : functionTokens name arguments content ++ rest =
      ofWord "fn" :: ofWord name :: ofGroup .parenthesis arguments :: ofJoint '-' :: ofMark '>' ::
        (cowTokens ++ ofGroup .brace content :: rest) := by
    simp [functionTokens, signatureTokens]
  rw [htokens]
  generalize hbehind : (ofWord name :: ofGroup .parenthesis arguments :: ofJoint '-' ::
    ofMark '>' :: (cowTokens ++ ofGroup .brace content :: rest) : List TokenTree) = behind
  have hattributes : Accepts (outerAttributes (nonterminals (n + 2)))
      (attributeTokens [] ++ ofWord "fn" :: behind) (fun _ => True) (ofWord "fn" :: behind) :=
    accepts_outerAttributes (by simp) rfl
  have hfunction : Accepts (seesFunction false) (ofWord "fn" :: behind) (· = true)
      (ofWord "fn" :: behind) :=
    accepts_seesFunction ((accepts_optionalWord_absent rfl).imp fun _ _ => trivial) rfl
  refine Accepts.bind (Q := fun _ => True) (t := rest) ?_ fun _ _ => .pure trivial
  refine accepts_verbatimIf (hattributes.bind fun _ _ => ?_)
  refine (accepts_visibility_inherited rfl).andThen (.look (.look (.iteFalse rfl ?_)))
  refine Accepts.andThen (a := false) (.pure rfl) ?_
  refine hfunction.andThen (.iteTrue rfl ?_)
  subst hbehind
  refine (accepts_signature hname harguments content).andThen ?_
  refine (accepts_optionalMark_absent rfl).andThen (.iteFalse rfl ?_)
  exact (accepts_body hinner hcontent).bind fun _ _ => .pure trivial

/-- The tokens of a type that is another name for a type. -/
def typeTokens (name type : String) : List TokenTree :=
  [ofWord "type", ofWord name, ofMark '=', ofWord type, ofMark ';']

theorem accepts_implMember_type {n : Nat} {type : String} (hname : isIdentifier name = true)
    (htype : isIdentifier type = true) :
    Accepts (implMember (nonterminals (n + 1))) (typeTokens name type ++ rest) (fun _ => True)
      rest := by
  have hattributes : Accepts (outerAttributes (nonterminals (n + 1)))
      (attributeTokens [] ++ (typeTokens name type ++ rest)) (fun _ => True)
      (typeTokens name type ++ rest) := accepts_outerAttributes (by simp) rfl
  have hfunction : Accepts (seesFunction false) (typeTokens name type ++ rest) (· = false)
      (typeTokens name type ++ rest) :=
    accepts_seesFunction ((accepts_optionalWord_absent rfl).imp fun _ _ => trivial) rfl
  have htyped : Accepts (anyType (nonterminals (n + 1)))
      (ofWord type :: (separated [] ++ ofMark ';' :: rest)) (· = ()) (ofMark ';' :: rest) :=
    Accepts.bind (p := (nonterminals (n + 1)).type true)
      (accepts_type_path (.inl htype) (by simp) rfl) fun _ _ => .pure rfl
  have hdeclaration : Accepts (typeDeclaration (nonterminals (n + 1)) .afterDefinition)
      (typeTokens name type ++ rest) (fun _ => True) rest := by
    refine (accepts_word "type").andThen ((accepts_identifier hname).andThen ?_)
    refine (accepts_generics_none rfl).andThen ?_
    refine Accepts.andThen (a := false) (.look (.iteTrue rfl (.pure rfl))) ?_
    refine Accepts.andThen (a := none) (.pure rfl) ?_
    refine (accepts_optionalMark rfl).andThen (.iteTrue rfl ?_)
    refine htyped.andThen ((accepts_optionalWhere_none rfl).andThen ?_)
    exact (accepts_mark rfl).andThen (.pure trivial)
  refine Accepts.bind (Q := fun _ => True) (t := rest) ?_ fun _ _ => .pure trivial
  refine accepts_verbatimIf (hattributes.bind fun _ _ => ?_)
  refine (accepts_visibility_inherited rfl).andThen (.look (.look (.iteFalse rfl ?_)))
  refine Accepts.andThen (a := false) (.pure rfl) ?_
  refine hfunction.andThen (.iteFalse rfl ?_)
  refine (accepts_optionalWord_absent rfl).andThen (.iteFalse rfl (.look (.iteTrue rfl ?_)))
  exact hdeclaration.bind fun _ _ => .pure trivial

/-! ### Implementations -/

/-- The tokens of an implementation with these tokens in front of its members. -/
def implTokens (contents : List (List TokenTree)) (header members : List TokenTree) :
    List TokenTree :=
  attributeTokens contents ++ (header ++ [ofGroup .brace members])

/-- What an implementation of a trait for the type of a path begins with. -/
def plainHeader (trait : String) (names : List String) : List TokenTree :=
  ofWord "impl" :: ofWord trait :: ofWord "for" :: ofWord "crate" :: separated names

theorem accepts_implBody {members : List TokenTree}
    (hinner : (Expected.mark "!").begins (behindFirst members) = false)
    (hmembers : AcceptsEach (implMember g) members fun _ => True) :
    Accepts (braces do
      let _ ← innerAttributes g
      let _ ← untilEnd (implMember g)) (ofGroup .brace members :: rest) (· = ()) rest :=
  accepts_group ((accepts_innerAttributes hinner).andThen
    ((accepts_untilEnd hmembers).bind fun _ _ => .pure rfl))

/-- An implementation is an item. -/
theorem accepts_item_of_implItem {contents : List (List TokenTree)} {found : Item}
    (hcontents : ∀ content ∈ contents, IsAttributeContent content)
    (h : Accepts (implItem g .inherited) (ofWord "impl" :: trees) (· = found) rest) :
    Accepts (item g) (attributeTokens contents ++ ofWord "impl" :: trees) (· = found) rest := by
  have hfunction : Accepts (seesFunction false) (ofWord "impl" :: trees) (· = false)
      (ofWord "impl" :: trees) :=
    accepts_seesFunction ((accepts_optionalWord_absent rfl).imp fun _ _ => trivial) rfl
  refine accepts_verbatimIf ((accepts_outerAttributes hcontents rfl).bind fun _ _ => ?_)
  refine .get fun start _ => (accepts_visibility_inherited rfl).andThen ?_
  refine hfunction.andThen (.iteFalse rfl ?_)
  refine .look (.iteFalse rfl (.look (.iteFalse rfl (.look (.iteFalse rfl ?_)))))
  refine (accepts_optionalWord_absent rfl).andThen (.iteFalse rfl ?_)
  refine .look (.iteFalse rfl (.look (.iteFalse rfl (.look (.iteFalse rfl ?_)))))
  refine .look (.iteFalse rfl (.look (.iteFalse rfl ?_)))
  refine .look (.look (.iteFalse rfl (.look (.iteFalse rfl (.look (.look (.iteFalse rfl ?_)))))))
  exact .look (.look (.look (.iteTrue rfl h)))

/-- The parameters behind `impl`, if there are any, and what stands behind them. -/
def ReadsDeclaration (g : Nonterminals) (trees behind : List TokenTree) : Prop :=
  (Accepts seesDeclaration trees (· = false) trees ∧ trees = behind) ∨
    (Accepts seesDeclaration trees (· = true) trees ∧
      Accepts (generics g) trees (fun _ => True) behind)

theorem ReadsDeclaration.accepts {β : Type} {R : β → Prop} {p : Parser β} {behind : List TokenTree}
    (h : ReadsDeclaration g trees behind) (hp : Accepts p behind R rest) :
    Accepts (do
      if ← seesDeclaration then
        let _ ← generics g
      p) trees R rest := by
  rcases h with ⟨hsees, rfl⟩ | ⟨hsees, hgenerics⟩
  · exact hsees.andThen (.iteFalse rfl hp)
  · exact hsees.andThen (.iteTrue rfl (hgenerics.bind fun _ _ => hp))

/-- An implementation of a trait, from the phrases it consists of. -/
theorem accepts_item_implementation {n : Nat} {contents : List (List TokenTree)} {trait : String}
    {self conditions members : List TokenTree}
    (hcontents : ∀ content ∈ contents, IsAttributeContent content)
    (htrait : isIdentifier trait = true)
    (hdeclaration : ReadsDeclaration (nonterminals (n + 1)) trees
      (ofWord trait :: ofWord "for" :: self))
    (hself : Accepts (anyType (nonterminals (n + 1))) self (· = ()) conditions)
    (hconditions : Accepts (optionalWhere (nonterminals (n + 1))) conditions (fun _ => True)
      (ofGroup .brace members :: rest))
    (hinner : (Expected.mark "!").begins (behindFirst members) = false)
    (hmembers : AcceptsEach (implMember (nonterminals (n + 1))) members fun _ => True) :
    Accepts (item (nonterminals (n + 1))) (attributeTokens contents ++ ofWord "impl" :: trees)
      (· = .unnamed) rest := by
  have htraitType : Accepts ((nonterminals (n + 1)).type true)
      (ofWord trait :: (separated [] ++ ofWord "for" :: self)) (· = .path (plainShape [trait]))
      (ofWord "for" :: self) := accepts_type_path (.inl htrait) (by simp) rfl
  have hconst : (Expected.word "const").begins (ofWord trait :: ofWord "for" :: self) = false :=
    begins_word_eq_false htrait (by decide) _
  refine accepts_item_of_implItem hcontents ?_
  refine (accepts_optionalWord_absent rfl).andThen ((accepts_optionalWord_absent rfl).andThen ?_)
  refine (accepts_word "impl").andThen (hdeclaration.accepts ?_)
  refine .seeing hconst (.look (.look (.iteFalse rfl ?_)))
  refine .here fun pos => .look (.look (.iteFalse rfl ?_))
  refine Accepts.andThen (a := false) (.pure rfl) (htraitType.andThen ?_)
  refine (accepts_optionalWord "for").andThen (.iteTrue rfl (hself.andThen ?_))
  refine hconditions.bind fun _ _ => ?_
  exact (accepts_implBody hinner hmembers).andThen (.iteFalse rfl (.pure rfl))

theorem accepts_item_impl {n : Nat} {contents : List (List TokenTree)} {trait : String}
    {members : List TokenTree} (hcontents : ∀ content ∈ contents, IsAttributeContent content)
    (htrait : isIdentifier trait = true) (hnames : ∀ name ∈ names, IsPathName name)
    (hinner : (Expected.mark "!").begins (behindFirst members) = false)
    (hmembers : AcceptsEach (implMember (nonterminals (n + 1))) members fun _ => True) :
    Accepts (item (nonterminals (n + 1)))
      (implTokens contents (plainHeader trait names) members ++ rest) (· = .unnamed) rest := by
  have htokens : implTokens contents (plainHeader trait names) members ++ rest =
      attributeTokens contents ++ ofWord "impl" :: ofWord trait :: ofWord "for" ::
        ofWord "crate" :: (separated names ++ ofGroup .brace members :: rest) := by
    simp [implTokens, plainHeader]
  have htype : Accepts (anyType (nonterminals (n + 1)))
      (ofWord "crate" :: (separated names ++ ofGroup .brace members :: rest)) (· = ())
      (ofGroup .brace members :: rest) :=
    Accepts.bind (p := (nonterminals (n + 1)).type true)
      (accepts_type_path (.inr (by decide)) hnames rfl) fun _ _ => .pure rfl
  rw [htokens]
  refine accepts_item_implementation hcontents htrait (.inl ⟨.look (.iteTrue rfl (.pure rfl)), rfl⟩)
    htype ((accepts_optionalWhere_none rfl).imp fun _ _ => trivial) hinner hmembers

/-! ### Imports -/

/-- A name that the path of an import may have. -/
def IsImportName (name : String) : Prop :=
  isIdentifier name = true ∨ name ∈ ["self", "super", "crate", "try"]

theorem IsImportName.isPathName (h : IsImportName name) : IsPathName name := by
  refine h.imp_right fun hname => ?_
  simp only [bareSegments, List.mem_cons] at hname ⊢
  tauto

/-- Names with `::` behind each. -/
def leading (names : List String) : List TokenTree :=
  names.flatMap fun name => [ofWord name, ofJoint ':', ofMark ':']

theorem IsImportName.sees (hname : IsImportName name) (rest : List TokenTree) :
    glance (seesAny [.identifier, .word "self", .word "super", .word "crate", .word "try"])
      (ofWord name :: rest) = true := by
  show List.any _ _ = true
  rw [List.any_eq_true]
  rcases hname with hname | hname
  · exact ⟨.identifier, by simp, hname⟩
  · refine ⟨.word name, ?_, beq_self_eq_true name⟩
    simpa [eq_comm] using hname

/-- A path leads to what is imported under it. -/
theorem accepts_useTree_under {anew : Bool} {depth : Nat} {tail : List TokenTree} {tree : UseTree}
    (hnames : ∀ name ∈ names, IsImportName name)
    (htail : ∀ anew, Accepts (useTree anew depth) tail (· = some tree) rest) :
    Accepts (useTree anew (depth + names.length)) (leading names ++ tail)
      (· = some (.under names tree)) rest := by
  induction names generalizing anew with
  | nil => exact htail anew
  | cons name names ih =>
    obtain ⟨hname, hnames⟩ := List.forall_mem_cons.1 hnames
    refine .look (.iteTrue (hname.sees _) ((accepts_anyWord name).andThen ?_))
    refine (accepts_optionalMark rfl).andThen (.iteTrue rfl ?_)
    exact (ih hnames).andThen (.pure rfl)

theorem accepts_useTree_name {anew : Bool} {depth : Nat} (hname : isIdentifier name = true)
    (hrest : lacks [.mark "::", .word "as"] rest = true) :
    Accepts (useTree anew (depth + 1)) (ofWord name :: rest) (· = some (.name name)) rest := by
  have hsees := IsImportName.sees (.inl hname) rest
  refine .look (.iteTrue hsees ((accepts_anyWord name).andThen ?_))
  refine (accepts_optionalMark_absent (begins_of_lacks hrest (by simp))).andThen (.iteFalse rfl ?_)
  refine (accepts_optionalWord_absent (begins_of_lacks hrest (by simp))).andThen (.iteFalse rfl ?_)
  exact .pure rfl

/-- Two names in braces. -/
theorem accepts_useTree_pair {anew : Bool} {depth : Nat} {first second : String}
    (hfirst : isIdentifier first = true) (hsecond : isIdentifier second = true) :
    Accepts (useTree anew (depth + 2))
      (ofGroup .brace [ofWord first, ofMark ',', ofWord second] :: rest)
      (· = some (.group [.name first, .name second])) rest := by
  have hname : ∀ {name : String} {more : List TokenTree}, isIdentifier name = true →
      lacks [.mark "::", .word "as"] more = true →
      Accepts (do
        let restarts ← if anew then optionalMark "::" else pure false
        let tree ← useTree (anew && !restarts) (depth + 1)
        return if restarts then none else tree) (ofWord name :: more) (· = some (.name name))
        more := by
    intro name more hname hmore
    cases anew with
    | true =>
      refine (accepts_optionalMark_absent rfl).andThen ?_
      exact (accepts_useTree_name hname hmore).andThen (.pure rfl)
    | false =>
      refine Accepts.andThen (a := false) (.pure rfl) ?_
      exact (accepts_useTree_name hname hmore).andThen (.pure rfl)
  have hnames : AcceptsCommas _ [ofWord first, ofMark ',', ofWord second]
      (· = [some (UseTree.name first), some (UseTree.name second)]) :=
    .cons (hname hfirst rfl) (Nat.lt_succ_self _) fun a ha =>
      .last (hname hsecond rfl) (by simp) fun b hb => by rw [ha, hb]
  refine .look (.iteFalse rfl ?_)
  refine (accepts_optionalMark_absent rfl).andThen (.iteFalse rfl (.look (.iteTrue rfl ?_)))
  exact accepts_group ((accepts_commaSeparated hnames).andThen (.pure rfl))

theorem length_leading (names : List String) : (leading names).length = 3 * names.length := by
  induction names with
  | nil => rfl
  | cons name names ih =>
    show (leading names).length + 3 = 3 * (names.length + 1)
    omega

theorem length_le_sizeAll (trees : List TokenTree) : trees.length ≤ sizeAll trees := by
  induction trees with
  | nil => exact Nat.le_refl 0
  | cons tree rest ih =>
    have hsize : 1 ≤ tree.size := by cases tree <;> simp [size]
    rw [sizeAll, List.length_cons]
    omega

/-- The tokens of an import. -/
def importTokens (absolute : Bool) (names : List String) (tail : List TokenTree) :
    List TokenTree :=
  ofWord "use" :: ((if absolute then [ofJoint ':', ofMark ':'] else []) ++
    (leading names ++ (tail ++ [ofMark ';'])))

theorem accepts_item_import {absolute : Bool} {tail : List TokenTree} {tree : UseTree}
    (depth : Nat) (hnames : ∀ name ∈ names, IsImportName name)
    (hcolons : (Expected.mark "::").begins (tail ++ ofMark ';' :: rest) = false)
    (hdepth : depth ≤ tail.length + 1)
    (htail : ∀ anew n, Accepts (useTree anew (n + depth)) (tail ++ ofMark ';' :: rest)
      (· = some tree) (ofMark ';' :: rest)) :
    Accepts (item g) (importTokens absolute names tail ++ rest)
      (· = .imports absolute (.under names tree)) rest := by
  generalize hpath : (if absolute then [ofJoint ':', ofMark ':'] else []) ++
    (leading names ++ (tail ++ ofMark ';' :: rest)) = path
  have htokens : importTokens absolute names tail ++ rest = ofWord "use" :: path := by
    rw [← hpath]
    simp [importTokens]
  have hattributes : Accepts (outerAttributes g) (attributeTokens [] ++ ofWord "use" :: path)
      (fun _ => True) (ofWord "use" :: path) := accepts_outerAttributes (by simp) rfl
  have hfunction : Accepts (seesFunction false) (ofWord "use" :: path) (· = false)
      (ofWord "use" :: path) :=
    accepts_seesFunction ((accepts_optionalWord_absent rfl).imp fun _ _ => trivial) rfl
  have habsolute : Accepts (optionalMark "::") path (· = absolute)
      (leading names ++ (tail ++ ofMark ';' :: rest)) := by
    subst hpath
    cases absolute with
    | true => exact accepts_optionalMark rfl
    | false =>
      refine accepts_optionalMark_absent ?_
      cases names with
      | nil => exact hcolons
      | cons => rfl
  have hitem : Accepts useItem (ofWord "use" :: path) (· = .imports absolute (.under names tree))
      rest := by
    refine (accepts_word "use").andThen (habsolute.andThen (.get fun s hs => ?_))
    -- A name of the path takes three trees, and one level of depth.
    obtain ⟨n, hn⟩ : ∃ n, sizeAll s.rest + 1 = n + depth + names.length := by
      have hsize := length_le_sizeAll s.rest
      rw [← length_placelessAll, hs.rest, List.length_append, List.length_append,
        length_leading] at hsize
      exact ⟨sizeAll s.rest + 1 - (depth + names.length), by omega⟩
    have htree : Accepts (useTree (!absolute) (sizeAll s.rest + 1))
        (leading names ++ (tail ++ ofMark ';' :: rest)) (· = some (.under names tree))
        (ofMark ';' :: rest) := by
      rw [hn]
      exact accepts_useTree_under hnames fun anew => htail anew n
    exact htree.andThen ((accepts_mark rfl).andThen (.pure rfl))
  rw [htokens]
  refine accepts_verbatimIf (hattributes.bind fun _ _ => ?_)
  refine .get fun start _ => (accepts_visibility_inherited rfl).andThen ?_
  refine hfunction.andThen (.iteFalse rfl ?_)
  exact .look (.iteFalse rfl (.look (.iteTrue rfl hitem)))

/-! ### Modules and files -/

/-- The tokens of a module that everybody may name. -/
def moduleTokens (contents : List (List TokenTree)) (name : String) (items : List TokenTree) :
    List TokenTree :=
  attributeTokens contents ++ [ofWord "pub", ofWord "mod", ofWord name, ofGroup .brace items]

theorem accepts_item_module {n : Nat} {contents : List (List TokenTree)} {items : List TokenTree}
    {Q : List Item → Prop} (hcontents : ∀ content ∈ contents, IsAttributeContent content)
    (hname : isIdentifier name = true)
    (hinner : (Expected.mark "!").begins (behindFirst items) = false)
    (hitems : AcceptsEach (item (nonterminals n)) items Q) :
    Accepts (item (nonterminals (n + 1))) (moduleTokens contents name items ++ rest)
      (fun found => ∃ attributes items,
        found = .inlineModule ⟨attributes, .everywhere, name⟩ items ∧
        Q items) rest := by
  generalize hbehind : (ofWord "mod" :: ofWord name :: ofGroup .brace items :: rest :
    List TokenTree) = behind
  have htokens : moduleTokens contents name items ++ rest =
      attributeTokens contents ++ ofWord "pub" :: behind := by
    rw [← hbehind]
    simp [moduleTokens]
  have hfunction : Accepts (seesFunction false) behind (· = false) behind := by
    subst hbehind
    exact accepts_seesFunction ((accepts_optionalWord_absent rfl).imp fun _ _ => trivial) rfl
  have hmodule : ∀ attributes, Accepts (moduleItem (nonterminals (n + 1)) attributes .everywhere)
      behind (fun found => ∃ attributes items,
        found = .inlineModule ⟨attributes, .everywhere, name⟩ items ∧ Q items) rest := by
    subst hbehind
    intro attributes
    refine (accepts_optionalWord_absent rfl).andThen ((accepts_word "mod").andThen ?_)
    have htry : (Expected.word "try").begins (ofWord name :: ofGroup .brace items :: rest) =
        false :=
      begins_word_eq_false hname (by decide) _
    refine .look (.iteFalse htry ((accepts_identifier hname).andThen ?_))
    refine (accepts_optionalMark_absent rfl).andThen (.iteFalse rfl (.look (.iteTrue rfl ?_)))
    refine accepts_group ((accepts_innerAttributes hinner).andThen ?_)
    have heach : Accepts (untilEnd (nonterminals (n + 1)).item) items Q [] :=
      accepts_untilEnd hitems
    exact heach.bind fun found hfound => .pure ⟨_, found, rfl, hfound⟩
  rw [htokens]
  refine accepts_verbatimIf ((accepts_outerAttributes hcontents rfl).bind fun attributes _ => ?_)
  refine .get fun start _ => (accepts_visibility_everywhere (hbehind ▸ rfl)).andThen ?_
  refine hfunction.andThen (.iteFalse rfl ?_)
  subst hbehind
  refine .look (.iteFalse rfl (.look (.iteFalse rfl (.look (.iteFalse rfl ?_)))))
  refine (accepts_optionalWord_absent rfl).andThen (.iteFalse rfl ?_)
  exact .look (.iteFalse rfl (.look (.iteTrue rfl (hmodule attributes))))

/-- A file of items without attributes of its own. -/
theorem accepts_file {n : Nat} {Q : List Item → Prop}
    (hinner : (Expected.mark "!").begins (behindFirst trees) = false)
    (hitems : AcceptsEach (item (nonterminals n)) trees Q) :
    Accepts (file (nonterminals (n + 1))) trees
      (fun source => source.attributes = [] ∧ Q source.items) [] := by
  have heach : Accepts (untilEnd (nonterminals (n + 1)).item) trees Q [] := accepts_untilEnd hitems
  refine (accepts_innerAttributes hinner).andThen ?_
  exact heach.bind fun items hQ => .pure ⟨rfl, hQ⟩

/-- What a parser accepts to the end, it reads from the trees of a text. -/
theorem readAll_of_accepts {α : Type} {p : Parser α} {Q : α → Prop} (h : Accepts p trees Q [])
    {found : List TokenTree} (hfound : placelessAll found = trees) :
    ∃ a, readAll p found = .ok a ∧ Q a := by
  obtain ⟨a, s, ha, hQ, hs⟩ := h ⟨found, .start, none, none, []⟩ ⟨hfound, rfl⟩
  have hrest : s.rest = [] := eq_nil_of_placelessAll hs.rest
  have hnothing : (s.leftover <|> leftoverOf s) = none := by
    rw [hs.leftover, leftoverOf, hrest]
    rfl
  refine ⟨a, ?_, hQ⟩
  unfold readAll
  rw [ha]
  simp only [bind, Except.bind, hnothing]
  rfl

/-- A text that begins with a comment is read as it stands. -/
theorem parseFile_eq {text : String} {more : List Char} (htext : text.toList = '/' :: more) :
    parseFile text = parseText file text := by
  have hfile : fileText text = text := by
    rw [fileText, htext]
    show String.ofList ('/' :: more) = text
    rw [← htext, String.ofList_toList]
  rw [parseFile, hfile]

/-- A text that begins with a comment is read as the file that its trees are. -/
theorem parseFile_of_cut {text : String} {more : List Char} {Q : SourceText → Prop}
    (htext : text.toList = '/' :: more) (hcut : Lexeme.Cut text.toList (lexemesAll trees))
    (htrees : placelessAll trees = trees)
    (h : ∀ n, Accepts (file (nonterminals (n + 8))) trees Q []) :
    ∃ source, parseFile text = .ok source ∧ Q source := by
  obtain ⟨found, hfound, hplaceless⟩ := exists_ofText (by rw [htext]; simp) hcut
  obtain ⟨source, hsource, hQ⟩ := readAll_of_accepts (h (8 * sizeAll found))
    (hplaceless.trans htrees)
  refine ⟨source, ?_, hQ⟩
  rw [parseFile_eq htext, parseText, hfound]
  exact hsource

end Grammar

end DescriptionLookup
