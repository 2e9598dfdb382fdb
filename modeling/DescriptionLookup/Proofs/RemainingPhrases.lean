import DescriptionLookup.Proofs.RemainingTrees

/-!
# The phrases of the grammar advance

Every phrase of the grammar ends after the state it begins after. There is one instance for every
rule of the grammar. Most follow from the way their parsers are put together; where a rule goes on
by what it has read, its cases are split.

* `Nonterminals.Advance`: the phrases that contain each other advance;
* `Parser.Advances.nonterminals`: they do at every depth;
* `Parser.Advances.file`: so does a whole file.
-/

-- The rules of the grammar are long chains of choices. An instance that several branches share
-- counts once for every branch.
set_option synthInstance.maxSize 1000000000

namespace DescriptionLookup.Grammar

open Grammar.Parser TokenTree

/-- The phrases that contain each other advance. -/
class Nonterminals.Advance (g : Nonterminals) : Prop where
  expression : ∀ t structs, Advances t (g.expression structs)
  standalone : ∀ t statement, Advances t (g.standalone statement)
  operand : ∀ t structs, Advances t (g.operand structs)
  operators : ∀ t structs left base, Advances t (g.operators structs left base)
  type : ∀ t plus, Advances t (g.type plus)
  bound : ∀ t captures constants, Advances t (g.bound captures constants)
  pattern : ∀ t, Advances t g.pattern
  statements : ∀ t, Advances t g.statements
  fields : ∀ t, Advances t g.fields
  item : ∀ t, Advances t g.item

attribute [instance] Nonterminals.Advance.expression Nonterminals.Advance.standalone
  Nonterminals.Advance.operand Nonterminals.Advance.operators Nonterminals.Advance.type
  Nonterminals.Advance.bound Nonterminals.Advance.pattern Nonterminals.Advance.statements
  Nonterminals.Advance.fields Nonterminals.Advance.item

namespace Parser.Advances

variable {t : State} {g : Nonterminals} [g.Advance]

/-! ### Attributes and visibilities -/

instance : Advances t plainSegments :=
  of_repeated (fun t found => by cases found <;> infer_instance) _

instance : Advances t plainPath := by unfold plainPath; infer_instance

instance : Advances t onlyLiteral := by unfold onlyLiteral; infer_instance

instance : Advances t (attributeValue g) := by
  unfold attributeValue
  dsimp only
  refine of_bind inferInstance fun _ => of_ite (of_bind inferInstance fun found => ?_) inferInstance
  cases found <;> infer_instance

instance : Advances t (attributeArgument g) := by unfold attributeArgument; infer_instance

instance : Advances t (attributeBody g) := by unfold attributeBody; infer_instance

instance : Advances t (outerAttribute g) := by unfold outerAttribute; infer_instance

instance : Advances t (outerAttributes g) := by unfold outerAttributes; infer_instance

instance : Advances t (innerAttributes g) := by unfold innerAttributes; infer_instance

instance : Advances t restriction := by unfold restriction; infer_instance

instance : Advances t restricted? := by
  refine of_get fun s => of_bind inferInstance fun found => ?_
  cases found <;> infer_instance

instance : Advances t visibility := by
  unfold visibility
  refine of_bind inferInstance fun _ => of_ite (of_bind inferInstance fun _ => ?_) inferInstance
  refine of_ite (of_bind inferInstance fun found => ?_) inferInstance
  cases found <;> infer_instance

/-! ### Paths, parameters and bounds -/

instance : Advances t (paramBound g) := by unfold paramBound; infer_instance

instance (stops : Parser Bool) (bound : Parser Unit) [∀ t, Advances t stops]
    [∀ t, Advances t bound] : Advances t (boundsUntil stops bound) := by
  unfold boundsUntil; infer_instance

instance (attributes : List TokenTree) : Advances t (typeParam g attributes) := by
  unfold typeParam; infer_instance

instance (attributes : List TokenTree) : Advances t (lifetimeParam attributes) := by
  unfold lifetimeParam; infer_instance

instance : Advances t (block g) := by unfold block; infer_instance

instance : Advances t (constArgument g) := by unfold constArgument; infer_instance

instance (attributes : List TokenTree) : Advances t (constParam g attributes) := by
  unfold constParam; infer_instance

instance : Advances t (genericParam g) := by unfold genericParam; infer_instance

instance : Advances t (binder g) := by unfold binder; infer_instance

instance : Advances t (genericArgument g) := by
  unfold genericArgument
  refine of_bind inferInstance fun _ => of_bind inferInstance fun _ => of_ite inferInstance ?_
  refine of_bind inferInstance fun _ => of_ite inferInstance (of_bind inferInstance fun shape => ?_)
  cases shape <;> infer_instance

instance : Advances t (angleArguments g) := by unfold angleArguments; infer_instance

instance (plus : Bool) : Advances t (resultType g plus) := by unfold resultType; infer_instance

instance : Advances t (parenthesizedArguments g) := by unfold parenthesizedArguments; infer_instance

instance (inExpression : Bool) : Advances t (segment g inExpression) := by
  unfold segment; infer_instance

instance (inExpression : Bool) : Advances t (path g inExpression) := by unfold path; infer_instance

instance (inExpression : Bool) : Advances t (qualifiedPath g inExpression) := by
  unfold qualifiedPath; infer_instance

instance : Advances t capturedParam := by unfold capturedParam; infer_instance

instance : Advances t capturedParams := by unfold capturedParams; infer_instance

instance (constants : Bool) : Advances t (constModifier constants) := by
  unfold constModifier; infer_instance

instance : Advances t (traitPath g) := by
  unfold traitPath
  refine of_bind inferInstance fun found => ?_
  dsimp only
  infer_instance

instance (constants : Bool) : Advances t (traitBound g constants) := by
  unfold traitBound; infer_instance

instance (captures constants : Bool) : Advances t (bound g captures constants) := by
  unfold bound; infer_instance

instance (plus captures constants : Bool) : Advances t (boundList g plus captures constants) := by
  unfold boundList; infer_instance

/-! ### Types -/

instance : Advances t (anyType g) := by unfold anyType; infer_instance

instance (pos : Position) (plus : Bool) : Advances t (objectBounds g pos plus) := by
  unfold objectBounds; infer_instance

instance (plus : Bool) : Advances t (bareObject g plus) := by unfold bareObject; infer_instance

instance : Advances t (moreBounds g) := by unfold moreBounds; infer_instance

instance : Advances t (looseBounds g) := by unfold looseBounds; infer_instance

instance : Advances t (insideParentheses g) := by unfold insideParentheses; infer_instance

instance (plus : Bool) (inside : ParenthesizedType) :
    Advances t (behindParentheses g plus inside) := by
  unfold behindParentheses
  split <;> infer_instance

instance (plus : Bool) : Advances t (parenthesizedType g plus) := by
  unfold parenthesizedType
  refine of_bind inferInstance fun ⟨⟨inside, left⟩, tokens⟩ => ?_
  refine of_bind inferInstance fun ⟨alone, behind⟩ => of_bind inferInstance fun _ => ?_
  refine of_bind inferInstance fun _ => ?_
  cases alone <;> infer_instance

instance : Advances t convention := by unfold convention; infer_instance

instance : Advances t optionalConvention := by unfold optionalConvention; infer_instance

instance : Advances t seesName := by unfold seesName; infer_instance

instance : Advances t seesSecondColon := by unfold seesSecondColon; infer_instance

instance : Advances t seesVariadic := by unfold seesVariadic; infer_instance

instance : Advances t seesMutableSelf := by unfold seesMutableSelf; infer_instance

instance (first : Bool) : Advances t (functionTypeArgument g first) := by
  unfold functionTypeArgument; infer_instance

instance : Advances t (functionTypeArguments g) := by unfold functionTypeArguments; infer_instance

instance : Advances t (functionType g) := by unfold functionType; infer_instance

instance : Advances t builtin := by unfold builtin; infer_instance

instance (introduced : List TokenTree) (plus : Bool) :
    Advances t (pathType g introduced plus) := by
  unfold pathType
  refine of_bind inferInstance fun ⟨shape, tokens⟩ => ?_
  cases shape <;> infer_instance

instance (introduced : List TokenTree) (plus : Bool) :
    Advances t (typeBehind g introduced plus) := by
  unfold typeBehind; infer_instance

instance (plus : Bool) : Advances t (type g plus) := by unfold type; infer_instance

/-! ### Generic parameters and where clauses -/

instance : Advances t seesDeclaration := by unfold seesDeclaration; infer_instance

instance : Advances t seesDeclarationBehindWord := by
  unfold seesDeclarationBehindWord; infer_instance

instance : Advances t (declaredParam g) := by unfold declaredParam; infer_instance

instance : Advances t (generics g) := by unfold generics; infer_instance

instance : Advances t seesPredicateEnd := by unfold seesPredicateEnd; infer_instance

instance : Advances t seesLifetimeBoundsEnd := by unfold seesLifetimeBoundsEnd; infer_instance

instance : Advances t (predicate g) := by unfold predicate; infer_instance

instance : Advances t (whereClause g) := by unfold whereClause; infer_instance

instance : Advances t (optionalWhere g) := by unfold optionalWhere; infer_instance

/-! ### Patterns -/

instance : Advances t seesBar := by unfold seesBar; infer_instance

instance : Advances t (alternatives g) := by unfold alternatives; infer_instance

instance : Advances t (alternativesList g) := by unfold alternativesList; infer_instance

instance : Advances t rangeDots := by unfold rangeDots; infer_instance

instance : Advances t patternDots := by unfold patternDots; infer_instance

instance : Advances t seesRangeStop := by unfold seesRangeStop; infer_instance

instance : Advances t (rangeEnd g) := by unfold rangeEnd; infer_instance

instance : Advances t (rangeFromDots g) := by unfold rangeFromDots; infer_instance

instance : Advances t (rangeWithoutBeginning g) := by unfold rangeWithoutBeginning; infer_instance

instance (pos : Position) (text : List Char) : Advances t (recordIndex pos text) := by
  unfold recordIndex
  split <;> infer_instance

theorem suffix_of_numberAhead? {trees rest : List TokenTree} {text : List Char}
    (h : numberAhead? trees = some (text, rest)) : rest <:+ trees := by
  unfold numberAhead? at h
  split at h
  · split at h <;> cases h
    exact List.suffix_cons _ _
  · split at h <;> cases h
    exact suffix_cons_cons _ _ _
  · cases h

instance : Advances t member := by
  unfold member
  refine of_bind inferInstance fun _ => of_ite inferInstance (of_get fun s => ?_)
  split
  · next hnumber =>
    have := advances_goOn (suffix_of_numberAhead? hnumber)
    infer_instance
  · infer_instance

instance : Advances t (fieldPattern g) := by unfold fieldPattern; infer_instance

instance : Advances t (fieldPatterns g) := by unfold fieldPatterns; infer_instance

instance : Advances t (pathPattern g) := by unfold pathPattern; infer_instance

instance : Advances t (namePattern g) := by unfold namePattern; infer_instance

instance : Advances t (tuplePattern g) := by unfold tuplePattern; infer_instance

instance : Advances t (slicePatterns g) := by
  have hpattern : ∀ t, Advances t (do
      match ← alternatives g with
      | .range (some pos) => complainAt pos .rangeInSlice
      | _ => pure () : Parser Unit) := by
    refine fun t => of_bind inferInstance fun shape => ?_
    split <;> infer_instance
  unfold slicePatterns
  infer_instance

instance : Advances t seesPathPattern := by unfold seesPathPattern; infer_instance

instance : Advances t (pattern g) := by unfold pattern; infer_instance

/-! ### Expressions -/

instance : Advances t (anyExpression g) := by unfold anyExpression; infer_instance

instance : Advances t seesBinary := by unfold seesBinary; infer_instance

instance : Advances t seesAssignment := by unfold seesAssignment; infer_instance

instance : Advances t nextPrecedence := by
  unfold nextPrecedence
  refine of_bind inferInstance fun found => ?_
  cases found <;> infer_instance

instance (structs : Bool) (precedence : Precedence) :
    Advances t (rightOperand g structs precedence) := by
  unfold rightOperand; infer_instance

instance (structs : Bool) : Advances t (seesOpenEnd structs) := by
  unfold seesOpenEnd; infer_instance

instance (structs : Bool) : Advances t (rangeTail g structs) := by unfold rangeTail; infer_instance

instance : Advances t castFollower? := by unfold castFollower?; infer_instance

instance (structs : Bool) (left : Expression.Shape) (base : Precedence) :
    Advances t (operators g structs left base) := by
  refine of_repeated (fun t left => ?_) _
  dsimp only
  split
  · infer_instance
  refine of_bind inferInstance fun found => ?_
  obtain _ | ⟨text, precedence⟩ := found
  · have hcast : Advances t (do
        word "as"
        let _ ← g.type false
        if let some follower ← castFollower? then complain (.castFollowedBy follower)
        return .again .other : Parser (Round Expression.Shape Expression.Shape)) := by
      refine of_bind inferInstance fun _ => of_bind inferInstance fun _ => ?_
      refine of_bind inferInstance fun follower => ?_
      cases follower <;> infer_instance
    infer_instance
  · refine of_ite inferInstance ?_
    split <;> infer_instance

instance : Advances t seesExpression := by unfold seesExpression; infer_instance

instance : Advances t (ifExpression g) := by unfold ifExpression; infer_instance

instance : Advances t (whileLoop g) := by unfold whileLoop; infer_instance

instance : Advances t (forLoop g) := by unfold forLoop; infer_instance

instance : Advances t (endlessLoop g) := by unfold endlessLoop; infer_instance

instance : Advances t (labeled g) := by unfold labeled; infer_instance

instance : Advances t (arm g) := by
  have hbody : ∀ t, Advances t (do
      match ← g.standalone false with
      | .block =>
        let _ ← optionalMark ","
      | _ => if !(← atEnd) then mark "," : Parser Unit) := by
    refine fun t => of_bind inferInstance fun shape => ?_
    cases shape <;> infer_instance
  unfold arm
  infer_instance

instance : Advances t (matchExpression g) := by unfold matchExpression; infer_instance

instance (structs : Bool) : Advances t (breakExpression g structs) := by
  unfold breakExpression; infer_instance

instance (text : String) : Advances t (withOperand g text) := by unfold withOperand; infer_instance

instance : Advances t (closureArgument g) := by unfold closureArgument; infer_instance

instance (structs : Bool) : Advances t (closure g structs) := by unfold closure; infer_instance

instance : Advances t (fieldValue g) := by unfold fieldValue; infer_instance

instance : Advances t (fieldValues g) := by unfold fieldValues; infer_instance

instance (structs : Bool) : Advances t (pathExpression g structs) := by
  unfold pathExpression; infer_instance

instance : Advances t (expressions g) := by unfold expressions; infer_instance

instance : Advances t (arrayExpression g) := by unfold arrayExpression; infer_instance

instance : Advances t seesClosure := by unfold seesClosure; infer_instance

instance : Advances t seesAsyncBlock := by unfold seesAsyncBlock; infer_instance

instance : Advances t seesPath := by unfold seesPath; infer_instance

instance (structs : Bool) : Advances t (atom g structs) := by unfold atom; infer_instance

instance (text : List Char) (pos : Position) : Advances t (joinedIndices text pos) := by
  refine of_bind (of_repeatUpTo (fun t numbers => ?_) _ _) inferInstance
  split <;> infer_instance

instance : Advances t (memberOrCall g) := by unfold memberOrCall; infer_instance

instance : Advances t (behindPoint g) := by
  refine of_get fun s => ?_
  split
  · next hnumber =>
    have := advances_goOn (suffix_of_numberAhead? hnumber)
    infer_instance
  · infer_instance

instance (first : Expression.Shape) : Advances t (trailers g first) := by
  unfold trailers; infer_instance

instance (structs : Bool) : Advances t (operand g structs) := by unfold operand; infer_instance

instance (structs : Bool) : Advances t (expression g structs) := by
  unfold expression; infer_instance

instance : Advances t (blockExpression? g) := by unfold blockExpression?; infer_instance

instance (statement : Bool) : Advances t (standalone g statement) := by
  unfold standalone; infer_instance

/-! ### Statements -/

instance : Advances t invocationStart := by unfold invocationStart; infer_instance

instance : Advances t seesConstItem := by unfold seesConstItem; infer_instance

instance : Advances t seesItem := by unfold seesItem; infer_instance

instance : Advances t (letStatement g) := by unfold letStatement; infer_instance

instance : Advances t (statement g) := by
  refine of_get fun s => of_bind inferInstance fun _ => of_bind inferInstance fun start => ?_
  cases start <;> infer_instance

instance : Advances t (statements g) := by unfold statements; infer_instance

/-! ### Items -/

instance (safe : Bool) : Advances t (seesFunction safe) := by unfold seesFunction; infer_instance

instance : Advances t seesReceiver := by unfold seesReceiver; infer_instance

instance : Advances t (receiver g) := by unfold receiver; infer_instance

instance : Advances t (functionArgument g) := by unfold functionArgument; infer_instance

instance : Advances t (functionArguments g) := by
  refine of_repeated (fun t current => ?_) _
  obtain ⟨count, received⟩ := current
  refine of_bind inferInstance fun _ => of_ite inferInstance (of_bind inferInstance fun _ => ?_)
  refine of_bind inferInstance fun kind => ?_
  cases kind <;> infer_instance

instance (safe : Bool) : Advances t (signature g safe) := by unfold signature; infer_instance

instance : Advances t invocation := by unfold invocation; infer_instance

instance : Advances t memberInvocation := by unfold memberInvocation; infer_instance

instance (constants : Bool) (stops : List Expected) :
    Advances t (boundsBefore g constants stops) := by
  unfold boundsBefore; infer_instance

instance (stops : List Expected) : Advances t (optionalBounds g stops) := by
  unfold optionalBounds; infer_instance

instance (place : WherePlace) : Advances t (typeDeclaration g place) := by
  unfold typeDeclaration
  cases place <;> dsimp only <;> infer_instance

instance : Advances t constantName := by unfold constantName; infer_instance

instance : Advances t (constantDeclaration g) := by unfold constantDeclaration; infer_instance

instance : Advances t (body g) := by unfold body; infer_instance

instance : Advances t (traitMember g) := by
  have : ∀ t, Advances t (traitMember.traitFunction g) := fun t => by
    unfold traitMember.traitFunction; infer_instance
  unfold traitMember
  infer_instance

instance : Advances t (implMember g) := by unfold implMember; infer_instance

instance : Advances t (foreignStatic g) := by unfold foreignStatic; infer_instance

instance : Advances t seesSafeFunction := by unfold seesSafeFunction; infer_instance

instance : Advances t (foreignMember g) := by unfold foreignMember; infer_instance

instance : Advances t useBinding := by unfold useBinding; infer_instance

instance (anew : Bool) (depth : Nat) : Advances t (useTree anew depth) := by
  induction depth generalizing anew t with
  | zero => unfold useTree; infer_instance
  | succ depth ih => unfold useTree; infer_instance

instance : Advances t useItem := by
  unfold useItem
  refine of_bind inferInstance fun _ => of_bind inferInstance fun _ => of_get fun s => ?_
  refine of_bind inferInstance fun tree => of_bind inferInstance fun _ => ?_
  cases tree <;> infer_instance

instance : Advances t (namedField g) := by unfold namedField; infer_instance

instance : Advances t (unnamedField g) := by unfold unnamedField; infer_instance

instance : Advances t (namedFields g) := by unfold namedFields; infer_instance

instance : Advances t (unnamedFields g) := by unfold unnamedFields; infer_instance

instance : Advances t (variant g) := by unfold variant; infer_instance

instance (attributes : List Attribute) (visibility : Visibility) :
    Advances t (enumDecl g attributes visibility) := by
  unfold enumDecl; infer_instance

instance : Advances t (structDecl g) := by unfold structDecl; infer_instance

instance : Advances t (unionDecl g) := by unfold unionDecl; infer_instance

instance (visible : Visibility) : Advances t (foreignBlock g t visible) := by
  unfold foreignBlock
  cases visible <;> infer_instance

instance (visible : Visibility) : Advances t (externItem g t visible) := by
  unfold externItem; infer_instance

instance : Advances t (staticItem g) := by unfold staticItem; infer_instance

instance (attributes : List Attribute) (visibility : Visibility) :
    Advances t (moduleItem g attributes visibility) := by
  unfold moduleItem; infer_instance

instance : Advances t (restOfTrait g) := by unfold restOfTrait; infer_instance

instance (alias? : Bool) : Advances t (traitItem g alias?) := by unfold traitItem; infer_instance

instance (visible : Visibility) : Advances t (implItem g visible) := by
  unfold implItem; infer_instance

instance : Advances t rulesItem := by unfold rulesItem; infer_instance

instance (attributes : List Attribute) (visible : Visibility) :
    Advances t (unsafeItem g t attributes visible) := by
  unfold unsafeItem; infer_instance

/-- The item that an invocation is. -/
instance itemOfInvocation : Advances t (do
    match ← invocation with
    | some name => return .named .rules name
    | none => return .unnamed : Parser Item) := by
  refine of_bind inferInstance fun name => ?_
  cases name <;> infer_instance

instance : Advances t (item g) := by unfold item; infer_instance

/-! ### All phrases -/

instance nonterminals (depth : Nat) : (nonterminals depth).Advance := by
  induction depth with
  | zero => constructor <;> intros <;> exact inferInstanceAs (Advances _ (complain _))
  | succ depth ih =>
    exact {
      expression := fun t structs =>
        inferInstanceAs (Advances t (expression (Grammar.nonterminals depth) structs))
      standalone := fun t statement =>
        inferInstanceAs (Advances t (standalone (Grammar.nonterminals depth) statement))
      operand := fun t structs =>
        inferInstanceAs (Advances t (operand (Grammar.nonterminals depth) structs))
      operators := fun t structs left base =>
        inferInstanceAs (Advances t (operators (Grammar.nonterminals depth) structs left base))
      type := fun t plus => inferInstanceAs (Advances t (type (Grammar.nonterminals depth) plus))
      bound := fun t captures constants =>
        inferInstanceAs (Advances t (bound (Grammar.nonterminals depth) captures constants))
      pattern := fun t => inferInstanceAs (Advances t (pattern (Grammar.nonterminals depth)))
      statements := fun t => inferInstanceAs (Advances t (statements (Grammar.nonterminals depth)))
      fields := fun t => inferInstanceAs (Advances t (namedFields (Grammar.nonterminals depth)))
      item := fun t => inferInstanceAs (Advances t (item (Grammar.nonterminals depth))) }

instance file : Advances t (file g) := by unfold Grammar.file; infer_instance

end Parser.Advances

end DescriptionLookup.Grammar
