import DescriptionLookup.Grammar.Source
import DescriptionLookup.Proofs.Selections

/-!
# The names of parsed items

The grammar says for every place where an item has a name which words may stand there. An enum is
called by an identifier, and so is a module, apart from the word `try`; a constant may be called by
a low line. What the parser answers keeps to this, however deeply modules are nested.

* `Parser.Yields`: what every answer of a parser is like, with a rule for each way of putting
  parsers together;
* `Item.WellNamed`: the names in an item are ones that the grammar has for them;
* `wellNamed_of_parseFile`: the items of every file are well named.
-/

namespace DescriptionLookup

namespace Grammar

/-- A word that may follow `::` and is none of those that begin a path: an identifier, or `try`. -/
def IsSegment (name : String) : Prop := isIdentifier name = true ∨ name = "try"

instance (name : String) : Decidable (IsSegment name) :=
  inferInstanceAs (Decidable (_ ∨ _))

theorem not_isSegment {name : String} (hword : name ∈ reservedWords) (htry : name ≠ "try") :
    ¬ IsSegment name := by
  simp [IsSegment, isIdentifier, hword, htry]

/-! ### The answers of parsers -/

namespace Parser

variable {α β σ : Type} {P : α → Prop} {Q : β → Prop}

/-- In this state every answer of the parser has a property. -/
def YieldsAt (state : State) (p : Parser α) (P : α → Prop) : Prop :=
  ∀ result state', p state = .ok (result, state') → P result

/-- Every answer of the parser has a property. -/
def Yields (p : Parser α) (P : α → Prop) : Prop := ∀ state, YieldsAt state p P

theorem bind_eq_ok {p : Parser α} {f : α → Parser β} {state state' : State} {result : β} :
    (p >>= f) state = .ok (result, state') ↔
      ∃ a between, p state = .ok (a, between) ∧ f a between = .ok (result, state') := by
  show (p state >>= fun answer => f answer.1 answer.2) = _ ↔ _
  rw [Except.bind_eq_ok]
  exact Prod.exists

/-- A state that leaves nothing has no trees left, and none were left in a group. -/
theorem nothing_left {state : State} (h : (state.leftover <|> leftoverOf state) = none) :
    state.rest = [] ∧ state.leftover = none := by
  have hboth : state.leftover = none ∧ leftoverOf state = none := by simpa using h
  exact ⟨by simpa [leftoverOf] using hboth.2, hboth.1⟩

theorem exists_of_readAll {p : Parser α} {trees : List TokenTree} {a : α}
    (h : readAll p trees = .ok a) :
    ∃ state, p ⟨trees, .start, none, none, []⟩ = .ok (a, state) ∧ state.rest = [] ∧
      state.leftover = none := by
  obtain ⟨⟨result, state⟩, hresult, h⟩ := Except.bind_eq_ok.1 h
  dsimp only at h
  split at h
  · cases h
  · next hnothing =>
    cases h
    exact ⟨state, hresult, nothing_left hnothing⟩

theorem yields_pure {a : α} (h : P a) : Yields (pure a) P := by
  intro state result state' hp
  cases hp
  exact h

theorem yields_throw (fault : Fault) : Yields (throw fault) P := by
  intro state result state' hp
  have herror : Except.error fault = Except.ok (result, state') := hp
  cases herror

theorem yields_bind {p : Parser α} {f : α → Parser β} (hp : Yields p P)
    (hf : ∀ a, P a → Yields (f a) Q) : Yields (p >>= f) Q := by
  intro state result state' h
  obtain ⟨a, between, ha, h⟩ := bind_eq_ok.1 h
  exact hf a (hp state a between ha) between result state' h

/-- What was answered before does not matter. -/
theorem yields_after {p : Parser α} {f : α → Parser β} (hf : ∀ a, Yields (f a) Q) :
    Yields (p >>= f) Q :=
  yields_bind (P := fun _ => True) (fun _ _ _ _ => trivial) fun a _ => hf a

theorem yields_ite {c : Prop} [Decidable c] {p q : Parser α} (hp : Yields p P) (hq : Yields q P) :
    Yields (if c then p else q) P := by
  split
  · exact hp
  · exact hq

theorem yields_complain (complaint : Complaint) : Yields (complain complaint) P :=
  yields_after fun _ => yields_after fun _ => yields_throw _

theorem yields_missingOneOf (es : List Expected) : Yields (missingOneOf es) P :=
  yields_after fun _ => yields_complain _

theorem yieldsAt_get {f : State → Parser β} {state : State} (h : YieldsAt state (f state) Q) :
    YieldsAt state (get >>= f) Q := h

theorem yieldsAt_ite {c : Prop} [Decidable c] {p q : Parser α} {state : State}
    (hp : c → YieldsAt state p P) (hq : ¬ c → YieldsAt state q P) :
    YieldsAt state (if c then p else q) P := by
  split
  · next h => exact hp h
  · next h => exact hq h

/-- Where a word is read, it stood in front. -/
theorem yieldsAt_anyWord {f : String → Parser β} {state : State}
    (h : ∀ name pos rest, state.rest = .word name pos :: rest → Yields (f name) Q) :
    YieldsAt state (anyWord >>= f) Q := by
  intro result state' hp
  obtain ⟨name, between, hname, hp⟩ := bind_eq_ok.1 hp
  obtain ⟨rest, close, within, leftover, read⟩ := state
  rcases rest with _ | ⟨⟨first, pos⟩ | _ | _ | _, rest⟩
  case cons.word =>
    cases hname
    exact h name pos rest rfl _ result state' hp
  all_goals cases hname

/-- A word that is read because it comes next is that word. -/
theorem yields_seesWord {text : String} {f : String → Parser β} {q : Parser β}
    (hf : Yields (f text) Q) (hq : Yields q Q) :
    Yields (seesWord text >>= fun sees => if sees = true then anyWord >>= f else q) Q := by
  intro state
  show YieldsAt state (if (Expected.word text).begins state.rest = true then _ else _) Q
  split
  · next hsees =>
    refine yieldsAt_anyWord fun name pos rest hrest => ?_
    rw [hrest] at hsees
    obtain rfl : name = text := by simpa [Expected.begins] using hsees
    exact hf
  · exact hq state

theorem yields_identifier : Yields identifier (isIdentifier · = true) := by
  intro state
  refine yieldsAt_get ?_
  split
  · next first pos rest hrest =>
    refine yieldsAt_ite (fun hfirst => ?_) fun _ => yields_after (fun _ => yields_throw _) state
    rw [← bind_pure anyWord]
    refine yieldsAt_anyWord fun name pos rest' hname => yields_pure ?_
    rw [hrest] at hname
    cases hname
    exact hfirst
  · exact yields_complain _ state

theorem yields_openGroup {d : Delimiter} {inner : Parser α} (h : Yields inner P) :
    Yields (openGroup d inner) fun result => P result.1 := by
  refine yields_after fun state => ?_
  split
  · refine yields_ite (yields_after fun _ => ?_) (yields_complain _)
    refine yields_bind h fun result hresult => ?_
    exact yields_after fun _ => yields_after fun _ => yields_pure hresult
  · exact yields_complain _

theorem yields_captured {p : Parser α} (h : Yields p P) :
    Yields (captured p) fun result => P result.1 :=
  yields_after fun _ => yields_after fun _ => yields_bind h fun _ ha => yields_after fun _ =>
    yields_after fun _ => yields_pure ha

theorem yields_verbatimIf {asks : α → Bool} {p : Parser α} (h : Yields p P) :
    Yields (verbatimIf asks p) P := by
  refine yields_after fun _ => yields_bind (yields_captured h) fun _ ha => ?_
  exact yields_after fun _ => yields_after fun _ => yields_pure ha

theorem yields_group {d : Delimiter} {inner : Parser α} (h : Yields inner P) :
    Yields (group d inner) P :=
  yields_bind (yields_openGroup h) fun _ ha => yields_after fun _ => yields_pure ha

theorem yields_repeatUpTo {step : σ → Parser (Round σ α)} {R : σ → Prop}
    (hstep : ∀ current, R current → Yields (step current) fun
      | .again next => R next
      | .done result => P result) (rounds : Nat) {current : σ} (hcurrent : R current) :
    Yields (repeatUpTo step rounds current) P := by
  induction rounds generalizing current with
  | zero => exact yields_complain _
  | succ rounds ih =>
    refine yields_bind (hstep current hcurrent) fun round hround => ?_
    cases round with
    | done result => exact yields_pure hround
    | again next => exact ih hround

theorem yields_repeated {step : σ → Parser (Round σ α)} {R : σ → Prop}
    (hstep : ∀ current, R current → Yields (step current) fun
      | .again next => R next
      | .done result => P result) {first : σ} (hfirst : R first) :
    Yields (repeated step first) P :=
  yields_after fun _ => yields_repeatUpTo hstep _ hfirst

theorem yields_untilEnd {p : Parser α} (h : Yields p P) :
    Yields (untilEnd p) fun results => ∀ result ∈ results, P result := by
  refine yields_repeated (R := fun found => ∀ result ∈ found, P result) (fun found hfound => ?_)
    (List.forall_mem_nil P)
  refine yields_after fun _ => yields_ite (yields_pure ?_) (yields_bind h fun result hresult =>
    yields_pure ?_)
  · simpa using hfound
  · exact List.forall_mem_cons.2 ⟨hresult, hfound⟩

end Parser

end Grammar

open Grammar

/-- The names in an item are ones that the grammar has for them. -/
inductive Item.WellNamed : Item → Prop
  | enumeration {decl : EnumDecl} : isIdentifier decl.name = true → WellNamed (.enumeration decl)
  | inlineModule {head : ModuleHead} {items : List Item} : IsSegment head.name →
    (∀ item ∈ items, WellNamed item) → WellNamed (.inlineModule head items)
  | fileModule {head : ModuleHead} : IsSegment head.name → WellNamed (.fileModule head)
  | imports (absolute : Bool) (tree : UseTree) : WellNamed (.imports absolute tree)
  | externCrate {name : String} (binding : String) : isIdentifier name = true ∨ name = "self" →
    WellNamed (.externCrate name binding)
  | named (kind : ItemKind) {name : String} : IsSegment name ∨ name = "_" →
    WellNamed (.named kind name)
  | irregular : WellNamed .irregular
  | unnamed : WellNamed .unnamed

namespace Grammar

open Grammar.Parser

section Declarations

variable {g : Nonterminals}

theorem yields_signature (safe : Bool) : Yields (signature g safe) (isIdentifier · = true) := by
  refine yields_after fun _ => yields_after fun _ => yields_after fun _ => ?_
  extract_lets next
  have hnext : ∀ c, Yields (next c) (isIdentifier · = true) := by
    intro c
    refine yields_after fun _ => yields_after fun _ => ?_
    refine yields_bind yields_identifier fun name hname => ?_
    refine yields_after fun _ => yields_after fun _ => yields_after fun _ => ?_
    exact yields_after fun _ => yields_after fun _ => yields_pure hname
  exact yields_ite (yields_after fun _ => hnext ()) (hnext ())

theorem yields_enumDecl (attributes : List Attribute) (visible : Visibility) :
    Yields (enumDecl g attributes visible) fun decl => isIdentifier decl.name = true := by
  refine yields_after fun _ => yields_bind yields_identifier fun name hname => ?_
  exact yields_after fun _ => yields_after fun _ => yields_after fun _ => yields_pure hname

theorem yields_constantName :
    Yields constantName fun name => isIdentifier name = true ∨ name = "_" := by
  intro state
  refine yieldsAt_ite (fun hsees => ?_) fun _ => yields_missingOneOf _ state
  rw [← bind_pure anyWord]
  refine yieldsAt_anyWord fun name pos rest hrest => yields_pure ?_
  rw [hrest] at hsees
  simpa [Expected.begins] using hsees

theorem yields_structDecl : Yields (structDecl g) fun decl => isIdentifier decl.1 = true := by
  refine yields_after fun _ => yields_bind yields_identifier fun name hname => ?_
  refine yields_after fun _ => yields_after fun _ => ?_
  extract_lets last fields
  have hlast : ∀ c, Yields (last c) fun decl => isIdentifier decl.1 = true :=
    fun _ => yields_pure hname
  have hfields : ∀ rest, Yields (fields rest) fun decl => isIdentifier decl.1 = true := by
    refine fun rest => yields_after fun _ => yields_ite ?_ (yields_after fun _ => yields_ite ?_ ?_)
    · refine yields_after fun _ => yields_after fun _ => yields_after fun _ => ?_
      exact yields_ite (yields_after hlast) (hlast ())
    · exact yields_after hlast
    · exact yields_after fun _ => yields_ite (yields_after hlast) (hlast ())
  exact yields_ite (yields_after hfields) (yields_after hfields)

theorem yields_unionDecl : Yields (unionDecl g) fun decl => isIdentifier decl.1 = true := by
  refine yields_after fun _ => yields_bind yields_identifier fun name hname => ?_
  exact yields_after fun _ => yields_after fun _ => yields_after fun _ => yields_pure hname

theorem yields_typeDeclaration (place : WherePlace) :
    Yields (typeDeclaration g place) fun decl => isIdentifier decl.name = true := by
  refine yields_after fun _ => yields_bind yields_identifier fun name hname => ?_
  refine yields_after fun _ => yields_after fun _ => ?_
  extract_lets next
  have hnext : ∀ early, Yields (next early) fun decl => isIdentifier decl.name = true := by
    refine fun early => yields_after fun defined => ?_
    extract_lets last clauses
    have hlast : ∀ c, Yields (last c) fun decl => isIdentifier decl.name = true :=
      fun _ => yields_after fun _ => yields_pure hname
    have hclauses : ∀ c, Yields (clauses c) fun decl => isIdentifier decl.name = true := by
      intro c
      cases place with
      | beforeDefinition => exact hlast ()
      | _ => exact yields_ite (yields_after fun _ => hlast ()) (hlast ())
    exact yields_ite (yields_after hclauses) (hclauses ())
  cases place <;> exact yields_after hnext

theorem yields_invocation :
    Yields invocation fun name? => ∀ name ∈ name?, IsSegment name := by
  refine yields_after fun _ => yields_after fun _ => ?_
  extract_lets next
  have hnext : ∀ name?, (∀ name ∈ name?, IsSegment name) →
      Yields (next name?) fun name? => ∀ name ∈ name?, IsSegment name := fun name? hname =>
    yields_after fun _ => yields_ite (yields_after fun _ => yields_pure hname) (yields_pure hname)
  intro state
  refine yieldsAt_ite (fun hsees => ?_) fun _ => hnext none (by simp) state
  refine yieldsAt_anyWord fun name pos rest hrest => hnext (some name) ?_
  rw [hrest] at hsees
  have hname : IsSegment name := by simpa [Expected.begins, IsSegment, or_comm] using hsees
  simpa using hname

theorem yields_useItem : Yields useItem Item.WellNamed := by
  refine yields_after fun _ => yields_after fun _ => yields_after fun _ => ?_
  refine yields_after fun tree => yields_after fun _ => ?_
  cases tree with
  | none => exact yields_pure .irregular
  | some tree => exact yields_pure (.imports _ tree)

theorem yields_foreignBlock (start : State) (visible : Visibility) :
    Yields (foreignBlock g start visible) Item.WellNamed := by
  unfold foreignBlock
  extract_lets next
  have hnext : ∀ c, Yields (next c) Item.WellNamed :=
    fun _ => yields_after fun _ => yields_after fun _ => yields_after fun _ => yields_pure .unnamed
  cases visible with
  | inherited => exact hnext ()
  | _ => exact yields_after fun _ => yields_after hnext

theorem yields_externItem (start : State) (visible : Visibility) :
    Yields (externItem g start visible) Item.WellNamed := by
  refine yields_after fun _ => yields_ite ?_ (yields_after fun _ => yields_ite ?_ ?_)
  · refine yields_after fun _ => yields_after fun _ => ?_
    extract_lets next
    have hnext : ∀ name, isIdentifier name = true ∨ name = "self" →
        Yields (next name) Item.WellNamed := by
      refine fun name hname => yields_after fun _ => ?_
      extract_lets last
      have hlast : ∀ binding, Yields (last binding) Item.WellNamed :=
        fun binding => yields_after fun _ => yields_pure (.externCrate binding hname)
      refine yields_ite (yields_after fun _ => ?_) (yields_after hlast)
      exact yields_ite (yields_after hlast) (yields_after hlast)
    exact yields_seesWord (hnext "self" (.inr rfl)) (yields_bind yields_identifier fun name hname =>
      hnext name (.inl hname))
  · exact yields_foreignBlock start visible
  · refine yields_after fun _ => yields_ite (yields_after fun _ => ?_) ?_
    · refine yields_ite (yields_after fun _ => yields_after fun _ => yields_after fun _ => ?_) ?_
      · exact yields_foreignBlock start visible
      · exact yields_foreignBlock start visible
    · exact yields_after fun _ => yields_missingOneOf _

theorem yields_staticItem : Yields (staticItem g) Item.WellNamed := by
  refine yields_after fun _ => yields_after fun _ => ?_
  refine yields_bind yields_identifier fun name hname => ?_
  refine yields_after fun _ => yields_ite ?_ ?_
  · exact yields_after fun _ => yields_after fun _ => yields_pure .irregular
  · refine yields_after fun _ => yields_after fun _ => yields_after fun _ => ?_
    refine yields_ite (yields_pure .irregular) (yields_after fun _ => yields_after fun _ => ?_)
    exact yields_after fun _ => yields_pure (.named .static (.inl (.inl hname)))

theorem yields_traitItem (alias? : Bool) : Yields (traitItem g alias?) Item.WellNamed := by
  refine yields_after fun _ => yields_bind yields_identifier fun name hname => ?_
  have hname' : IsSegment name ∨ name = "_" := .inl (.inl hname)
  refine yields_after fun _ => ?_
  extract_lets next
  have hnext : ∀ c, Yields (next c) Item.WellNamed :=
    fun _ => yields_after fun _ => yields_pure (.named .trait hname')
  refine yields_ite (yields_after fun _ => yields_ite ?_ ?_) (hnext ())
  · refine yields_after fun _ => yields_after fun _ => ?_
    exact yields_after fun _ => yields_after fun _ => yields_pure (.named .traitAlias hname')
  · exact yields_after fun _ => yields_ite (yields_after hnext) (hnext ())

theorem yields_implItem (visible : Visibility) : Yields (implItem g visible) Item.WellNamed := by
  refine yields_after fun _ => yields_after fun _ => yields_after fun _ => yields_after fun _ => ?_
  extract_lets trait
  have htrait : ∀ c, Yields (trait c) Item.WellNamed := by
    refine fun _ => yields_after fun _ => yields_after fun _ => yields_after fun _ => ?_
    extract_lets forConst type
    have htype : ∀ c, Yields (type c) Item.WellNamed := by
      refine fun _ => yields_after fun _ => yields_after fun _ => yields_after fun _ => ?_
      extract_lets negated
      have hnegated : ∀ negative, Yields (negated negative) Item.WellNamed := by
        refine fun negative => yields_after fun shape => yields_after fun ofTrait => ?_
        extract_lets last
        have hlast : ∀ c, Yields (last c) Item.WellNamed := fun _ => yields_after fun _ =>
          yields_after fun _ => yields_ite (yields_pure .irregular) (yields_pure .unnamed)
        exact yields_ite (yields_after hlast) (yields_ite (yields_after hlast) (hlast ()))
      exact yields_ite (yields_after hnegated) (yields_after hnegated)
    exact yields_ite (yields_after fun _ => yields_after htype) (htype ())
  exact yields_ite (yields_after fun _ => htrait ()) (htrait ())

theorem yields_rulesItem : Yields rulesItem Item.WellNamed := by
  refine yields_after fun _ => yields_after fun _ => yields_after fun _ => ?_
  extract_lets next
  have hnext : ∀ wanted, Yields (next wanted) Item.WellNamed := fun wanted => yields_after fun _ =>
    yields_ite (yields_after fun _ => yields_pure .irregular) (yields_missingOneOf wanted)
  exact yields_ite (yields_after fun _ => yields_after hnext) (yields_after hnext)

theorem yields_moduleItem (hg : Yields g.item Item.WellNamed) (attributes : List Attribute)
    (visible : Visibility) : Yields (moduleItem g attributes visible) Item.WellNamed := by
  refine yields_after fun _ => yields_after fun _ => ?_
  extract_lets next
  have hnext : ∀ name, IsSegment name → Yields (next name) Item.WellNamed := by
    refine fun name hname => yields_after fun _ => yields_ite (yields_pure (.fileModule hname)) ?_
    refine yields_after fun _ => yields_ite (yields_group ?_) (yields_missingOneOf _)
    refine yields_after fun _ => yields_bind (yields_untilEnd hg) fun items hitems => ?_
    exact yields_pure (.inlineModule hname hitems)
  exact yields_seesWord (hnext "try" (.inr rfl)) (yields_bind yields_identifier fun name hname =>
    hnext name (.inl hname))

theorem yields_unsafeItem (hg : Yields g.item Item.WellNamed) (start : State)
    (attributes : List Attribute) (visible : Visibility) :
    Yields (unsafeItem g start attributes visible) Item.WellNamed := by
  refine yields_after fun _ => yields_ite (yields_after fun _ => yields_traitItem false) ?_
  refine yields_after fun _ => yields_after fun _ => yields_ite
    (yields_after fun _ => yields_after fun _ => yields_traitItem false) ?_
  refine yields_after fun _ => yields_ite (yields_implItem visible) ?_
  refine yields_after fun _ => yields_ite (yields_foreignBlock start visible) ?_
  refine yields_after fun _ => yields_ite (yields_moduleItem hg attributes visible) ?_
  exact yields_after fun _ => yields_missingOneOf _

theorem yields_item (hg : Yields g.item Item.WellNamed) : Yields (item g) Item.WellNamed := by
  refine yields_verbatimIf (yields_after fun attributes => yields_after fun start =>
    yields_after fun visible => ?_)
  extract_lets bare
  refine yields_after fun _ => yields_ite ?_ ?_
  · refine yields_bind (yields_signature false) fun name hname => yields_after fun _ => ?_
    exact yields_ite (yields_pure .irregular) (yields_after fun _ =>
      yields_pure (.named .function (.inl (.inl hname))))
  refine yields_after fun _ => yields_ite (yields_externItem start visible) ?_
  refine yields_after fun _ => yields_ite yields_useItem ?_
  refine yields_after fun _ => yields_ite yields_staticItem ?_
  refine yields_after fun _ => yields_ite ?_ ?_
  · refine yields_bind yields_constantName fun name hname => yields_after fun _ => ?_
    exact yields_ite (yields_pure (.named .constant (hname.imp_left .inl))) (yields_pure .irregular)
  refine yields_after fun _ => yields_ite (yields_unsafeItem hg start attributes visible) ?_
  refine yields_after fun _ => yields_ite (yields_moduleItem hg attributes visible) ?_
  refine yields_after fun _ => yields_ite ?_ ?_
  · refine yields_bind (yields_typeDeclaration .beforeDefinition) fun declaration hname => ?_
    exact yields_ite (yields_pure (.named .typeAlias (.inl (.inl hname)))) (yields_pure .irregular)
  refine yields_after fun _ => yields_ite ?_ ?_
  · exact yields_bind yields_structDecl fun _ hname =>
      yields_pure (.named .struct (.inl (.inl hname)))
  refine yields_after fun _ => yields_ite ?_ ?_
  · exact yields_bind (yields_enumDecl attributes visible) fun _ hname =>
      yields_pure (.enumeration hname)
  refine yields_after fun _ => yields_after fun _ => yields_ite ?_ ?_
  · exact yields_bind yields_unionDecl fun _ hname =>
      yields_pure (.named .union (.inl (.inl hname)))
  refine yields_after fun _ => yields_ite (yields_traitItem true) ?_
  refine yields_after fun _ => yields_after fun _ => yields_ite
    (yields_after fun _ => yields_traitItem false) ?_
  refine yields_after fun _ => yields_after fun _ => yields_after fun _ =>
    yields_ite (yields_implItem visible) ?_
  refine yields_after fun _ => yields_ite yields_rulesItem ?_
  refine yields_after fun _ => yields_ite ?_ (yields_missingOneOf _)
  refine yields_bind yields_invocation fun name? hname => ?_
  cases name? with
  | none => exact yields_pure .unnamed
  | some name => exact yields_pure (.named .rules (.inl (hname name rfl)))

end Declarations

theorem yields_nonterminals_item (depth : Nat) :
    Yields (nonterminals depth).item Item.WellNamed := by
  induction depth with
  | zero => exact yields_complain _
  | succ depth ih => exact yields_item ih

theorem exists_of_parseText {α : Type} {phrase : Nonterminals → Parser α} {text : String} {a : α}
    (h : parseText phrase text = .ok a) :
    ∃ trees, TokenTree.ofText text = .ok trees ∧ parseTrees phrase trees = .ok a := by
  unfold parseText at h
  split at h
  · cases h
  · next trees htrees => exact ⟨trees, htrees, h⟩

/-- The items of every file are well named. -/
theorem wellNamed_of_parseFile {text : String} {source : SourceText}
    (h : parseFile text = .ok source) : ∀ item ∈ source.items, item.WellNamed := by
  have hfile : ∀ depth, Yields (file (nonterminals depth)) fun source =>
      ∀ item ∈ source.items, item.WellNamed := fun depth => yields_after fun _ =>
    yields_bind (yields_untilEnd (yields_nonterminals_item depth)) fun _ hitems =>
      yields_pure hitems
  obtain ⟨trees, -, h⟩ := exists_of_parseText h
  obtain ⟨state, hsource, -⟩ := exists_of_readAll h
  exact hfile _ _ _ _ hsource

end Grammar
end DescriptionLookup
