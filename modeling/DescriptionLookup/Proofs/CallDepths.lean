import DescriptionLookup.Proofs.Regions

/-!
# The calls of a query

Resolution is a recursion of two kinds of calls, to follow a path and to look a name up in a module.
Each of them is some number of hops away from the beginning of the query. Here the recursion is
written with this number as its only guide: it is counted upwards, and a call to follow a path
refuses to go on where it is too great. A call to look a name up never asks for it. Nothing in this
form says that the recursion ends, so that it is run with a bound on the nesting of calls, and with
a ledger that has an entry for each of them.

* `Call`, `Ledger`: the calls, and what a run takes note of;
* `followFrom`, `lookFrom`: the recursion;
* `agree_followFrom`, `agree_lookFrom`: it finds what `find` finds, by calls that are not deep;
* `query_ends`: no bound above a certain number is ever met.
-/

namespace DescriptionLookup

/-! ### Ledgers -/

/-- A call of the recursion, so many hops away from the beginning of the query. -/
inductive Call
  | follow (depth : Nat) (skip : Option String) (module : ModulePath) (path : Path)
  | look (depth : Nat) (skip : Option String) (module : ModulePath) (name : String)
deriving DecidableEq

/-- A name is looked up within the hops that a query may take, and a path is followed at most one
hop further. -/
def Call.IsShallow : Call → Prop
  | .follow depth .. => depth ≤ maximalHops + 1
  | .look depth .. => depth ≤ maximalHops

/-- What a run takes note of. -/
structure Ledger where
  /-- The names that were searched through globs. -/
  searched : Searched
  /-- The calls that were made, the last one first. -/
  calls : List Call
  /-- A call was nested too deep and was not carried out. -/
  cut : Bool

/-- The ledger of a query that begins. -/
def Ledger.start : Ledger := ⟨[], [], false⟩

/-- The memory that refuses what `once` refuses. A call that is nested too deep is noted. -/
def Memory.ledger : Memory Ledger where
  search _ module name query := do
    if (← get).searched.contains (module, name) then failure
    else
      modify fun ledger => { ledger with searched := (module, name) :: ledger.searched }
      query
  exhausted ledger := { ledger with cut := true }

/-- Take note of a call, and carry it out. -/
def Call.make {α : Type} (call : Call) (query : Query Ledger α) : Query Ledger α := do
  modify fun ledger => { ledger with calls := call :: ledger.calls }
  query

/-! ### The recursion -/

namespace SymbolTable

mutual

/-- Follow a path, so many hops away from the beginning of the query; where these are too many, the
path leads nowhere. -/
def followFrom (table : SymbolTable) : (bound depth : Nat) → (skip : Option String) →
    ModulePath → Path → Query Ledger Target
  | 0, _, _, _, _ => Memory.ledger.stop
  | bound + 1, depth, skip, module, path => (Call.follow depth skip module path).make <|
    if maximalHops < depth then failure
    else
      table.follow
        (fun skip module name => Finding.target <$> table.lookFrom bound depth skip module name)
        skip module path

/-- Look a name up in a module, so many hops away from the beginning of the query. -/
def lookFrom (table : SymbolTable) : (bound depth : Nat) → (skip : Option String) →
    ModulePath → String → Query Ledger Finding
  | 0, _, _, _, _ => Memory.ledger.stop
  | bound + 1, depth, skip, module, name => (Call.look depth skip module name).make <|
    table.findIn (Memory.ledger.search depth module name)
      (fun skip path => table.followFrom bound (depth + 1) skip module path)
      (fun source => table.lookFrom bound (depth + 1) none source name) skip module name

end

end SymbolTable

/-! ### Comparison -/

namespace Ledger

/-- A ledger is compared with the names that were searched, as long as nothing is cut off and all
calls are shallow. -/
def sound : Comparison Ledger Searched where
  same ledger searched := ledger.searched = searched ∧ ledger.cut = false ∧
    ∀ call ∈ ledger.calls, call.IsShallow
  spoilt _ := False

variable {α : Type} {q : Query Ledger α} {q' : Query Searched α}

/-- A shallow call changes nothing. -/
theorem agree_make (h : Agree sound q q') {call : Call} (hcall : call.IsShallow) :
    Agree sound (call.make q) q' := by
  refine ⟨nofun, fun ledger searched ⟨hsearched, hcut, hcalls⟩ => ?_⟩
  exact h.agrees { ledger with calls := call :: ledger.calls } searched
    ⟨hsearched, hcut, List.forall_mem_cons.2 ⟨hcall, hcalls⟩⟩

/-- Where no hop is left, nothing is found. -/
theorem agree_failure : Agree sound (failure : Query Ledger α) Memory.once.stop :=
  ⟨nofun, fun _ _ hsame => .inr ⟨rfl, hsame⟩⟩

theorem agree_search {q : Query Ledger Finding} {q' : Query Searched Finding}
    (h : Agree sound q q') (hops hops' : Nat) (module : ModulePath) (name : String) :
    Agree sound (Memory.ledger.search hops module name q)
      (Memory.once.search hops' module name q') := by
  refine ⟨nofun, fun ledger searched hsame => ?_⟩
  obtain ⟨rfl, hcut, hcalls⟩ := hsame
  by_cases hmem : (module, name) ∈ ledger.searched
  · have houtcome : (Memory.ledger.search hops module name q).outcome ledger = (none, ledger) := by
      show Query.outcome (if ledger.searched.contains (module, name) = true then failure else _)
        ledger = _
      rw [if_pos (List.contains_iff_mem.2 hmem), Query.outcome_failure]
    rw [houtcome, Memory.outcome_once_of_mem hmem]
    exact .inr ⟨rfl, rfl, hcut, hcalls⟩
  · have houtcome : (Memory.ledger.search hops module name q).outcome ledger =
        q.outcome { ledger with searched := (module, name) :: ledger.searched } := by
      show Query.outcome (if ledger.searched.contains (module, name) = true then failure else
        (modify _ >>= fun _ => q)) ledger = _
      rw [if_neg fun hcontains => hmem (List.contains_iff_mem.1 hcontains)]
      rfl
    rw [houtcome, Memory.outcome_once_of_not_mem hmem]
    exact h.agrees _ _ ⟨rfl, hcut, hcalls⟩

end Ledger

namespace SymbolTable

open Ledger (sound)

/-- Where no glob leads to a module, it makes no difference how names are looked up in modules. -/
theorem throughGlobs_eq_of_no_module {σ : Type} {followGlob : Path → Query σ Target}
    (hfollow : ∀ glob, (followGlob glob).Yields fun target => ∀ source, target ≠ .module source)
    (look look' : ModulePath → Query σ Finding) (last : Option Symbol → Query σ Finding)
    (name : String) (guess : Option Symbol) (globs : List Path) :
    throughGlobs followGlob look last name guess globs =
      throughGlobs followGlob look' last name guess globs := by
  induction globs generalizing guess with
  | nil => rfl
  | cons glob rest ih =>
    refine Query.attempt_congr (hfollow glob) (fun target htarget => ?_) (ih guess)
    cases target with
    | module source => exact absurd rfl (htarget source)
    | symbol symbol => exact ih _

variable {table : SymbolTable} {hops bound depth : Nat}

/-- A path is followed alike where names are looked up alike. -/
theorem agree_followFrom (hdepth : depth ≤ maximalHops)
    (hlook : ∀ skip module name, Agree sound (table.lookFrom bound depth skip module name)
      (table.find .once hops skip module name))
    (skip : Option String) (module : ModulePath) (path : Path) :
    Agree sound (table.followFrom (bound + 1) depth skip module path)
      (table.follow (table.lookup .once hops) skip module path) := by
  rw [followFrom, if_neg (Nat.not_lt.2 hdepth)]
  refine Ledger.agree_make ?_ (Nat.le_succ_of_le hdepth)
  exact agree_follow (fun first _ _ => (hlook skip module first).map _)
    fun source name => (hlook none source name).map _

/-- One hop too far a path leads nowhere. -/
theorem followFrom_of_lt (hdepth : maximalHops < depth) (skip : Option String)
    (module : ModulePath) (path : Path) :
    table.followFrom (bound + 1) depth skip module path =
      (Call.follow depth skip module path).make failure := by
  rw [followFrom, if_pos hdepth]

/-- Names are looked up as `find` does it, however deep calls may be nested, if only they may be
nested twice as deep as hops are left. The last hop is the one that leads nowhere: no path is
followed behind it, so that no glob has a target in which the name would be looked up. -/
theorem agree_lookFrom (hdepth : depth + hops = maximalHops) (hbound : 2 * hops + 2 ≤ bound)
    (skip : Option String) (module : ModulePath) (name : String) :
    Agree sound (table.lookFrom bound depth skip module name)
      (table.find .once hops skip module name) := by
  obtain ⟨bound, rfl⟩ := Nat.exists_eq_add_of_le' hbound
  induction hops generalizing bound depth skip module name with
  | zero =>
    have hlast : maximalHops < depth + 1 := by omega
    have hfollow : ∀ skip path, Agree sound
        (table.followFrom (bound + 1) (depth + 1) skip module path) Memory.once.stop := by
      intro skip path
      rw [followFrom_of_lt hlast]
      exact Ledger.agree_make Ledger.agree_failure (show depth + 1 ≤ maximalHops + 1 by omega)
    rw [lookFrom, find_eq]
    refine Ledger.agree_make (agree_findIn hfollow ?_ skip) (show depth ≤ maximalHops by omega)
    refine Ledger.agree_search ?_ depth 0 module name
    -- The call into the target of a glob would be too deep, but there is no target.
    rw [throughGlobs_eq_of_no_module (fun glob => ?_) _ fun _ => failure]
    · exact agree_throughGlobs (hfollow none) (fun _ => Ledger.agree_failure)
        (agree_guess name) name none _
    · rw [followFrom_of_lt hlast]
      exact nofun
  | succ hops ih =>
    -- Two calls are nested for one hop: one follows a path, the other looks a name up behind it.
    have hlook : ∀ more skip module name,
        Agree sound (table.lookFrom (bound + more + (2 * hops + 2)) (depth + 1) skip module name)
          (table.find .once hops skip module name) := by
      intro more skip module name
      exact ih (by omega) skip module name (bound + more) (by omega)
    have hfollow := agree_followFrom (show depth + 1 ≤ maximalHops by omega) (hlook 0)
    rw [show bound + (2 * (hops + 1) + 2) = bound + (2 * hops + 2) + 1 + 1 by omega, lookFrom,
      find_eq]
    refine Ledger.agree_make (agree_findIn (hfollow · module ·) ?_ skip)
      (show depth ≤ maximalHops by omega)
    refine Ledger.agree_search ?_ depth (hops + 1) module name
    refine agree_throughGlobs (hfollow none module) (fun source => ?_) (agree_guess name) name
      none _
    rw [Nat.add_right_comm]
    exact hlook 1 none source name

/-- The recursion ends.

However many calls may be nested, if only `2 * maximalHops + 3` may be, none is cut off, and the
query has the answer that it has with the hops counted downwards. In all of it no name is looked up
more than `maximalHops` hops away from the beginning, and no path is followed more than one hop
further away. -/
theorem query_ends (table : SymbolTable) (module : ModulePath) (path : Path) (more : Nat) :
    let run := (table.followFrom (2 * maximalHops + 3 + more) 0 none module path).outcome .start
    run.2.cut = false ∧ run.1 = table.target? module path ∧
      ∀ call ∈ run.2.calls, call.IsShallow := by
  have hlook : ∀ skip module name,
      Agree sound (table.lookFrom (2 * maximalHops + 2 + more) 0 skip module name)
        (table.find .once maximalHops skip module name) :=
    fun skip module name => agree_lookFrom (Nat.zero_add _) (Nat.le_add_right ..) skip module name
  have hagree := agree_followFrom (Nat.zero_le _) hlook none module path
  rw [Nat.add_right_comm _ more 1] at hagree
  rcases hagree.agrees .start [] ⟨rfl, rfl, List.forall_mem_nil _⟩ with
    hspoilt | ⟨hanswer, -, hcut, hcalls⟩
  · exact absurd hspoilt id
  · exact ⟨hcut, hanswer, hcalls⟩

end SymbolTable

/-- A crate whose modules `a` and `b` import `Item` from each other. -/
def circularCrate : Compilation :=
  let importing (module : String) : Item :=
    .imports false (.path "crate" (.path module (.name "Item")))
  (Compilation.empty "demo").addFile ⟨"lib.rs", .root, [], ⟨[],
    [.inlineModule ⟨[], .everywhere, "a"⟩ [importing "b"],
      .inlineModule ⟨[], .everywhere, "b"⟩ [importing "a"]]⟩⟩

/-- The two imports lead to each other until no hop is left, and one path more is asked for. -/
example :
    let query := circularCrate.symbolTable.followFrom 35 0 none ⟨["a"]⟩ (.ofName "Item")
    let run := query.outcome .start
    run.1 = none ∧ .look 16 none ⟨["a"]⟩ "Item" ∈ run.2.calls ∧
      .follow 17 (some "Item") ⟨["a"]⟩ ⟨false, ["crate", "b", "Item"]⟩ ∈ run.2.calls := by
  decide +kernel

end DescriptionLookup
