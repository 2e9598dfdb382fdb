import DescriptionLookup.Lookup.Rendering
import DescriptionLookup.Proofs.Literals
import Mathlib.Data.List.Basic

/-!
# The meaning of emitted lines

What the lines of a lookup do when they are compiled and run, as far as lookups need it. A gate says
in which builds the next line exists; the lines of a `match` that exist are its arms, read in order;
the first arm that matches gives the answer.

* `keptLines`: the lines that exist in a build;
* `Line.arm?`, `Line.constant?`: an arm and a constant, read from their lines;
* `valueAnswer?`, `numberAnswer?`: what a lookup answers.

`armsOf_eq` and `constantsOf_eq` say that arms and constants read back as they were written, and
that those are kept whose gates hold.
-/

namespace DescriptionLookup

/-! ### Lines in a build -/

/-- The line is an attribute, which applies to the next line that is none. -/
def Line.isGate (l : Line) : Bool := "#[".toList.isPrefixOf l.text.toList

/-- The lines that exist in a build, where `holds` says which gates hold in it; `live` says whether
the gates in front of the first line do. -/
def keptLines (holds : String → Bool) : (live : Bool) → List Line → List Line
  | _, [] => []
  | live, l :: rest =>
    if l.isGate then keptLines holds (live && holds l.text) rest
    else if live then l :: keptLines holds true rest
    else keptLines holds true rest

/-- The lines of a block: those behind the first that opens it and before the one that closes it. -/
def block (opens closes : Line → Bool) (lines : List Line) : List Line :=
  ((lines.dropWhile (!opens ·)).drop 1).takeWhile (!closes ·)

/-! ### Arms -/

/-- What an arm gives. -/
inductive ArmResult
  | text (text : String)
  /-- The value as it is printed for debugging. -/
  | debug
  /-- The number in decimal notation. -/
  | decimal
deriving DecidableEq

/-- Read what an arm gives. -/
def armResult? (result : List Char) : Option ArmResult :=
  match result.dropPrefix? "Cow::Borrowed(\"".toList with
  | some literal =>
    match Text.readQuoted .text .plain literal with
    | some (text, [')', ',']) => some (.text (String.ofList text))
    | _ => none
  | none =>
    if result = "Cow::Owned(format!(\"\x7bself:?\x7d\")),".toList then some .debug
    else if result = "Cow::Owned(raw.to_string()),".toList then some .decimal
    else none

/-- Read an arm: its pattern, and what it gives. -/
def Line.arm? (l : Line) : Option (String × ArmResult) :=
  match (l.text.toList.dropWhile (· ≠ ' ')).dropPrefix? " => ".toList with
  | some result =>
    (armResult? result).map (String.ofList (l.text.toList.takeWhile (· ≠ ' ')), ·)
  | none => none

/-- The arms of the `match` with this opening line, in the builds where these gates hold. -/
def armsOf (holds : String → Bool) (opening : String) (lines : List Line) :
    Option (List (String × ArmResult)) :=
  (keptLines holds true (block (· == ⟨3, opening⟩) (· == ⟨3, "\x7d"⟩) lines)).mapM Line.arm?

/-! ### Constants -/

/-- Read a constant: its name, and the path of the variant that is its value. -/
def Line.constant? (l : Line) : Option (String × String) :=
  match l.text.toList.splitOn ' ' with
  | [introduction, name, type, equals, variant, cast, last] =>
    if introduction = "const".toList ∧ name.getLast? = some ':' ∧ equals = "=".toList ∧
        cast = "as".toList ∧ last = type ++ [';'] then
      some (String.ofList name.dropLast, String.ofList variant)
    else none
  | _ => none

/-- The line opens a function. -/
def Line.opensFunction (l : Line) : Bool := l.level == 2 && "fn ".toList.isPrefixOf l.text.toList

/-- The constants of a function in front of its `match` with this opening line, in the builds where
these gates hold. -/
def constantsOf (holds : String → Bool) (opening : String) (lines : List Line) :
    Option (List (String × String)) :=
  (keptLines holds true (block Line.opensFunction (· == ⟨3, opening⟩) lines)).mapM Line.constant?

/-! ### Answers -/

/-- The first arm that matches gives the answer. -/
def firstMatch? (fits : String → Bool) (arms : List (String × ArmResult)) : Option ArmResult :=
  (arms.find? fun arm => fits arm.1).map Prod.snd

/-- What the lookup by value gives for a value of the variant with this path. The path of a variant
as a pattern fits its own values, and the low line fits everything. -/
def valueAnswer? (holds : String → Bool) (lines : List Line) (variant : String) :
    Option ArmResult :=
  (armsOf holds "match self \x7b" lines).bind
    (firstMatch? fun pattern => pattern == "_" || pattern == variant)

/-- Whether a pattern fits a number, where the variants have these discriminants. The name of a
constant fits its value. Any other name, like the low line, fits everything. -/
def fitsNumber (constants : List (String × String)) (discriminant : String → Int) (raw : Int)
    (pattern : String) : Bool :=
  match constants.find? (·.1 = pattern) with
  | some (_, variant) => discriminant variant = raw
  | none => true

/-- What the lookup by number gives. -/
def numberAnswer? (holds : String → Bool) (discriminant : String → Int) (lines : List Line)
    (raw : Int) : Option ArmResult := do
  let constants ← constantsOf holds "match raw \x7b" lines
  let arms ← armsOf holds "match raw \x7b" lines
  firstMatch? (fitsNumber constants discriminant raw) arms

/-! ### What is kept -/

section Kept

variable {holds : String → Bool}

theorem keptLines_gateLines {level : Nat} {gates : List String}
    (hgates : ∀ gate ∈ gates, Line.isGate ⟨level, gate⟩ = true) (live : Bool) (rest : List Line) :
    keptLines holds live (gateLines level gates ++ rest) =
      keptLines holds (live && gates.all holds) rest := by
  induction gates generalizing live with
  | nil => simp [gateLines]
  | cons gate more ih =>
    have hcons : gateLines level (gate :: more) ++ rest =
        ⟨level, gate⟩ :: (gateLines level more ++ rest) := rfl
    rw [hcons, keptLines, if_pos (hgates gate List.mem_cons_self),
      ih fun other hother => hgates other (List.mem_cons_of_mem _ hother), List.all_cons,
      Bool.and_assoc]

theorem keptLines_cons {l : Line} (h : l.isGate = false) (live : Bool) (rest : List Line) :
    keptLines holds live (l :: rest) = (if live then [l] else []) ++ keptLines holds true rest := by
  rw [keptLines, if_neg (by simp [h])]
  cases live <;> rfl

/-- Of lines behind gates of their own those are kept whose gates hold. -/
theorem keptLines_flatMap (holds : String → Bool) {α : Type} {level : Nat}
    {gates : α → List String} {line : α → Line} {entries : List α}
    (hgates : ∀ a ∈ entries, ∀ gate ∈ gates a, Line.isGate ⟨level, gate⟩ = true)
    (hline : ∀ a ∈ entries, (line a).isGate = false) (rest : List Line) :
    keptLines holds true
        ((entries.flatMap fun a => gateLines level (gates a) ++ [line a]) ++ rest) =
      (entries.filter fun a => (gates a).all holds).map line ++ keptLines holds true rest := by
  induction entries with
  | nil => rfl
  | cons a more ih =>
    have ih' := ih (fun b hb => hgates b (List.mem_cons_of_mem _ hb))
      fun b hb => hline b (List.mem_cons_of_mem _ hb)
    rw [List.flatMap_cons, List.append_assoc, List.append_assoc,
      keptLines_gateLines (hgates a List.mem_cons_self), List.singleton_append,
      keptLines_cons (hline a List.mem_cons_self), ih', Bool.true_and, List.filter_cons]
    cases (gates a).all holds <;> rfl

/-- The block is what stands between its lines. -/
theorem block_eq {opens closes : Line → Bool} {opening closing : Line}
    {before inner behind : List Line} (hbefore : ∀ l ∈ before, opens l = false)
    (hopening : opens opening = true) (hinner : ∀ l ∈ inner, closes l = false)
    (hclosing : closes closing = true) :
    block opens closes (before ++ opening :: (inner ++ closing :: behind)) = inner := by
  have hdrop : (before ++ opening :: (inner ++ closing :: behind)).dropWhile (!opens ·) =
      opening :: (inner ++ closing :: behind) := by
    rw [List.dropWhile_append_of_pos fun l hl => by simp [hbefore l hl],
      List.dropWhile_cons_of_neg (by simp [hopening])]
  rw [block, hdrop, List.drop_one, List.tail_cons,
    List.takeWhile_append_of_pos fun l hl => by simp [hinner l hl],
    List.takeWhile_cons_of_neg (by simp [hclosing]), List.append_nil]

end Kept

/-! ### What is read -/

/-- The line of an arm behind its gates. -/
def Arm.line (a : Arm) : Line :=
  ⟨4, a.pattern ++ " => Cow::Borrowed(" ++ Text.quoted a.description ++ "),"⟩

/-- The line of a constant behind its gates. -/
def NumberConstant.line (numberType : String) (c : NumberConstant) : Line :=
  ⟨3, "const " ++ c.name ++ ": " ++ numberType ++ " = " ++ c.variant ++ " as " ++ numberType ++ ";"⟩

theorem armResult?_borrowed (text : String) :
    armResult? ("Cow::Borrowed(".toList ++ (Text.quoted text).toList ++ "),".toList) =
      some (.text text) := by
  have hquoted : "Cow::Borrowed(".toList ++ (Text.quoted text).toList ++ "),".toList =
      "Cow::Borrowed(\"".toList ++ (Text.escapeAll text.toList ++ '\x22' :: "),".toList) := by
    simp [Text.quoted]
  rw [hquoted, armResult?, List.dropPrefix?_append_of_beq _ (beq_self_eq_true _)]
  simp only [Text.readQuoted_escapeAll]
  simp

theorem arm?_line {a : Arm} (h : ' ' ∉ a.pattern.toList) :
    a.line.arm? = some (a.pattern, .text a.description) := by
  have hline : a.line.text.toList = a.pattern.toList ++ (" => ".toList ++
      ("Cow::Borrowed(".toList ++ (Text.quoted a.description).toList ++ "),".toList)) := by
    simp [Arm.line]
  have hpattern : ∀ c ∈ a.pattern.toList, decide (c ≠ ' ') = true := by
    intro c hc
    simpa using fun heq : c = ' ' => h (heq ▸ hc)
  rw [Line.arm?, hline, List.dropWhile_append_of_pos hpattern,
    List.takeWhile_append_of_pos hpattern]
  generalize hresult : "Cow::Borrowed(".toList ++ (Text.quoted a.description).toList ++
    "),".toList = result
  have hdrop : (" => ".toList ++ result).dropWhile (· ≠ ' ') = " => ".toList ++ result := rfl
  have htake : (" => ".toList ++ result).takeWhile (· ≠ ' ') = [] := rfl
  rw [hdrop, htake, List.dropPrefix?_append_of_beq _ (beq_self_eq_true _), ← hresult]
  simp only [armResult?_borrowed, Option.map_some, List.append_nil, String.ofList_toList]

theorem constant?_line {c : NumberConstant} {numberType : String} (hname : ' ' ∉ c.name.toList)
    (hvariant : ' ' ∉ c.variant.toList) (htype : ' ' ∉ numberType.toList) :
    (c.line numberType).constant? = some (c.name, c.variant) := by
  have hwords : (c.line numberType).text.toList.splitOn ' ' =
      ["const".toList, c.name.toList ++ [':'], numberType.toList, ['='], c.variant.toList,
        "as".toList, numberType.toList ++ [';']] := by
    have hspaced : (c.line numberType).text.toList = [' '].intercalate
        ["const".toList, c.name.toList ++ [':'], numberType.toList, ['='], c.variant.toList,
          "as".toList, numberType.toList ++ [';']] := by
      simp [NumberConstant.line, List.intercalate]
    rw [hspaced, List.splitOn_intercalate]
    · simp [hname, hvariant, htype]
    · simp
  rw [Line.constant?, hwords]
  simp

/-! ### Whole lookups -/

theorem mapM_eq_some_map {α β : Type} {f : α → Option β} {g : α → β} {as : List α}
    (h : ∀ a ∈ as, f a = some (g a)) : as.mapM f = some (as.map g) := by
  induction as with
  | nil => rfl
  | cons a rest ih =>
    rw [List.mapM_cons, h a List.mem_cons_self,
      ih fun b hb => h b (List.mem_cons_of_mem _ hb)]
    rfl

section Lookups

variable {holds : String → Bool}

theorem level_of_mem_gateLines {level : Nat} {gates : List String} {l : Line}
    (h : l ∈ gateLines level gates) : l.level = level := by
  obtain ⟨gate, -, rfl⟩ := List.mem_map.1 h
  rfl

/-- The arms of a lookup that exist in a build, and the arm for everything else. -/
theorem armsOf_eq {opening : String} {before behind : List Line} {arms : List Arm} {last : String}
    {final : ArmResult} (hbefore : ⟨3, opening⟩ ∉ before)
    (hgates : ∀ a ∈ arms, ∀ gate ∈ a.gates, Line.isGate ⟨4, gate⟩ = true)
    (hline : ∀ a ∈ arms, a.line.isGate = false)
    (hpattern : ∀ a ∈ arms, ' ' ∉ a.pattern.toList)
    (hlast : Line.isGate ⟨4, last⟩ = false) (hfinal : Line.arm? ⟨4, last⟩ = some ("_", final)) :
    armsOf holds opening (before ++ ⟨3, opening⟩ ::
        ((arms.flatMap Arm.lines ++ [⟨4, last⟩]) ++ ⟨3, "\x7d"⟩ :: behind)) =
      some ((arms.filter fun a => a.gates.all holds).map
        (fun a => (a.pattern, .text a.description)) ++ [("_", final)]) := by
  have hlevel : ∀ l ∈ arms.flatMap Arm.lines ++ [⟨4, last⟩], l.level = 4 := by
    intro l hl
    rcases List.mem_append.1 hl with hl | hl
    · obtain ⟨a, -, hl⟩ := List.mem_flatMap.1 hl
      rcases List.mem_append.1 hl with hl | hl
      · exact level_of_mem_gateLines hl
      · rw [List.mem_singleton.1 hl]
    · rw [List.mem_singleton.1 hl]
  have hblock : block (· == ⟨3, opening⟩) (· == ⟨3, "\x7d"⟩) (before ++ ⟨3, opening⟩ ::
      ((arms.flatMap Arm.lines ++ [⟨4, last⟩]) ++ ⟨3, "\x7d"⟩ :: behind)) =
      arms.flatMap Arm.lines ++ [⟨4, last⟩] := by
    refine block_eq (fun l hl => ?_) (beq_self_eq_true _) (fun l hl => ?_) (beq_self_eq_true _)
    · exact beq_false_of_ne fun heq => hbefore (heq ▸ hl)
    · exact beq_false_of_ne fun heq => by simpa [heq] using hlevel l hl
  have hkept := keptLines_flatMap holds hgates hline [⟨4, last⟩]
  have harms : (arms.filter fun a => a.gates.all holds).mapM (fun a => a.line.arm?) =
      some ((arms.filter fun a => a.gates.all holds).map fun a =>
        (a.pattern, .text a.description)) :=
    mapM_eq_some_map fun a ha => arm?_line (hpattern a (List.mem_filter.1 ha).1)
  rw [armsOf, hblock]
  refine (congrArg (List.mapM Line.arm?) hkept).trans ?_
  rw [keptLines_cons hlast, if_pos rfl, keptLines, List.append_nil, List.mapM_append, List.mapM_map]
  refine (congrArg (· >>= _) harms).trans ?_
  rw [Option.bind_eq_bind, Option.bind_some, List.mapM_cons, hfinal]
  rfl

theorem isGate_line (c : NumberConstant) (numberType : String) :
    (c.line numberType).isGate = false := by
  simp [Line.isGate, NumberConstant.line, List.isPrefixOf]

/-- The constants of a lookup that exist in a build. -/
theorem constantsOf_eq {opening : String} {before behind : List Line} {function : Line}
    {constants : List NumberConstant} {numberType : String}
    (hbefore : ∀ l ∈ before, l.opensFunction = false) (hfunction : function.opensFunction = true)
    (hopening : ∀ c ∈ constants, ⟨3, opening⟩ ∉ c.lines numberType)
    (hgates : ∀ c ∈ constants, ∀ gate ∈ c.gates, Line.isGate ⟨3, gate⟩ = true)
    (hname : ∀ c ∈ constants, ' ' ∉ c.name.toList)
    (hvariant : ∀ c ∈ constants, ' ' ∉ c.variant.toList) (htype : ' ' ∉ numberType.toList) :
    constantsOf holds opening (before ++ function :: (constants.flatMap (·.lines numberType) ++
        ⟨3, opening⟩ :: behind)) =
      some ((constants.filter fun c => c.gates.all holds).map fun c => (c.name, c.variant)) := by
  have hblock : block Line.opensFunction (· == ⟨3, opening⟩) (before ++ function ::
      (constants.flatMap (·.lines numberType) ++ ⟨3, opening⟩ :: behind)) =
      constants.flatMap (·.lines numberType) := by
    refine block_eq hbefore hfunction (fun l hl => ?_) (beq_self_eq_true _)
    obtain ⟨c, hc, hl⟩ := List.mem_flatMap.1 hl
    exact beq_false_of_ne fun heq => hopening c hc (heq ▸ hl)
  have hkept := keptLines_flatMap holds hgates (fun c _ => isGate_line c numberType) []
  rw [List.append_nil, keptLines, List.append_nil] at hkept
  rw [constantsOf, hblock]
  refine (congrArg (List.mapM Line.constant?) hkept).trans ?_
  rw [List.mapM_map]
  refine mapM_eq_some_map (g := fun c : NumberConstant => (c.name, c.variant)) fun c hc => ?_
  have hmem := (List.mem_filter.1 hc).1
  show (c.line numberType).constant? = _
  exact constant?_line (hname c hmem) (hvariant c hmem) htype

end Lookups

end DescriptionLookup
