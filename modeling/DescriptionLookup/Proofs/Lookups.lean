import DescriptionLookup.Proofs.Bodies
import DescriptionLookup.Proofs.EmittedCode
import DescriptionLookup.Proofs.Selections
import Mathlib.Data.List.Basic

/-!
# What lookups answer

The arms of a lookup, its constants and their gates are written one after the other, each from the
list of members. This is what comes of it in a build, when the lines are run:

* the lookup by value answers with the text of the variant, or prints a value that carries data;
* the lookup by number answers with the text of the variant that has the number, or prints the
  number;
* the constant that an arm names exists wherever the arm does, and stands for the same variant.

`MarkedEnum.lookup_meaning` says so for every marked enum and every build.
-/

namespace DescriptionLookup

/-! ### Variants -/

namespace Variant

/-- Whether the variant exists in a build. -/
def isEnabled (v : Variant) (holds : String → Bool) : Bool := (gates v.attributes).all holds

/-- The text that describes the variant. -/
def description (v : Variant) (textAttribute : String) : String :=
  (describedBy? v.attributes textAttribute).getD (unraw v.name)

/-- The member that a variant without data is. -/
def member (textAttribute : String) (v : Variant) : Member where
  name := unraw v.name
  text? := describedBy? v.attributes textAttribute
  pattern := v.name
  gates := gates v.attributes

@[simp] theorem description_member (v : Variant) (textAttribute : String) :
    (v.member textAttribute).description = v.description textAttribute := rfl

end Variant

namespace EnumDecl

/-- The variants without data. -/
def units (decl : EnumDecl) : List Variant := decl.variants.filter (·.isUnit)

/-- The variants without data that exist in a build, each with its index among those without. -/
def numbered (decl : EnumDecl) (holds : String → Bool) : List (Variant × Nat) :=
  decl.units.zipIdx.filter (·.1.isEnabled holds)

/-- The variants that exist in a build. -/
def enabled (decl : EnumDecl) (holds : String → Bool) : List Variant :=
  decl.variants.filter (·.isEnabled holds)

theorem members_eq (decl : EnumDecl) (textAttribute : String) :
    decl.members textAttribute = decl.units.map (Variant.member textAttribute) := by
  rw [members, units, ← List.filterMap_eq_map, List.filterMap_filter]
  rfl

variable {decl : EnumDecl} {holds : String → Bool}

theorem mem_enabled {v : Variant} :
    v ∈ decl.enabled holds ↔ v ∈ decl.variants ∧ v.isEnabled holds = true :=
  List.mem_filter

theorem mem_units_filter {v : Variant} :
    v ∈ decl.units.filter (·.isEnabled holds) ↔ v ∈ decl.enabled holds ∧ v.isUnit = true := by
  rw [List.mem_filter, units, List.mem_filter, mem_enabled]
  exact and_right_comm

theorem map_fst_numbered (decl : EnumDecl) (holds : String → Bool) :
    (decl.numbered holds).map Prod.fst = decl.units.filter (·.isEnabled holds) := by
  rw [← List.zipIdx_map_fst 0 decl.units, List.filter_map, numbered]
  rfl

theorem mem_enabled_of_mem_numbered {a : Variant × Nat} (h : a ∈ decl.numbered holds) :
    a.1 ∈ decl.enabled holds := by
  have hmem := List.mem_map_of_mem (f := Prod.fst) h
  rw [map_fst_numbered] at hmem
  exact (mem_units_filter.1 hmem).1

theorem nodup_map_snd_numbered (decl : EnumDecl) (holds : String → Bool) :
    ((decl.numbered holds).map Prod.snd).Nodup := by
  have hall : (decl.units.zipIdx.map Prod.snd).Nodup := by
    rw [List.zipIdx_map_snd]
    exact List.nodup_range'
  exact hall.sublist (List.filter_sublist.map Prod.snd)

theorem nodup_map_name_units (h : ((decl.enabled holds).map Variant.name).Nodup) :
    ((decl.units.filter (·.isEnabled holds)).map Variant.name).Nodup := by
  rw [units, List.filter_comm]
  exact h.sublist (List.filter_sublist.map Variant.name)

end EnumDecl

theorem isGate_of_mem_gates {attributes : List Attribute} {gate : String}
    (h : gate ∈ gates attributes) (level : Nat) : Line.isGate ⟨level, gate⟩ = true := by
  obtain ⟨a, -, rfl⟩ := List.mem_map.1 h
  simp [Line.isGate, Attribute.text, List.isPrefixOf]

/-! ### Arms that match -/

/-- Among arms with the low line behind them, the first that fits gives the answer, or else the last
one does. -/
theorem firstMatch?_map_append {α : Type} {fits : String → Bool} (hlast : fits "_" = true)
    (entries : List α) (pattern : α → String) (result : α → ArmResult) (final : ArmResult) :
    firstMatch? fits (entries.map (fun a => (pattern a, result a)) ++ [("_", final)]) =
      some (((entries.find? fun a => fits (pattern a)).map result).getD final) := by
  rw [firstMatch?, List.find?_append, List.find?_map]
  have hfits : (fun arm : String × ArmResult => fits arm.1) ∘
      (fun a => (pattern a, result a)) = fun a => fits (pattern a) := rfl
  rw [hfits]
  cases entries.find? fun a => fits (pattern a) with
  | none => simp [hlast]
  | some a => rfl

/-! ### Number types -/

theorem declaredNumberType?_mem {a : Attribute} {numberType : String}
    (h : declaredNumberType? a = some numberType) : numberType ∈ numberTypes := by
  unfold declaredNumberType? at h
  generalize (Grammar.listArgument? Grammar.attributeBody a).getD [] = elements at h
  obtain ⟨element, -, helement⟩ := List.exists_of_findSome?_eq_some h
  exact List.contains_iff_mem.1 (Option.filter_eq_some_iff.1 helement).2

theorem EnumDecl.numberType?_mem {decl : EnumDecl} {numberType : String}
    (h : decl.numberType? = some numberType) : numberType ∈ numberTypes := by
  unfold EnumDecl.numberType? at h
  split at h
  · cases hdeclared : (decl.attributes.filter (·.isNamed "repr")).findSome? declaredNumberType? with
    | none =>
      rw [hdeclared] at h
      cases h
      decide
    | some declared =>
      rw [hdeclared] at h
      obtain ⟨a, -, ha⟩ := List.exists_of_findSome?_eq_some hdeclared
      cases h
      exact declaredNumberType?_mem ha
  · cases h

theorem blank_notMem_numberType {numberType : String} (h : numberType ∈ numberTypes) :
    ' ' ∉ numberType.toList := by
  have hall : ∀ name ∈ numberTypes, ' ' ∉ name.toList := by decide
  exact hall numberType h

/-! ### Names of constants -/

theorem constantName_injective {i j : Nat}
    (h : EnumLookup.constantName i = EnumLookup.constantName j) : i = j := by
  have hrepr : Nat.repr i = Nat.repr j := (String.append_right_inj _).1 h
  have hdigits := congrArg (fun s => Nat.ofDigitChars 10 s.toList 0) hrepr
  simpa [Nat.repr, Nat.ofDigitChars_toDigits] using hdigits

theorem blank_notMem_constantName (i : Nat) : ' ' ∉ (EnumLookup.constantName i).toList := by
  have hdigits : ' ' ∉ Nat.toDigits 10 i := fun h =>
    absurd (Nat.isDigit_of_mem_toDigits (by decide) (by decide) h) (by decide)
  simpa [EnumLookup.constantName, Nat.repr] using hdigits

namespace MarkedEnum

/-- The path of a variant. -/
def variantPath (e : MarkedEnum) (v : Variant) : String := e.symbol.text ++ "::" ++ v.name

/-- The names on the way to the variants of an enum are written without blanks, as all names are. -/
def HasNames (e : MarkedEnum) : Prop :=
  ∀ name ∈ e.symbol.segments ++ e.decl.variants.map Variant.name, ' ' ∉ name.toList

variable {e : MarkedEnum} {textAttribute : String}

theorem valueArms_lookup : (e.lookup textAttribute).valueArms =
    e.decl.units.map fun v =>
      ⟨DescriptionLookup.gates v.attributes, e.variantPath v, v.description textAttribute⟩ := by
  simp only [EnumLookup.valueArms, lookup, EnumLookup.ofDecl, EnumDecl.members_eq, List.map_map]
  rfl

theorem constants_lookup : (e.lookup textAttribute).constants =
    e.decl.units.zipIdx.map fun a =>
      ⟨DescriptionLookup.gates a.1.attributes, EnumLookup.constantName a.2, e.variantPath a.1⟩ := by
  simp only [EnumLookup.constants, lookup, EnumLookup.ofDecl, EnumDecl.members_eq,
    List.mapIdx_eq_zipIdx_map, List.zipIdx_map, List.map_map]
  rfl

theorem numberArms_lookup : (e.lookup textAttribute).numberArms =
    e.decl.units.zipIdx.map fun a =>
      ⟨DescriptionLookup.gates a.1.attributes, EnumLookup.constantName a.2,
        a.1.description textAttribute⟩ := by
  simp only [EnumLookup.numberArms, lookup, EnumLookup.ofDecl, EnumDecl.members_eq,
    List.mapIdx_eq_zipIdx_map, List.zipIdx_map, List.map_map]
  rfl

/-- The path of a variant begins with the word for the crate. -/
theorem toList_variantPath (hhere : e.symbol.home = .here) (v : Variant) :
    (e.variantPath v).toList = "crate".toList ++
      (e.symbol.segments.flatMap (fun name => "::".toList ++ name.toList) ++ "::".toList ++
        v.name.toList) := by
  simp [variantPath, Symbol.text, Symbol.crate?, hhere, ModulePath.separated, String.toList_join,
    List.flatMap_map]

theorem blank_notMem_variantPath (hhere : e.symbol.home = .here) (hnames : e.HasNames)
    {v : Variant} (hv : v ∈ e.decl.variants) : ' ' ∉ (e.variantPath v).toList := by
  have hsegments : ∀ name ∈ e.symbol.segments, ' ' ∉ name.toList := fun name hname =>
    hnames name (List.mem_append_left _ hname)
  have hname : ' ' ∉ v.name.toList :=
    hnames v.name (List.mem_append_right _ (List.mem_map_of_mem hv))
  rw [toList_variantPath hhere]
  simpa [hname] using hsegments

theorem variantPath_inj {v w : Variant} : e.variantPath v = e.variantPath w ↔ v.name = w.name :=
  String.append_right_inj _

/-! ### Arms and constants in a build -/

variable {holds : String → Bool}

theorem level_of_mem_valueHeader {lookup : EnumLookup} {l : Line} (h : l ∈ lookup.valueHeader) :
    l.level ≠ 3 := by
  unfold EnumLookup.valueHeader at h
  split at h
  · simp [List.mem_singleton.1 h]
  · simp only [List.mem_append, List.mem_cons, List.mem_map, List.not_mem_nil, or_false] at h
    rcases h with ((rfl | rfl | rfl) | ⟨predicate, -, rfl⟩) | rfl <;> simp

/-- The arms of the lookup by value. -/
theorem armsOf_valueLines (hhere : e.symbol.home = .here) (hnames : e.HasNames) :
    armsOf holds "match self \x7b" (e.lookup textAttribute).valueLines =
      some ((e.decl.units.filter (·.isEnabled holds)).map
        (fun v => (e.variantPath v, .text (v.description textAttribute))) ++
          [("_", .debug)]) := by
  have hlines : (e.lookup textAttribute).valueLines =
      (gateLines 1 e.gates ++ (e.lookup textAttribute).valueHeader ++
        [⟨2, "fn description(&self) -> Cow<'static, str> \x7b"⟩]) ++ ⟨3, "match self \x7b"⟩ ::
          (((e.lookup textAttribute).valueArms.flatMap Arm.lines ++
            [⟨4, "_ => Cow::Owned(format!(\"\x7bself:?\x7d\")),"⟩]) ++ ⟨3, "\x7d"⟩ ::
              [⟨2, "\x7d"⟩, ⟨1, "\x7d"⟩]) := by
    simp [EnumLookup.valueLines, lookup, EnumLookup.ofDecl]
  have hbefore : ⟨3, "match self \x7b"⟩ ∉ gateLines 1 e.gates ++
      (e.lookup textAttribute).valueHeader ++
        [⟨2, "fn description(&self) -> Cow<'static, str> \x7b"⟩] := by
    intro h
    rcases List.mem_append.1 h with h | h
    · rcases List.mem_append.1 h with h | h
      · exact absurd (level_of_mem_gateLines h) (by decide)
      · exact level_of_mem_valueHeader h rfl
    · exact absurd (congrArg Line.level (List.mem_singleton.1 h)) (by decide)
  have harms : ∀ a ∈ (e.lookup textAttribute).valueArms, ∃ v ∈ e.decl.variants,
      a = ⟨DescriptionLookup.gates v.attributes, e.variantPath v, v.description textAttribute⟩ := by
    intro a ha
    rw [valueArms_lookup] at ha
    obtain ⟨v, hv, rfl⟩ := List.mem_map.1 ha
    exact ⟨v, List.mem_of_mem_filter hv, rfl⟩
  have hfinal : Line.arm? ⟨4, "_ => Cow::Owned(format!(\"\x7bself:?\x7d\")),"⟩ =
      some ("_", .debug) := by decide +kernel
  rw [hlines, armsOf_eq hbefore ?_ ?_ ?_ (by decide) hfinal, valueArms_lookup, List.filter_map,
    List.map_map]
  · rfl
  · intro a ha gate hgate
    obtain ⟨v, -, rfl⟩ := harms a ha
    exact isGate_of_mem_gates hgate 4
  · intro a ha
    obtain ⟨v, -, rfl⟩ := harms a ha
    simp [Line.isGate, Arm.line, toList_variantPath hhere, List.isPrefixOf]
  · intro a ha
    obtain ⟨v, hv, rfl⟩ := harms a ha
    exact blank_notMem_variantPath hhere hnames hv

/-- The lines of the lookup by number: what is in front of its function, the function, the
constants, and the `match` with its arms. -/
theorem numberLines_lookup (numberType : String) :
    (e.lookup textAttribute).numberLines numberType =
      (gateLines 1 e.gates ++
        [⟨1, "impl DescribeDiscriminant for " ++ e.symbol.text ++ " \x7b"⟩,
          ⟨2, "type Repr = " ++ numberType ++ ";"⟩, ⟨0, ""⟩]) ++
      ⟨2, "fn describe_discriminant(raw: " ++ numberType ++ ") -> Cow<'static, str> \x7b"⟩ ::
        ((e.lookup textAttribute).constants.flatMap (·.lines numberType) ++
          ⟨3, "match raw \x7b"⟩ :: (((e.lookup textAttribute).numberArms.flatMap Arm.lines ++
            [⟨4, "_ => Cow::Owned(raw.to_string()),"⟩]) ++ ⟨3, "\x7d"⟩ ::
              [⟨2, "\x7d"⟩, ⟨1, "\x7d"⟩])) := by
  simp [EnumLookup.numberLines, lookup, EnumLookup.ofDecl]

theorem opensFunction_eq_false {gates : List String} {path numberType : String} {l : Line}
    (h : l ∈ gateLines 1 gates ++
      [⟨1, "impl DescribeDiscriminant for " ++ path ++ " \x7b"⟩,
        ⟨2, "type Repr = " ++ numberType ++ ";"⟩, ⟨0, ""⟩]) :
    l.opensFunction = false ∧ l.level ≠ 3 := by
  rcases List.mem_append.1 h with h | h
  · simp [Line.opensFunction, level_of_mem_gateLines h]
  · simp only [List.mem_cons, List.not_mem_nil, or_false] at h
    rcases h with rfl | rfl | rfl <;> simp [Line.opensFunction, List.isPrefixOf]

theorem mem_constants_lookup {c : NumberConstant} (h : c ∈ (e.lookup textAttribute).constants) :
    ∃ v ∈ e.decl.variants, ∃ i,
      c = ⟨DescriptionLookup.gates v.attributes, EnumLookup.constantName i, e.variantPath v⟩ := by
  rw [constants_lookup] at h
  obtain ⟨⟨v, i⟩, ha, rfl⟩ := List.mem_map.1 h
  exact ⟨v, List.mem_of_mem_filter (List.fst_mem_of_mem_zipIdx ha), i, rfl⟩

theorem opening_notMem_lines {c : NumberConstant} (h : c ∈ (e.lookup textAttribute).constants)
    (numberType : String) : ⟨3, "match raw \x7b"⟩ ∉ c.lines numberType := by
  obtain ⟨v, -, i, rfl⟩ := mem_constants_lookup h
  intro hmem
  rcases List.mem_append.1 hmem with hmem | hmem
  · obtain ⟨gate, hgate, heq⟩ := List.mem_map.1 hmem
    exact absurd (heq ▸ isGate_of_mem_gates hgate 3) (by decide)
  · have heq := congrArg (fun l : Line => l.text.toList.head?) (List.mem_singleton.1 hmem)
    simp at heq

/-- The constants of the lookup by number. -/
theorem constantsOf_numberLines (hhere : e.symbol.home = .here) (hnames : e.HasNames)
    {numberType : String} (htype : numberType ∈ numberTypes) :
    constantsOf holds "match raw \x7b" ((e.lookup textAttribute).numberLines numberType) =
      some ((e.decl.numbered holds).map
        fun a => (EnumLookup.constantName a.2, e.variantPath a.1)) := by
  have hfunction : Line.opensFunction
      ⟨2, "fn describe_discriminant(raw: " ++ numberType ++ ") -> Cow<'static, str> \x7b"⟩ =
        true := by
    simp [Line.opensFunction, List.isPrefixOf]
  rw [numberLines_lookup, constantsOf_eq (fun l hl => (opensFunction_eq_false hl).1) hfunction
    (fun c hc => opening_notMem_lines hc numberType) ?_ ?_ ?_ (blank_notMem_numberType htype),
    constants_lookup, List.filter_map, List.map_map]
  · rfl
  · intro c hc gate hgate
    obtain ⟨v, -, i, rfl⟩ := mem_constants_lookup hc
    exact isGate_of_mem_gates hgate 3
  · intro c hc
    obtain ⟨v, -, i, rfl⟩ := mem_constants_lookup hc
    exact blank_notMem_constantName i
  · intro c hc
    obtain ⟨v, hv, i, rfl⟩ := mem_constants_lookup hc
    exact blank_notMem_variantPath hhere hnames hv

/-- The arms of the lookup by number. -/
theorem armsOf_numberLines (numberType : String) :
    armsOf holds "match raw \x7b" ((e.lookup textAttribute).numberLines numberType) =
      some ((e.decl.numbered holds).map
        (fun a => (EnumLookup.constantName a.2, .text (a.1.description textAttribute))) ++
          [("_", .decimal)]) := by
  have harms : ∀ a ∈ (e.lookup textAttribute).numberArms, ∃ (v : Variant) (i : Nat),
      a = ⟨DescriptionLookup.gates v.attributes, EnumLookup.constantName i,
        v.description textAttribute⟩ := by
    intro a ha
    rw [numberArms_lookup] at ha
    obtain ⟨⟨v, i⟩, -, rfl⟩ := List.mem_map.1 ha
    exact ⟨v, i, rfl⟩
  have hfinal : Line.arm? ⟨4, "_ => Cow::Owned(raw.to_string()),"⟩ = some ("_", .decimal) := by
    decide +kernel
  rw [numberLines_lookup, ← List.cons_append, ← List.append_assoc,
    armsOf_eq ?_ ?_ ?_ ?_ (by decide) hfinal, numberArms_lookup, List.filter_map, List.map_map]
  · rfl
  · intro h
    rcases List.mem_append.1 h with h | h
    · exact (opensFunction_eq_false h).2 rfl
    · rcases List.mem_cons.1 h with h | h
      · exact absurd (congrArg Line.level h) (by simp)
      · obtain ⟨c, hc, hl⟩ := List.mem_flatMap.1 h
        exact opening_notMem_lines hc numberType hl
  · intro a ha gate hgate
    obtain ⟨v, i, rfl⟩ := harms a ha
    exact isGate_of_mem_gates hgate 4
  · intro a ha
    obtain ⟨v, i, rfl⟩ := harms a ha
    simp [Line.isGate, Arm.line, EnumLookup.constantName, List.isPrefixOf]
  · intro a ha
    obtain ⟨v, i, rfl⟩ := harms a ha
    exact blank_notMem_constantName i

/-! ### Answers -/

theorem variantPath_ne_low_line (hhere : e.symbol.home = .here) (v : Variant) :
    e.variantPath v ≠ "_" := by
  intro h
  have hfirst := congrArg List.head? (toList_variantPath hhere v ▸ congrArg String.toList h)
  simp at hfirst

/-- The lookup by value describes a value without data by the text of its variant, and prints any
other. -/
theorem valueAnswer?_valueLines (hhere : e.symbol.home = .here) (hnames : e.HasNames)
    (hdistinct : ((e.decl.enabled holds).map Variant.name).Nodup) {v : Variant}
    (hv : v ∈ e.decl.enabled holds) :
    valueAnswer? holds (e.lookup textAttribute).valueLines (e.variantPath v) =
      some (if v.isUnit then .text (v.description textAttribute) else .debug) := by
  have hfits : ∀ w, (e.variantPath w == "_" || e.variantPath w == e.variantPath v) =
      decide (w.name = v.name) := by
    intro w
    have hlow := beq_false_of_ne (variantPath_ne_low_line hhere w)
    rw [hlow, Bool.false_or]
    by_cases hname : w.name = v.name
    · rw [decide_eq_true hname, variantPath_inj.2 hname, beq_self_eq_true]
    · rw [decide_eq_false hname, beq_false_of_ne (hname ∘ variantPath_inj.1)]
  rw [valueAnswer?, armsOf_valueLines hhere hnames, Option.bind_some, firstMatch?_map_append rfl]
  simp only [hfits]
  by_cases hunit : v.isUnit = true
  · have hfind := find?_eq_some_of_nodup_map (p := fun w => decide (w.name = v.name))
      (EnumDecl.nodup_map_name_units hdistinct) (EnumDecl.mem_units_filter.2 ⟨hv, hunit⟩)
      (decide_eq_true rfl) fun w _ hw => of_decide_eq_true hw
    rw [hfind, if_pos hunit]
    rfl
  · have hfind : (e.decl.units.filter (·.isEnabled holds)).find?
        (fun w => decide (w.name = v.name)) = none := by
      refine List.find?_eq_none.2 fun w hw hname => hunit ?_
      -- a variant without data of this name would be the same variant
      obtain ⟨hw, hwunit⟩ := EnumDecl.mem_units_filter.1 hw
      rwa [← List.inj_on_of_nodup_map hdistinct hw hv (of_decide_eq_true hname)]
    rw [hfind, if_neg hunit]
    rfl

/-- The constants of the lookup by number that exist in a build. -/
def constantsIn (e : MarkedEnum) (holds : String → Bool) : List (String × String) :=
  (e.decl.numbered holds).map fun a => (EnumLookup.constantName a.2, e.variantPath a.1)

/-- A constant is found by its name. -/
theorem find?_constantsIn {a : Variant × Nat} (ha : a ∈ e.decl.numbered holds) :
    (e.constantsIn holds).find? (·.1 = EnumLookup.constantName a.2) =
      some (EnumLookup.constantName a.2, e.variantPath a.1) := by
  have hnodup : ((e.constantsIn holds).map Prod.fst).Nodup := by
    have hnames : (e.constantsIn holds).map Prod.fst =
        ((e.decl.numbered holds).map Prod.snd).map EnumLookup.constantName := by
      simp only [constantsIn, List.map_map]
      rfl
    rw [hnames]
    exact (EnumDecl.nodup_map_snd_numbered e.decl holds).map fun _ _ => constantName_injective
  exact find?_eq_some_of_nodup_map hnodup (List.mem_map_of_mem ha) (decide_eq_true rfl)
    fun c _ hc => of_decide_eq_true hc

/-- The pattern of an arm fits the number of its own variant. -/
theorem fitsNumber_constantName {a : Variant × Nat} (ha : a ∈ e.decl.numbered holds)
    (discriminant : String → Int) (raw : Int) :
    fitsNumber (e.constantsIn holds) discriminant raw (EnumLookup.constantName a.2) =
      decide (discriminant (e.variantPath a.1) = raw) := by
  rw [fitsNumber, find?_constantsIn ha]

theorem fitsNumber_low_line (discriminant : String → Int) (raw : Int) :
    fitsNumber (e.constantsIn holds) discriminant raw "_" = true := by
  have hfind : (e.constantsIn holds).find? (·.1 = "_") = none := by
    refine List.find?_eq_none.2 fun c hc hname => ?_
    obtain ⟨a, -, rfl⟩ := List.mem_map.1 hc
    have hfirst := congrArg (fun s => s.toList.head?) (of_decide_eq_true hname)
    simp [EnumLookup.constantName] at hfirst
  rw [fitsNumber, hfind]

/-- The lookup by number answers with the first variant whose constant fits the number. -/
theorem numberAnswer?_eq (hhere : e.symbol.home = .here) (hnames : e.HasNames)
    {numberType : String} (htype : numberType ∈ numberTypes) (discriminant : String → Int)
    (raw : Int) :
    numberAnswer? holds discriminant ((e.lookup textAttribute).numberLines numberType) raw =
      some ((((e.decl.numbered holds).find? fun a =>
        fitsNumber (e.constantsIn holds) discriminant raw (EnumLookup.constantName a.2)).map
          fun a => .text (a.1.description textAttribute)).getD .decimal) := by
  rw [numberAnswer?, constantsOf_numberLines hhere hnames htype, armsOf_numberLines]
  exact firstMatch?_map_append (fitsNumber_low_line discriminant raw) _ _ _ _

/-- The lookup by number describes the number of a variant by the text of the variant. -/
theorem numberAnswer?_discriminant (hhere : e.symbol.home = .here) (hnames : e.HasNames)
    (hdistinct : ((e.decl.enabled holds).map Variant.name).Nodup) {numberType : String}
    (htype : numberType ∈ numberTypes) {discriminant : String → Int}
    (hinjective : ∀ v ∈ e.decl.enabled holds, ∀ w ∈ e.decl.enabled holds,
      discriminant (e.variantPath v) = discriminant (e.variantPath w) → v.name = w.name)
    {v : Variant} (hv : v ∈ e.decl.enabled holds) (hunit : v.isUnit = true) :
    numberAnswer? holds discriminant ((e.lookup textAttribute).numberLines numberType)
        (discriminant (e.variantPath v)) =
      some (.text (v.description textAttribute)) := by
  have hmem := EnumDecl.mem_units_filter.2 ⟨hv, hunit⟩
  rw [← EnumDecl.map_fst_numbered] at hmem
  obtain ⟨a, ha, rfl⟩ := List.mem_map.1 hmem
  have hnodup : ((e.decl.numbered holds).map fun a => a.1.name).Nodup := by
    have hmap := EnumDecl.nodup_map_name_units hdistinct
    rwa [← EnumDecl.map_fst_numbered, List.map_map] at hmap
  have hfind := find?_eq_some_of_nodup_map
    (p := fun b => fitsNumber (e.constantsIn holds) discriminant
      (discriminant (e.variantPath a.1)) (EnumLookup.constantName b.2)) hnodup ha
    (by rw [fitsNumber_constantName ha, decide_eq_true rfl]) fun b hb hfits => by
      rw [fitsNumber_constantName hb] at hfits
      exact hinjective b.1 (EnumDecl.mem_enabled_of_mem_numbered hb) a.1 hv
        (of_decide_eq_true hfits)
  rw [numberAnswer?_eq hhere hnames htype, hfind]
  rfl

/-- The lookup by number prints a number that no variant has. -/
theorem numberAnswer?_of_forall_ne (hhere : e.symbol.home = .here) (hnames : e.HasNames)
    {numberType : String} (htype : numberType ∈ numberTypes) {discriminant : String → Int}
    {raw : Int} (hraw : ∀ v ∈ e.decl.enabled holds, discriminant (e.variantPath v) ≠ raw) :
    numberAnswer? holds discriminant ((e.lookup textAttribute).numberLines numberType) raw =
      some .decimal := by
  have hfind : (e.decl.numbered holds).find? (fun a => fitsNumber (e.constantsIn holds)
      discriminant raw (EnumLookup.constantName a.2)) = none := by
    refine List.find?_eq_none.2 fun a ha hfits => ?_
    rw [fitsNumber_constantName ha] at hfits
    exact hraw a.1 (EnumDecl.mem_enabled_of_mem_numbered ha) (of_decide_eq_true hfits)
  rw [numberAnswer?_eq hhere hnames htype, hfind]
  rfl

/-- The constant that an arm names exists with the arm, and stands for the variant that the arm
describes. -/
theorem exists_constant {arm : String × ArmResult}
    (harm : arm ∈ (e.decl.numbered holds).map
      (fun a => (EnumLookup.constantName a.2, .text (a.1.description textAttribute))) ++
        [("_", .decimal)]) (hlow : arm.1 ≠ "_") :
    ∃ v ∈ e.decl.enabled holds, arm.2 = .text (v.description textAttribute) ∧
      (e.constantsIn holds).find? (·.1 = arm.1) = some (arm.1, e.variantPath v) := by
  rcases List.mem_append.1 harm with harm | harm
  · obtain ⟨a, ha, rfl⟩ := List.mem_map.1 harm
    exact ⟨a.1, EnumDecl.mem_enabled_of_mem_numbered ha, rfl, find?_constantsIn ha⟩
  · exact absurd (congrArg Prod.fst (List.mem_singleton.1 harm)) hlow

/-- What the lookups of a marked enum answer in a build in which its variants have distinct names.

A value without data is described by the text of its variant, any other is printed. Of an enum that
is no more than a list of names, each in a build has a number of its own, the number of a variant is
described by the text of the variant, and any other number is printed; the constant that an arm
names exists with the arm and stands for the variant that the arm describes. -/
theorem lookup_meaning {compilation : Compilation} {configuration : Configuration}
    {selection : Selection}
    (hselect : compilation.select configuration = .ok (selection, textAttribute))
    (he : e ∈ selection.marked) (hnames : e.HasNames)
    (hdistinct : ((e.decl.enabled holds).map Variant.name).Nodup) :
    (∀ v ∈ e.decl.enabled holds,
      valueAnswer? holds (e.lookup textAttribute).valueLines (e.variantPath v) =
        some (if v.isUnit then .text (v.description textAttribute) else .debug)) ∧
    (e.decl.generics = [] → (∀ v ∈ e.decl.variants, v.isUnit = true) →
      ∃ numberType, (e.lookup textAttribute).numberType? = some numberType ∧
        (∀ discriminant : String → Int,
          (∀ v ∈ e.decl.enabled holds, ∀ w ∈ e.decl.enabled holds,
            discriminant (e.variantPath v) = discriminant (e.variantPath w) → v.name = w.name) →
          ∀ raw,
            (∀ v ∈ e.decl.enabled holds, discriminant (e.variantPath v) = raw →
              numberAnswer? holds discriminant
                ((e.lookup textAttribute).numberLines numberType) raw =
                  some (.text (v.description textAttribute))) ∧
            ((∀ v ∈ e.decl.enabled holds, discriminant (e.variantPath v) ≠ raw) →
              numberAnswer? holds discriminant
                ((e.lookup textAttribute).numberLines numberType) raw = some .decimal)) ∧
        ∃ constants arms,
          constantsOf holds "match raw \x7b"
            ((e.lookup textAttribute).numberLines numberType) = some constants ∧
          armsOf holds "match raw \x7b"
            ((e.lookup textAttribute).numberLines numberType) = some arms ∧
          ∀ arm ∈ arms, arm.1 ≠ "_" →
            ∃ v ∈ e.decl.enabled holds, arm.2 = .text (v.description textAttribute) ∧
              constants.find? (·.1 = arm.1) = some (arm.1, e.variantPath v)) := by
  obtain ⟨marker, registered, -, -, hselection, -⟩ := Compilation.select_eq_ok hselect
  obtain ⟨c, -, hsymbol, -, -⟩ := Selection.exists_candidate hselection he
  have hhere : e.symbol.home = .here := by rw [hsymbol]; rfl
  refine ⟨fun v hv => valueAnswer?_valueLines hhere hnames hdistinct hv, fun hgenerics hunits => ?_⟩
  obtain ⟨numberType, hnumber⟩ : ∃ numberType, e.decl.numberType? = some numberType := by
    rw [EnumDecl.numberType?, hgenerics, List.isEmpty_nil, Bool.true_and,
      if_pos (List.all_eq_true.2 hunits)]
    exact ⟨_, rfl⟩
  have htype := EnumDecl.numberType?_mem hnumber
  refine ⟨numberType, hnumber, fun discriminant hinjective raw => ⟨?_, ?_⟩, _, _,
    constantsOf_numberLines hhere hnames htype, armsOf_numberLines numberType,
    fun arm harm hlow => exists_constant harm hlow⟩
  · rintro v hv rfl
    exact numberAnswer?_discriminant hhere hnames hdistinct htype hinjective hv
      (hunits v (EnumDecl.mem_enabled.1 hv).1)
  · exact numberAnswer?_of_forall_ne hhere hnames htype

end MarkedEnum

/-! ### Two variants of one name -/

/-- The gate that is called by a word. -/
def wordGate (name : String) : Attribute :=
  ⟨.ofName "cfg", .list .parenthesis [.word name .start]⟩

/-- The variant for one system, with a text. -/
def unixOwn : Variant :=
  ⟨[wordGate "unix", ⟨.ofName "description", .value ⟨.text "a \"unix\"", []⟩⟩], "Own", true⟩

/-- A variant with a raw name. -/
def rawType : Variant := ⟨[], "r#type", true⟩

/-- An enum with a variant that is declared for two systems. -/
def systemKind : EnumDecl where
  attributes := []
  visibility := .everywhere
  name := "Kind"
  generics := []
  predicates := []
  variants := [unixOwn, ⟨[wordGate "windows"], "Own", true⟩, rawType]

/-- A crate of this enum alone. -/
def systemCrate : Compilation :=
  ((Compilation.empty "demo").addExtern markerCrate markerCrate).addFile
    ⟨"lib.rs", .root, [], ⟨[], [.enumeration systemKind]⟩⟩

/-- The settings that register the enum. -/
def systemSettings : Configuration := { registered := ["crate::Kind"] }

/-- The builds for one of the systems. -/
def holdsOnUnix (gate : String) : Bool := gate == "#[cfg (unix)]"

/-- The discriminants of the variants there. -/
def systemNumber (path : String) : Int := if path = "crate::Kind::Own" then 4 else 7

theorem enabled_systemKind : systemKind.enabled holdsOnUnix = [unixOwn, rawType] := by
  rfl

/-- The enum is selected. -/
theorem exists_select_systemCrate :
    ∃ selection e, systemCrate.select systemSettings = .ok (selection, "description") ∧
      e ∈ selection.marked ∧ e.symbol = ⟨.here, ["Kind"]⟩ ∧ e.decl = systemKind := by
  have hselected : (systemCrate.select systemSettings).toOption.map
      (fun found => (found.1.marked.map MarkedEnum.report, found.2)) =
        some ([⟨⟨.here, ["Kind"]⟩, .registered, []⟩], "description") := by decide +kernel
  obtain ⟨⟨selection, textAttribute⟩, hselect, hfound⟩ := Option.map_eq_some_iff.1 hselected
  obtain ⟨hmarked, rfl⟩ := Prod.mk.inj hfound
  replace hselect := Except.toOption_eq_some.1 hselect
  obtain ⟨e, hmarked, -⟩ := List.map_eq_singleton_iff.1 hmarked
  have he : e ∈ selection.marked := hmarked ▸ List.mem_singleton_self e
  obtain ⟨marker, registered, -, -, hselection, -⟩ := Compilation.select_eq_ok hselect
  obtain ⟨c, hc, hsymbol, hdecl, -⟩ := Selection.exists_candidate hselection he
  have hcandidates : systemCrate.candidates = [⟨systemKind, .root, "lib.rs", []⟩] := rfl
  rw [hcandidates, List.mem_singleton] at hc
  rw [hc] at hsymbol hdecl
  exact ⟨selection, e, hselect, he, hsymbol, hdecl⟩

/-- Where one system alone is built for, its variant counts. -/
theorem lookup_meaning_of_systemKind :
    ∃ selection e, systemCrate.select systemSettings = .ok (selection, "description") ∧
      e ∈ selection.marked ∧
      valueAnswer? holdsOnUnix (e.lookup "description").valueLines "crate::Kind::Own" =
        some (.text "a \"unix\"") ∧
      ∃ numberType, (e.lookup "description").numberType? = some numberType ∧
        ∀ raw, numberAnswer? holdsOnUnix systemNumber
          ((e.lookup "description").numberLines numberType) raw =
            some (if raw = 4 then .text "a \"unix\"" else if raw = 7 then .text "type"
              else .decimal) := by
  obtain ⟨selection, e, hselect, he, hsymbol, hdecl⟩ := exists_select_systemCrate
  have hnames : e.HasNames := by
    rw [MarkedEnum.HasNames, hsymbol, hdecl]
    decide
  have henabled : e.decl.enabled holdsOnUnix = [unixOwn, rawType] := by
    rw [hdecl, enabled_systemKind]
  have hdistinct : ((e.decl.enabled holdsOnUnix).map Variant.name).Nodup := by
    rw [henabled]
    decide
  have hpath : ∀ v, e.variantPath v = "crate::Kind::" ++ v.name := by
    intro v
    rw [MarkedEnum.variantPath, hsymbol]
    rfl
  obtain ⟨hvalue, hnumber⟩ := MarkedEnum.lookup_meaning hselect he hnames hdistinct
  obtain ⟨numberType, htype, hanswer, -⟩ := hnumber (by rw [hdecl]; rfl) (by rw [hdecl]; decide)
  simp only [henabled, hpath, List.forall_mem_cons] at hvalue hanswer
  refine ⟨selection, e, hselect, he, hvalue.1, numberType, htype, fun raw => ?_⟩
  obtain ⟨⟨hown, hraw, -⟩, hother⟩ := hanswer systemNumber (by decide +kernel) raw
  split
  · next h => exact hown h.symm
  · split
    · next h => exact hraw h.symm
    · next h h' => exact hother ⟨Ne.symm h, Ne.symm h', List.forall_mem_nil _⟩

end DescriptionLookup
