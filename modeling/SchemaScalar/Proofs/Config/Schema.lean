import Mathlib.Logic.Relation
import SchemaScalar.Proofs.Config.RoundTrip
import SchemaScalar.Proofs.Json.Reorder

/-!
# The schema of configurations

`Definition.Fits` and `Config.Fits` say what the members of a document must be for it to be a given
definition or configuration, member by member and without regard to their order. Reading accepts
exactly these documents, whatever else the top level holds (`Config.parse_decides`).
-/

namespace SchemaScalar

open Json (Tree Gathers)

/-! ## Bases -/

/-- The name of a base, or an object that maps it to `null`. -/
def Base.IsNamed (tree : Tree) (base : Base) : Prop :=
  tree = .string base.label ∨ tree = .object [(base.label, .null)]

theorem Base.choose_eq_ok_iff {name : String} {base : Base} :
    Json.Decoder.choose Base.choices name = .ok base ↔ name = base.label := by
  constructor
  · intro h
    unfold Json.Decoder.choose at h
    split at h
    · next choice hfound =>
      cases h
      have hname := List.find?_some hfound
      have hname : choice.1 = name := eq_of_beq hname
      have hmem := List.mem_of_find?_eq_some hfound
      simp only [Base.choices, List.mem_cons, List.not_mem_nil, or_false] at hmem
      rcases hmem with rfl | rfl <;> exact hname.symm
    · cases h
  · rintro rfl
    cases base <;> rfl

theorem Base.isChoice_iff {tree : Tree} {base : Base} :
    tree.IsChoice Base.choices base ↔ Base.IsNamed tree base := by
  constructor
  · rintro ⟨name, hchosen, h⟩
    obtain rfl := Base.choose_eq_ok_iff.1 hchosen
    exact h
  · exact fun h => ⟨base.label, Base.choose_eq_ok_iff.2 rfl, h⟩

/-! ## Definitions -/

namespace Definition

/-- The names of the members of definitions. -/
def Known (name : String) : Prop := name ∈ ["key", "base", "name", "description", "min", "max"]

/-- Whether an object with the given members is the given definition. -/
structure Fits (members : List (String × Tree)) (definition : Definition) : Prop where
  known : ∀ member ∈ members, Known member.1
  key : Tree.Once Tree.IsString (Tree.values "key" members) definition.key
  base : Tree.Once Base.IsNamed (Tree.values "base" members) definition.base
  name : Tree.AtMostOnce (Tree.OrNull Tree.IsString) none (Tree.values "name" members)
    definition.name
  description : Tree.AtMostOnce (Tree.OrNull Tree.IsString) none
    (Tree.values "description" members) definition.description
  min : Tree.AtMostOnce (Tree.OrNull Tree.IsInt64) none (Tree.values "min" members) definition.min
  max : Tree.AtMostOnce (Tree.OrNull Tree.IsInt64) none (Tree.values "max" members) definition.max

/-- A document that is the given definition, as an object. -/
def IsDefinition (tree : Tree) (definition : Definition) : Prop :=
  ∃ members, tree = .object members ∧ Fits members definition

def Field.Means : (field : Field) → Tree → record.Content field → Prop
  | key => Tree.IsString
  | base => Base.IsNamed
  | name => Tree.OrNull Tree.IsString
  | description => Tree.OrNull Tree.IsString
  | min => Tree.OrNull Tree.IsInt64
  | max => Tree.OrNull Tree.IsInt64

theorem Field.decides (field : Field) (tree : Tree) :
    (record.decoder field).ofText.Decides tree.render (field.Means tree) := by
  have htext : (Json.Decoder.optional .string).ofText.Decides tree.render
      (Tree.OrNull Tree.IsString tree) :=
    Json.Decoder.decides_optional (Json.Decoder.decides_string tree) (by rintro _ ⟨⟩)
  have hint : (Json.Decoder.optional .int64).ofText.Decides tree.render
      (Tree.OrNull Tree.IsInt64 tree) :=
    Json.Decoder.decides_optional (Json.Decoder.decides_int64 tree) (by rintro _ ⟨_, _, _, ⟨⟩, _⟩)
  cases field with
  | key => exact Json.Decoder.decides_string tree
  | base =>
    intro rest hrest value left
    exact (Json.Decoder.decides_choice Base.choices tree rest hrest value left).trans
      (and_congr_left' Base.isChoice_iff)
  | name => exact htext
  | description => exact htext
  | min => exact hint
  | max => exact hint

theorem assemble_eq_ok_iff {draft : record.Draft} {definition : Definition} :
    record.assemble draft = .ok definition ↔
      draft .key = some definition.key ∧ draft .base = some definition.base ∧
      (draft .name).getD none = definition.name ∧
      (draft .description).getD none = definition.description ∧
      (draft .min).getD none = definition.min ∧ (draft .max).getD none = definition.max := by
  have hjoin : ∀ {α : Type} (found : Option (Option α)), found.join = found.getD none := by
    intro _ found
    cases found <;> rfl
  show assemble draft = _ ↔ _
  obtain ⟨key, base, name, description, min, max⟩ := definition
  unfold assemble
  cases draft .key with
  | none => exact iff_of_false (by rintro ⟨⟩) (by rintro ⟨⟨⟩, _⟩)
  | some foundKey =>
    cases draft .base with
    | none => exact iff_of_false (by rintro ⟨⟩) (by rintro ⟨_, ⟨⟩, _⟩)
    | some foundBase =>
      constructor
      · intro h
        cases h
        exact ⟨rfl, rfl, (hjoin _).symm, (hjoin _).symm, (hjoin _).symm, (hjoin _).symm⟩
      · rintro ⟨hkey, hbase, hname, hdescription, hmin, hmax⟩
        cases hkey
        cases hbase
        obtain rfl := (hjoin _).trans hname
        obtain rfl := (hjoin _).trans hdescription
        obtain rfl := (hjoin _).trans hmin
        obtain rfl := (hjoin _).trans hmax
        rfl

def given (key : String) (base : Base) (name description : Option (Option String))
    (min max : Option (Option Int64)) : record.Draft
  | .key => some key
  | .base => some base
  | .name => name
  | .description => description
  | .min => min
  | .max => max

/-- **What an object means as a record of fields is the definition that it fits.** -/
theorem isRecord_iff {tree : Tree} {definition : Definition} :
    record.IsRecord Field.Means tree definition ↔ IsDefinition tree definition := by
  constructor
  · rintro ⟨members, rfl, hknown, draft, hfields, hassemble⟩
    obtain ⟨hkey, hbase, hname, hdescription, hmin, hmax⟩ := assemble_eq_ok_iff.1 hassemble
    refine ⟨members, rfl, ?_⟩
    constructor
    case known =>
      intro member hmem
      obtain ⟨field, hfield⟩ := hknown rfl member hmem
      rw [Known, ← hfield]
      cases field <;> decide
    case key => exact Tree.once_iff.2 (hkey ▸ hfields .key)
    case base => exact Tree.once_iff.2 (hbase ▸ hfields .base)
    case name => exact Tree.atMostOnce_iff.2 ⟨_, hfields .name, hname⟩
    case description => exact Tree.atMostOnce_iff.2 ⟨_, hfields .description, hdescription⟩
    case min => exact Tree.atMostOnce_iff.2 ⟨_, hfields .min, hmin⟩
    case max => exact Tree.atMostOnce_iff.2 ⟨_, hfields .max, hmax⟩
  · rintro ⟨members, rfl, h⟩
    obtain ⟨name, hname, hnameValue⟩ := Tree.atMostOnce_iff.1 h.name
    obtain ⟨description, hdescription, hdescriptionValue⟩ := Tree.atMostOnce_iff.1 h.description
    obtain ⟨min, hmin, hminValue⟩ := Tree.atMostOnce_iff.1 h.min
    obtain ⟨max, hmax, hmaxValue⟩ := Tree.atMostOnce_iff.1 h.max
    refine ⟨members, rfl, ?_, given definition.key definition.base name description min max,
      ?_, ?_⟩
    · intro _ member hmem
      have hlabel := h.known member hmem
      simp only [Known, List.mem_cons, List.not_mem_nil, or_false] at hlabel
      obtain hlabel | hlabel | hlabel | hlabel | hlabel | hlabel := hlabel
      · exact ⟨.key, hlabel.symm⟩
      · exact ⟨.base, hlabel.symm⟩
      · exact ⟨.name, hlabel.symm⟩
      · exact ⟨.description, hlabel.symm⟩
      · exact ⟨.min, hlabel.symm⟩
      · exact ⟨.max, hlabel.symm⟩
    · intro field
      cases field with
      | key => exact Tree.once_iff.1 h.key
      | base => exact Tree.once_iff.1 h.base
      | name => exact hname
      | description => exact hdescription
      | min => exact hmin
      | max => exact hmax
    · exact assemble_eq_ok_iff.2
        ⟨rfl, rfl, hnameValue, hdescriptionValue, hminValue, hmaxValue⟩

/-- **A document is read as the definition that it is**, unless it is an array. -/
theorem decides {tree : Tree} (h : ∀ elements, tree ≠ .array elements) :
    decoder.ofText.Decides tree.render (IsDefinition tree) := by
  have hrecord : decoder.ofText.Decides tree.render (record.IsRecord Field.Means tree) :=
    Json.Record.decides_record tellsFields h fun _ _ member _ field _ => field.decides member.2
  intro rest hrest definition left
  exact (hrecord rest hrest definition left).trans (and_congr_left' isRecord_iff)

/-! ### Members in another order -/

theorem stable_isNamed : Tree.Stable Base.IsNamed := by
  intro tree other h base hbase
  exact Base.isChoice_iff.1 (Tree.stable_isChoice _ tree other h base (Base.isChoice_iff.2 hbase))

theorem stable_isDefinition : Tree.Stable IsDefinition := by
  rintro _ other h definition ⟨members, rfl, hfits⟩
  obtain ⟨others, rfl, -⟩ := h.object_inv
  have hnames := h.names
  have htext := Tree.stable_orNull Tree.stable_isString
  have hint := Tree.stable_orNull Tree.stable_isInt64
  refine ⟨others, rfl, ?_⟩
  constructor
  case known =>
    intro member hmem
    have hname := hnames.mem_iff.2 (List.mem_map_of_mem hmem)
    obtain ⟨original, horiginal, heq⟩ := List.mem_map.1 hname
    rw [← heq]
    exact hfits.known original horiginal
  case key => exact hfits.key.of_rearranges Tree.stable_isString (h.values "key")
  case base => exact hfits.base.of_rearranges stable_isNamed (h.values "base")
  case name => exact hfits.name.of_rearranges htext (h.values "name")
  case description => exact hfits.description.of_rearranges htext (h.values "description")
  case min => exact hfits.min.of_rearranges hint (h.values "min")
  case max => exact hfits.max.of_rearranges hint (h.values "max")

end Definition

/-! ## Configurations -/

namespace Config

/-- Whether an object with the given members is the given configuration. -/
structure Fits (members : List (String × Tree)) (config : Config) : Prop where
  includeBuiltins : Tree.AtMostOnce Tree.IsBool true (Tree.values "include_builtins" members)
    config.includeBuiltins
  scalars : Tree.AtMostOnce (Tree.IsArrayOf Definition.IsDefinition) []
    (Tree.values "scalars" members) config.scalars

/-- Whether no definition is given as an array, which would list its fields in their order. -/
def NamesFields (members : List (String × Tree)) : Prop :=
  ∀ elements, Tree.array elements ∈ Tree.values "scalars" members →
    ∀ inner, Tree.array inner ∉ elements

def Field.Means : (field : Field) → Tree → record.Content field → Prop
  | includeBuiltins => Tree.IsBool
  | scalars => Tree.IsArrayOf Definition.IsDefinition

theorem Field.decides (field : Field) {tree : Tree}
    (h : field = .scalars → ∀ elements, tree = .array elements →
      ∀ inner, Tree.array inner ∉ elements) :
    (record.decoder field).ofText.Decides tree.render (field.Means tree) := by
  cases field with
  | includeBuiltins => exact Json.Decoder.decides_bool tree
  | scalars =>
    refine Json.Decoder.decides_list ?_
    intro elements htree element helement
    refine Definition.decides ?_
    rintro inner rfl
    exact h rfl elements htree inner helement

def given (includes : Option Bool) (scalars : Option (List Definition)) : record.Draft
  | .includeBuiltins => includes
  | .scalars => scalars

/-- What an object means as a record of fields is the configuration that it fits. -/
theorem isRecord_iff {members : List (String × Tree)} {config : Config} :
    record.IsRecord Field.Means (.object members) config ↔ Fits members config := by
  constructor
  · rintro ⟨_, heq, -, draft, hfields, hassemble⟩
    cases heq
    cases hassemble
    exact ⟨Tree.atMostOnce_iff.2 ⟨_, hfields .includeBuiltins, rfl⟩,
      Tree.atMostOnce_iff.2 ⟨_, hfields .scalars, rfl⟩⟩
  · intro h
    obtain ⟨includes, hincludes, hincludesValue⟩ := Tree.atMostOnce_iff.1 h.includeBuiltins
    obtain ⟨scalars, hscalars, hscalarsValue⟩ := Tree.atMostOnce_iff.1 h.scalars
    refine ⟨members, rfl, by rintro ⟨⟩, given includes scalars, ?_, ?_⟩
    · intro field
      cases field with
      | includeBuiltins => exact hincludes
      | scalars => exact hscalars
    · obtain ⟨includeBuiltins, definitions⟩ := config
      cases hincludesValue
      cases hscalarsValue
      rfl

/-- **A text is read as the configurations that its document fits.** -/
theorem parse_print_iff {members : List (String × Tree)} (h : NamesFields members)
    (config : Config) :
    parse (Tree.object members).print = .ok config ↔ Fits members config := by
  have hdecides : decoder.ofText.Decides (Tree.object members).render
      (record.IsRecord Field.Means (.object members)) := by
    refine Json.Record.decides_record tellsFields (by rintro _ ⟨⟩) ?_
    rintro _ heq member hmem field hfield
    cases heq
    refine field.decides ?_
    rintro rfl elements helements
    obtain ⟨name, value⟩ := member
    obtain rfl : "scalars" = name := Json.Record.label_of_field? hfield
    obtain rfl : value = .array elements := helements
    exact h elements (Tree.mem_values.2 hmem)
  rw [parse_eq_ok_iff, Tree.print, String.toList_ofList, ← isRecord_iff]
  exact Json.Decoder.read_eq_ok_iff hdecides config

/-! ### Other members -/

section Insert

variable {name : String} (hincludes : name ≠ "include_builtins") (hscalars : name ≠ "scalars")
  (value : Tree) (before after : List (String × Tree))
include hincludes hscalars

/-- A member that is no field is passed over. -/
theorem fits_insert (config : Config) :
    Fits (before ++ (name, value) :: after) config ↔ Fits (before ++ after) config := by
  have hvalues : ∀ field, name ≠ field → Tree.values field (before ++ (name, value) :: after) =
      Tree.values field (before ++ after) := fun _ hne =>
    Tree.values_insert hne value before after
  constructor
  · rintro ⟨hi, hs⟩
    rw [hvalues _ hincludes] at hi
    rw [hvalues _ hscalars] at hs
    exact ⟨hi, hs⟩
  · rintro ⟨hi, hs⟩
    rw [← hvalues _ hincludes] at hi
    rw [← hvalues _ hscalars] at hs
    exact ⟨hi, hs⟩

theorem parse_insert (h : NamesFields (before ++ after)) (config : Config) :
    parse (Tree.object (before ++ (name, value) :: after)).print = .ok config ↔
      parse (Tree.object (before ++ after)).print = .ok config := by
  have hinserted : NamesFields (before ++ (name, value) :: after) := by
    unfold NamesFields
    rw [Tree.values_insert hscalars]
    exact h
  rw [parse_print_iff hinserted, parse_print_iff h]
  exact fits_insert hincludes hscalars value before after config

end Insert

/-- An object that is listed among the definitions of a configuration is a definition. -/
theorem definition_of_fits {members : List (String × Tree)} {config : Config}
    (h : Fits members config) {elements : List Tree}
    (hscalars : ("scalars", .array elements) ∈ members) {listed : List (String × Tree)}
    (hlisted : .object listed ∈ elements) : ∃ definition, Definition.Fits listed definition := by
  have hvalue := Tree.mem_values.2 hscalars
  obtain ⟨hnone, -⟩ | ⟨tree, honly, hfound⟩ := h.scalars
  · rw [hnone] at hvalue
    cases hvalue
  · rw [honly] at hvalue
    obtain rfl := List.mem_singleton.1 hvalue
    obtain ⟨definition, _, heq, hfits⟩ := hfound.exists_of_mem hlisted
    cases heq
    exact ⟨definition, hfits⟩

/-! ### Members in another order -/

theorem fits_of_reorders {members others : List (String × Tree)}
    (h : Tree.Reorders (.object members) (.object others)) {config : Config}
    (hfits : Fits members config) : Fits others config where
  includeBuiltins := hfits.includeBuiltins.of_rearranges Tree.stable_isBool (h.values _)
  scalars := hfits.scalars.of_rearranges (Tree.stable_isArrayOf Definition.stable_isDefinition)
    (h.values _)

theorem namesFields_of_reorders {members others : List (String × Tree)}
    (h : Tree.Reorders (.object members) (.object others)) (hnames : NamesFields members) :
    NamesFields others := by
  intro elements hmem
  obtain hperm | ⟨before, value, reordered, after, hvalues, hothers, hvalue⟩ := h.values "scalars"
  · exact hnames elements (hperm.mem_iff.2 hmem)
  · unfold NamesFields at hnames
    rw [hvalues] at hnames
    rw [hothers] at hmem
    simp only [List.mem_append, List.mem_cons] at hmem hnames
    rcases hmem with hmem | rfl | hmem
    · exact hnames elements (.inl hmem)
    · obtain ⟨_, _, _, _, -, rfl, -⟩ := hvalue.symm.array_inv
      exact hvalue.array_notMem (hnames _ (.inr (.inl rfl)))
    · exact hnames elements (.inr (.inr hmem))

/-- **The order of members does not matter**, at whatever depth. -/
theorem parse_reordered {members : List (String × Tree)} {other : Tree}
    (h : Relation.ReflTransGen Tree.Reorders (.object members) other) (hnames : NamesFields members)
    (config : Config) :
    parse (Tree.object members).print = .ok config ↔ parse other.print = .ok config := by
  have hkept : ∃ others, other = .object others ∧ NamesFields others ∧
      (Fits members config ↔ Fits others config) := by
    induction h with
    | refl => exact ⟨members, rfl, hnames, .rfl⟩
    | tail _ hstep ih =>
      obtain ⟨others, rfl, hothers, hfits⟩ := ih
      obtain ⟨next, rfl, -⟩ := hstep.object_inv
      exact ⟨next, rfl, namesFields_of_reorders hstep hothers,
        hfits.trans ⟨fits_of_reorders hstep, fits_of_reorders hstep.symm⟩⟩
  obtain ⟨others, rfl, hothers, hfits⟩ := hkept
  rw [parse_print_iff hnames, parse_print_iff hothers, hfits]

/-! ### The whole schema -/

/-- **Configurations are read by their schema and nothing else.** For a document that is an object
and gives no definition as an array, the text is read as a configuration exactly if the members of
the two fields, at most one for each, and the members of the definitions, in the order of these, fit
it. Any other member at the top may be put in or left out, whatever its value is; any other member
in a definition makes the reading fail. The order of members never matters. -/
theorem parse_decides {members : List (String × Tree)} (h : NamesFields members) :
    (∀ config, parse (Tree.object members).print = .ok config ↔ Fits members config) ∧
    (∀ before after, members = before ++ after → ∀ name value, name ≠ "include_builtins" →
      name ≠ "scalars" → ∀ config,
        parse (Tree.object (before ++ (name, value) :: after)).print = .ok config ↔
          parse (Tree.object members).print = .ok config) ∧
    (∀ elements listed member, ("scalars", .array elements) ∈ members →
      .object listed ∈ elements → member ∈ listed → ¬ Definition.Known member.1 →
        ∀ config, parse (Tree.object members).print ≠ .ok config) ∧
    ∀ other, Relation.ReflTransGen Tree.Reorders (.object members) other → ∀ config,
      parse (Tree.object members).print = .ok config ↔ parse other.print = .ok config := by
  refine ⟨parse_print_iff h, ?_, ?_, fun other hother => parse_reordered hother h⟩
  · rintro before after rfl name value hincludes hscalars config
    exact parse_insert hincludes hscalars value before after h config
  · intro elements listed member hscalars hlisted hmem hunknown config hread
    have hfits := (parse_print_iff h config).1 hread
    obtain ⟨_, hdefinition⟩ := definition_of_fits hfits hscalars hlisted
    exact hunknown (hdefinition.known member hmem)

/-- A document with a number too large, with a base given as an object and with an unset limit is
read; with a limit of minus zero it is not. -/
theorem parse_decides_port :
    let five : Tree := .numeral ⟨false, ['5'], none, none⟩ ⟨false, false⟩ (by decide)
    let huge : Tree :=
      .numeral ⟨false, ['1'], none, some (false, ['9', '9', '9'])⟩ ⟨true, true⟩ (by decide)
    let minusZero : Tree := .numeral ⟨true, ['0'], none, none⟩ ⟨false, false⟩ (by decide)
    let listed (min : Tree) : List (String × Tree) :=
      [("min", min), ("max", five), ("base", .object [("int", .null)]), ("key", .string "port")]
    let members (min : Tree) : List (String × Tree) :=
      [("note", huge), ("scalars", .array [.object (listed min)])]
    (Tree.object (members minusZero)).print =
      "\x7b\"note\":1E+999,\"scalars\":[\x7b\"min\":-0,\"max\":5," ++
        "\"base\":\x7b\"int\":null\x7d,\"key\":\"port\"\x7d]\x7d" ∧
    parse (Tree.object (members .null)).print =
      .ok ⟨true, [⟨"port", .int, none, none, none, some 5⟩]⟩ ∧
    ∀ config, parse (Tree.object (members minusZero)).print ≠ .ok config := by
  intro five huge minusZero listed members
  have hscalars : ∀ min, Tree.values "scalars" (members min) = [.array [.object (listed min)]] := by
    intro min
    simp [members, Tree.values]
  have hnames : ∀ min, NamesFields (members min) := by
    intro min elements hmem inner hinner
    rw [hscalars] at hmem
    cases List.mem_singleton.1 hmem
    cases List.mem_singleton.1 hinner
  refine ⟨by decide, ((parse_decides (hnames .null)).1 _).2 ?_, ?_⟩
  · have hport : Definition.Fits (listed .null) ⟨"port", .int, none, none, none, some 5⟩ := {
      known := by simp [listed, Definition.Known]
      key := ⟨.string "port", by simp [listed, Tree.values], rfl⟩
      base := ⟨.object [("int", .null)], by simp [listed, Tree.values], .inr rfl⟩
      name := .inl ⟨by simp [listed, Tree.values], rfl⟩
      description := .inl ⟨by simp [listed, Tree.values], rfl⟩
      min := .inr ⟨.null, by simp [listed, Tree.values], rfl⟩
      max := .inr ⟨five, by simp [listed, Tree.values], _, _, _, rfl, rfl, rfl,
        by rintro ⟨⟩, by decide⟩ }
    exact ⟨.inl ⟨by simp [members, Tree.values], rfl⟩,
      .inr ⟨_, hscalars .null, _, rfl, .cons ⟨_, rfl, hport⟩ .nil⟩⟩
  · intro config hread
    have hfits := ((parse_decides (hnames minusZero)).1 config).1 hread
    obtain ⟨definition, hdefinition⟩ := definition_of_fits hfits
      (Tree.mem_values.1 (hscalars minusZero ▸ List.mem_singleton.2 rfl)) (List.mem_singleton.2 rfl)
    have hmin : Tree.values "min" (listed minusZero) = [minusZero] := by
      simp [listed, Tree.values]
    obtain ⟨hnone, -⟩ | ⟨tree, honly, hmeans⟩ := hdefinition.min
    · rw [hmin] at hnone
      cases hnone
    · rw [hmin] at honly
      cases honly
      cases hlimit : definition.min with
      | none =>
        rw [hlimit] at hmeans
        exact Tree.noConfusion hmeans
      | some k =>
        rw [hlimit] at hmeans
        obtain ⟨n, _, _, heq, hdenotes⟩ := hmeans
        obtain rfl := (Tree.numeral.inj heq).1
        exact absurd (hdenotes.notMinusZero rfl) (by decide)

end Config

end SchemaScalar
