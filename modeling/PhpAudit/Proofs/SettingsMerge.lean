import Mathlib.Data.List.Induction
import PhpAudit.Check.Rule
import PhpAudit.Proofs.EntryTables

/-!
Settings stay well typed. A value is merged into settings as a whole or not at all: it has to be an
object, and each field it gives has to have the type of the field. So the settings of a rule, after
any values it was configured with, hold for each field what the last accepted value gave it.
-/

namespace PhpAudit

inductive FieldType.Has : FieldType → Json → Prop
  | any (value : Json) : Has .any value
  | int (value : Int) : Has .int (.int value)
  | bool (value : Bool) : Has .bool (.bool value)
  | whole (value : Int) : Has .float (.int value)
  | float (value : Float) : Has .float (.float value)
  | text (value : String) : Has .text (.text value)
  | object (entries : List (String × Json)) : Has .object (.object entries)
  | list {item : FieldType} {values : List Json} (each : ∀ value ∈ values, Has item value) :
      Has (.list item) (.list values)

namespace FieldType

theorem accepts_iff (type : FieldType) (value : Json) : type.accepts value = true ↔ type.Has value := by
  induction type generalizing value with
  | list item ih =>
      cases value with
      | list values =>
          rw [accepts, List.all_eq_true]
          constructor
          · exact fun each => .list fun found member => (ih found).mp (each found member)
          · rintro (_ | _ | _ | _ | _ | _ | _ | each) found member
            exact (ih found).mpr (each found member)
      | _ =>
          constructor
          · simp [accepts]
          · nofun
  | _ =>
      constructor
      · intro accepted
        cases value <;> first | constructor | simp [accepts] at accepted
      · intro has
        cases has <;> simp [accepts]

instance (type : FieldType) (value : Json) : Decidable (type.Has value) :=
  decidable_of_iff _ (type.accepts_iff value)

end FieldType

/-- The settings with the values that some entries give to their fields. -/
def Settings.updated (settings : Settings) (entries : Entries Json) : Settings :=
  List.map (fun known => (known.1, (Entries.find? entries known.1).getD known.2)) settings

namespace Schema

def Distinct (schema : Schema) : Prop := (schema.map Field.name).Nodup

/-- Every field that the entries give has its type. -/
def Fits (schema : Schema) (entries : Entries Json) : Prop :=
  ∀ field ∈ schema, ∀ value ∈ Entries.find? entries field.name, field.type.Has value

instance (schema : Schema) (entries : Entries Json) : Decidable (schema.Fits entries) :=
  inferInstanceAs (Decidable (∀ field ∈ schema, _))

/-- One value for each field, in this order, each of the type of its field. -/
structure WellTyped (schema : Schema) (settings : Settings) : Prop where
  keys : Entries.keys settings = schema.map Field.name
  typed : schema.Fits settings

/-- Why a value is not merged: it is no object, or it gives a field a value of another type and is
right about all fields before that one. -/
inductive Refuses (schema : Schema) : Json → SettingsError → Prop
  | notObject {value : Json} (other : ∀ entries, value ≠ .object entries) :
      Refuses schema value (.notObject value.kindName)
  | wrongType {entries : Entries Json} {before after : Schema} {field : Field} {found : Json}
      (parts : schema = before ++ field :: after) (fits : before.Fits entries)
      (given : Entries.find? entries field.name = some found) (wrong : ¬field.type.Has found) :
      Refuses schema (.object entries) (.wrongType field.name found.kindName)

section Merge

variable {schema : Schema} {entries : Entries Json}

theorem merge_of_fits {base : Settings} (fits : schema.Fits entries)
    (distinct : (Entries.keys base).Nodup)
    (known : ∀ field ∈ schema, field.name ∈ Entries.keys base) :
    schema.merge entries base = .ok (List.map (fun entry => (entry.1,
      if entry.1 ∈ schema.map Field.name then (Entries.find? entries entry.1).getD entry.2
      else entry.2)) base) := by
  -- one step settles one field and changes its value or nothing, so the base is generalised
  induction schema generalizing base with
  | nil => simp [merge]
  | cons field rest ih =>
      obtain ⟨fitsField, fitsRest⟩ := List.forall_mem_cons.mp fits
      obtain ⟨knownField, knownRest⟩ := List.forall_mem_cons.mp known
      rw [merge]
      cases given : Entries.find? entries field.name with
      | none =>
          simp only [ih fitsRest distinct knownRest, List.map_cons, List.mem_cons]
          refine congrArg Except.ok (List.map_congr_left fun entry _ => ?_)
          by_cases here : entry.1 = field.name
          · simp [here, given]
          · simp [here]
      | some value =>
          have accepted : field.type.accepts value = true :=
            (field.type.accepts_iff value).mpr (fitsField value given)
          have keys : Entries.keys (Entries.put base field.name value) = Entries.keys base := by
            rw [Entries.put_eq_map value distinct knownField]
            simp [Entries.keys, Function.comp_def]
          simp only [accepted, if_true]
          rw [ih fitsRest (keys ▸ distinct) (keys ▸ knownRest),
            Entries.put_eq_map value distinct knownField, List.map_map]
          refine congrArg Except.ok (List.map_congr_left fun entry _ => ?_)
          by_cases here : entry.1 = field.name
          · simp [here, given]
          · simp [here]

theorem merge_of_wrongType {before after : Schema} {field : Field} {found : Json}
    (fits : before.Fits entries) (given : Entries.find? entries field.name = some found)
    (wrong : ¬field.type.Has found) (base : Settings) :
    merge (before ++ field :: after) entries base =
      .error (.wrongType field.name found.kindName) := by
  induction before generalizing base with
  | nil =>
      rw [List.nil_append, merge]
      simp [given, mt (field.type.accepts_iff found).mp wrong]
  | cons first rest ih =>
      obtain ⟨fitsFirst, fitsRest⟩ := List.forall_mem_cons.mp fits
      rw [List.cons_append, merge]
      cases here : Entries.find? entries first.name with
      | none => exact ih fitsRest base
      | some value =>
          have accepted : first.type.accepts value = true :=
            (first.type.accepts_iff value).mpr (fitsFirst value here)
          simp only [accepted, if_true]
          exact ih fitsRest _

theorem fits_or_refuses (schema : Schema) (entries : Entries Json) :
    schema.Fits entries ∨ ∃ before field after found, schema = before ++ field :: after ∧
      Fits before entries ∧ Entries.find? entries field.name = some found ∧
      ¬field.type.Has found := by
  induction schema with
  | nil => exact .inl nofun
  | cons field rest ih =>
      by_cases fits : ∀ value ∈ Entries.find? entries field.name, field.type.Has value
      · rcases ih with others | ⟨before, wrongField, after, found, rfl, fitsBefore, given, wrong⟩
        · exact .inl (List.forall_mem_cons.mpr ⟨fits, others⟩)
        · refine .inr ⟨field :: before, wrongField, after, found, rfl, ?_, given, wrong⟩
          exact List.forall_mem_cons.mpr ⟨fits, fitsBefore⟩
      · obtain ⟨found, misfit⟩ := Classical.not_forall.mp fits
        obtain ⟨given, wrong⟩ := Classical.not_imp.mp misfit
        exact .inr ⟨[], field, rest, found, rfl, nofun, given, wrong⟩

end Merge

variable {schema : Schema} {base settings : Settings} {entries : Entries Json} {value : Json}

theorem coerce_of_fits (distinct : schema.Distinct) (typed : schema.WellTyped base)
    (fits : schema.Fits entries) :
    schema.coerce (.object entries) base = .ok (base.updated entries) := by
  have keys : (Entries.keys base).Nodup := typed.keys ▸ distinct
  have known : ∀ field ∈ schema, field.name ∈ Entries.keys base := by
    intro field member
    rw [typed.keys]
    exact List.mem_map_of_mem member
  rw [coerce, merge_of_fits fits keys known]
  refine congrArg Except.ok (List.map_congr_left fun entry member => ?_)
  have named : entry.1 ∈ schema.map Field.name := by
    rw [← typed.keys]
    exact List.mem_map_of_mem member
  rw [if_pos named]

theorem coerce_of_refuses {error : SettingsError} (refused : schema.Refuses value error)
    (base : Settings) : schema.coerce value base = .error error := by
  cases refused with
  | notObject other =>
      cases value with
      | object entries => exact absurd rfl (other entries)
      | _ => rfl
  | wrongType parts fits given wrong =>
      subst parts
      exact merge_of_wrongType fits given wrong base

theorem accepts_or_refuses (schema : Schema) (value : Json) :
    (∃ entries, value = .object entries ∧ schema.Fits entries) ∨
      ∃ error, schema.Refuses value error := by
  cases value with
  | object entries =>
      rcases schema.fits_or_refuses entries with fits | ⟨_, _, _, _, parts, fits, given, wrong⟩
      · exact .inl ⟨entries, rfl, fits⟩
      · exact .inr ⟨_, .wrongType parts fits given wrong⟩
  | _ => exact .inr ⟨_, .notObject nofun⟩

theorem coerce_eq_ok_iff (distinct : schema.Distinct) (typed : schema.WellTyped base) :
    schema.coerce value base = .ok settings ↔
      ∃ entries, value = .object entries ∧ schema.Fits entries ∧
        settings = base.updated entries := by
  constructor
  · intro merged
    rcases schema.accepts_or_refuses value with ⟨entries, rfl, fits⟩ | ⟨error, refused⟩
    · rw [coerce_of_fits distinct typed fits] at merged
      cases merged
      exact ⟨entries, rfl, fits, rfl⟩
    · rw [coerce_of_refuses refused] at merged
      cases merged
  · rintro ⟨entries, rfl, fits, rfl⟩
    exact coerce_of_fits distinct typed fits

theorem coerce_eq_error_iff (distinct : schema.Distinct) (typed : schema.WellTyped base)
    {error : SettingsError} :
    schema.coerce value base = .error error ↔ schema.Refuses value error := by
  refine ⟨fun failed => ?_, fun refused => coerce_of_refuses refused base⟩
  rcases schema.accepts_or_refuses value with ⟨entries, rfl, fits⟩ | ⟨other, refused⟩
  · rw [coerce_of_fits distinct typed fits] at failed
    cases failed
  · rw [coerce_of_refuses refused] at failed
    cases failed
    exact refused

/-! What the settings hold -/

theorem find?_updated (settings : Settings) (entries : Entries Json) (name : String) :
    Entries.find? (settings.updated entries) name =
      (Entries.find? settings name).map fun value => (Entries.find? entries name).getD value := by
  induction settings with
  | nil => rfl
  | cons known rest ih =>
      change Entries.find? (_ :: Settings.updated rest entries) name = _
      rw [Entries.find?_cons, Entries.find?_cons]
      by_cases here : name = known.1
      · simp [here]
      · rw [if_neg here, if_neg here, ih]

theorem WellTyped.updated (typed : schema.WellTyped settings) (fits : schema.Fits entries) :
    schema.WellTyped (settings.updated entries) where
  keys := by
    rw [← typed.keys]
    simp [Entries.keys, Settings.updated, Function.comp_def]
  typed := by
    intro field member value held
    rw [find?_updated] at held
    obtain ⟨old, known, rfl⟩ := Option.map_eq_some_iff.mp held
    cases given : Entries.find? entries field.name with
    | none => exact typed.typed field member old known
    | some found => exact fits field member found given

theorem WellTyped.coerce_self (distinct : schema.Distinct) (typed : schema.WellTyped settings) :
    schema.coerce (.object settings) settings = .ok settings := by
  have keys : (Entries.keys settings).Nodup := typed.keys ▸ distinct
  rw [coerce_of_fits distinct typed typed.typed]
  refine congrArg Except.ok ((List.map_congr_left fun entry member => ?_).trans
    (List.map_id settings))
  rw [(Entries.find?_eq_some_iff keys).mpr member]
  rfl

theorem find?_defaults (distinct : schema.Distinct) {field : Field} (member : field ∈ schema) :
    Entries.find? schema.defaults field.name = some field.initial := by
  have keys : (Entries.keys schema.defaults).Nodup := by
    rw [Entries.keys, defaults, List.map_map]
    exact distinct
  exact (Entries.find?_eq_some_iff keys).mpr (List.mem_map_of_mem member)

/-! Values one after the other -/

/-- The settings after a value: merged with it, or as they were where it is refused. -/
def configured (schema : Schema) (settings : Settings) (value : Json) : Settings :=
  match schema.coerce value settings with
  | .ok merged => merged
  | .error _ => settings

def afterAll (schema : Schema) (values : List Json) : Settings :=
  values.foldl schema.configured schema.defaults

/-- What a value gives to a field, provided that it is accepted. -/
def given (schema : Schema) (name : String) : Json → Option Json
  | .object entries => if schema.Fits entries then Entries.find? entries name else none
  | _ => none

/-- What the last of the accepted values that has the field gives to it, or its default. -/
def latest (schema : Schema) (field : Field) (values : List Json) : Json :=
  (values.filterMap (schema.given field.name)).getLast?.getD field.initial

theorem afterAll_append (schema : Schema) (values : List Json) (value : Json) :
    schema.afterAll (values ++ [value]) = schema.configured (schema.afterAll values) value := by
  rw [afterAll, List.foldl_append]
  rfl

theorem configured_of_refuses {error : SettingsError} (refused : schema.Refuses value error)
    (settings : Settings) : schema.configured settings value = settings := by
  rw [configured, coerce_of_refuses refused]

theorem configured_of_fits (distinct : schema.Distinct) (typed : schema.WellTyped settings)
    (fits : schema.Fits entries) :
    schema.configured settings (.object entries) = settings.updated entries := by
  rw [configured, coerce_of_fits distinct typed fits]

theorem given_of_refuses {error : SettingsError} (refused : schema.Refuses value error)
    (name : String) : schema.given name value = none := by
  cases refused with
  | notObject other =>
      cases value with
      | object entries => exact absurd rfl (other entries)
      | _ => rfl
  | @wrongType entries before after field found parts fits present wrong =>
      have misfit : ¬schema.Fits entries := by
        intro fits
        refine wrong (fits field ?_ found present)
        rw [parts]
        exact List.mem_append_right before List.mem_cons_self
      exact if_neg misfit

/-- Settings that the values have brought about: well typed, with the latest of all values given to
each field, and unchanged when they are given to themselves. -/
structure Reflects (schema : Schema) (values : List Json) (settings : Settings) : Prop where
  wellTyped : schema.WellTyped settings
  latest : ∀ field ∈ schema,
    Entries.find? settings field.name = some (schema.latest field values)
  stable : schema.coerce (.object settings) settings = .ok settings

theorem reflects_afterAll (distinct : schema.Distinct)
    (typed : schema.WellTyped schema.defaults) (values : List Json) :
    schema.Reflects values (schema.afterAll values) := by
  -- From the defaults on, one value after the other.
  induction values using List.reverseRecOn with
  | nil => exact ⟨typed, fun field member => find?_defaults distinct member, typed.coerce_self distinct⟩
  | append_singleton values value ih =>
      rw [afterAll_append]
      rcases schema.accepts_or_refuses value with ⟨entries, rfl, fits⟩ | ⟨error, refused⟩
      · rw [configured_of_fits distinct ih.wellTyped fits]
        have updated := ih.wellTyped.updated fits
        refine ⟨updated, fun field member => ?_, updated.coerce_self distinct⟩
        rw [find?_updated, ih.latest field member, Option.map_some]
        cases present : Entries.find? entries field.name with
        | none => simp [Schema.latest, given, fits, present]
        | some found => simp [Schema.latest, given, fits, present]
      · rw [configured_of_refuses refused]
        refine ⟨ih.wellTyped, fun field member => ?_, ih.stable⟩
        rw [ih.latest field member]
        simp [Schema.latest, given_of_refuses refused]

end Schema

/-! Rules -/

theorem Check.wellTyped_defaults {check : Check} {schema : Schema}
    (has : check.schema = some schema) :
    schema.Distinct ∧ schema.WellTyped schema.defaults := by
  cases check <;> cases has <;>
    exact ⟨by unfold Schema.Distinct; decide, rfl, by decide⟩

namespace Rule

variable {rule : Rule} {schema : Schema} {settings : Settings} {value : Json}

def configureAll (rule : Rule) (values : List Json) : Rule :=
  values.foldl (fun rule value => (rule.configure value).1) rule

theorem configure_of_coerce (has : rule.check.schema = some schema)
    (held : rule.settings = some settings) {merged : Settings}
    (coerced : schema.coerce value settings = .ok merged) :
    rule.configure value = ({ rule with settings := some merged }, true, []) := by
  simp only [configure, has, held, coerced]

theorem configure_of_refuses (has : rule.check.schema = some schema)
    (held : rule.settings = some settings) {error : SettingsError}
    (refused : schema.Refuses value error) :
    (rule.configure value).1 = rule ∧ (rule.configure value).2.1 = false := by
  simp only [configure, has, held, Schema.coerce_of_refuses refused settings, and_self]

theorem settings_configure (has : rule.check.schema = some schema)
    (held : rule.settings = some settings) (value : Json) :
    (rule.configure value).1 = { rule with settings := some (schema.configured settings value) } := by
  unfold Schema.configured
  cases coerced : schema.coerce value settings with
  | ok merged => rw [configure_of_coerce has held coerced]
  | error error =>
      simp only [configure, has, held, coerced]
      rw [← held]

theorem configureAll_eq {check : Check} (has : check.schema = some schema) (values : List Json) :
    (ofCheck check).configureAll values = ⟨check, some (schema.afterAll values)⟩ := by
  induction values using List.reverseRecOn with
  | nil => simp [configureAll, ofCheck, has, Schema.afterAll]
  | append_singleton values value ih =>
      have last : (ofCheck check).configureAll (values ++ [value]) =
          (((ofCheck check).configureAll values).configure value).1 := by
        rw [configureAll, List.foldl_append]
        rfl
      have named : (⟨check, some (schema.afterAll values)⟩ : Rule).check.schema = some schema := has
      rw [last, ih, Schema.afterAll_append]
      exact settings_configure named rfl value

end Rule

namespace Schema

/-- A value is merged into well-typed settings exactly if it is an object in which every known field
has its type, and then these fields are replaced and no others; else the first field of another type
is named. So after any values the settings are well typed, with the latest accepted value in each
field; a rule keeps its settings where a value is refused, and takes over its own settings without a
change. -/
theorem configure_all_or_nothing (schema : Schema) (distinct : schema.Distinct) :
    (∀ base value, schema.WellTyped base →
      (∀ merged, schema.coerce value base = .ok merged ↔
        ∃ entries, value = .object entries ∧ schema.Fits entries ∧
          merged = base.updated entries) ∧
      ∀ error, schema.coerce value base = .error error ↔ schema.Refuses value error) ∧
    (schema.WellTyped schema.defaults → ∀ values,
      schema.Reflects values (schema.afterAll values) ∧
      ∀ value error, schema.Refuses value error →
        schema.afterAll (values ++ [value]) = schema.afterAll values) ∧
    ∀ check : Check, check.schema = some schema → ∀ values, ∃ rule settings,
      (Rule.ofCheck check).configureAll values = rule ∧ rule.settings = some settings ∧
      schema.Reflects values settings ∧
      (∀ entries, schema.Fits entries → rule.configure (.object entries) =
        ({ rule with settings := some (settings.updated entries) }, true, [])) ∧
      (∀ value error, schema.Refuses value error →
        (rule.configure value).1 = rule ∧ (rule.configure value).2.1 = false) ∧
      rule.configure (.object settings) = (rule, true, []) := by
  refine ⟨fun base value typed => ?_, fun typed values => ?_, fun check has values => ?_⟩
  · exact ⟨fun merged => coerce_eq_ok_iff distinct typed, fun error =>
      coerce_eq_error_iff distinct typed⟩
  · refine ⟨reflects_afterAll distinct typed values, fun value error refused => ?_⟩
    rw [afterAll_append, configured_of_refuses refused]
  · obtain ⟨_, typed⟩ := Check.wellTyped_defaults has
    have reflects := reflects_afterAll distinct typed values
    refine ⟨_, _, Rule.configureAll_eq has values, rfl, reflects, ?_, ?_, ?_⟩
    · intro entries fits
      exact Rule.configure_of_coerce has rfl (coerce_of_fits distinct reflects.wellTyped fits)
    · intro value error refused
      exact Rule.configure_of_refuses has rfl refused
    · exact Rule.configure_of_coerce has rfl reflects.stable

def limitAndGrid : Schema :=
  [⟨"limit", .int, .int 3⟩, ⟨"grid", .list (.list .int), .list []⟩]

theorem configure_all_or_nothing_grid :
    limitAndGrid.Distinct ∧ limitAndGrid.WellTyped limitAndGrid.defaults ∧
    limitAndGrid.coerce (.object [("grid", .list [.list [.int 1, .bool true]]), ("limit", .int 7)])
        limitAndGrid.defaults = .error (.wrongType "grid" "list") ∧
    Entries.find? (limitAndGrid.afterAll
        [.object [("limit", .int 7), ("other", .null)], .object [("limit", .bool true)], .null])
      "limit" = some (.int 7) := by
  have distinct : limitAndGrid.Distinct := by
    unfold Distinct
    decide
  have typed : limitAndGrid.WellTyped limitAndGrid.defaults := ⟨rfl, by decide⟩
  obtain ⟨merges, runs, _⟩ := limitAndGrid.configure_all_or_nothing distinct
  refine ⟨distinct, typed, ?_, ?_⟩
  · have parts : limitAndGrid = [⟨"limit", .int, .int 3⟩] ++
      ⟨"grid", .list (.list .int), .list []⟩ :: [] := rfl
    have given : Entries.find? [("grid", .list [.list [.int 1, .bool true]]), ("limit", .int 7)]
      "grid" = some (Json.list [.list [.int 1, .bool true]]) := rfl
    have wrong : ¬(FieldType.list (.list .int)).Has (.list [.list [.int 1, .bool true]]) := by
      decide
    exact ((merges _ _ typed).2 _).mpr (.wrongType parts (by decide) given wrong)
  · exact (runs typed _).1.latest _ List.mem_cons_self

end Schema

end PhpAudit
