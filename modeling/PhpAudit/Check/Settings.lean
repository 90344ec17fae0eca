import PhpAudit.Json.Value
import PhpAudit.Text.Quoted

/-!
Settings of checks. A schema lists the fields with their types and default values; settings hold
one value for each field, in that order. A JSON value is merged into settings as a whole or, if
one of its values has the wrong type, not at all.
-/

namespace PhpAudit

inductive FieldType where
  | int | bool | float | text | object | any
  | list (item : FieldType)
deriving DecidableEq, Inhabited

/-- Whether a value has the type. A whole number is a float too; a truth value is no number. -/
def FieldType.accepts : FieldType → Json → Bool
  | any, _ => true
  | int, .int _ => true
  | bool, .bool _ => true
  | float, .int _ => true
  | float, .float _ => true
  | text, .text _ => true
  | object, .object _ => true
  | list item, .list values => values.all item.accepts
  | _, _ => false

structure Field where
  name : String
  type : FieldType
  initial : Json

abbrev Schema := List Field

abbrev Settings := Entries Json

inductive SettingsError where
  | notObject (kind : String)
  | wrongType (field kind : String)
deriving DecidableEq, Inhabited

def SettingsError.message : SettingsError → String
  | notObject kind => "expected an object, got " ++ kind
  | wrongType field kind => "invalid type for " ++ quoted field ++ ": " ++ kind

namespace Schema

def defaults (schema : Schema) : Settings :=
  List.map (fun field => (field.name, field.initial)) schema

/-- Takes the fields one by one; a field without a value stays as it is, and names that are no
field are ignored. -/
def merge (schema : Schema) (values : Entries Json) (base : Settings) :
    Except SettingsError Settings :=
  match schema with
  | [] => .ok base
  | field :: rest =>
      match Entries.find? values field.name with
      | none => merge rest values base
      | some value =>
          if field.type.accepts value then merge rest values (Entries.put base field.name value)
          else .error (.wrongType field.name value.kindName)

def coerce (schema : Schema) (value : Json) (base : Settings) : Except SettingsError Settings :=
  match value with
  | .object entries => merge schema entries base
  | other => .error (.notObject other.kindName)

end Schema

namespace Settings

def int (settings : Settings) (name : String) : Int :=
  match Entries.find? settings name with
  | some (.int value) => value
  | _ => 0

def flag (settings : Settings) (name : String) : Bool :=
  match Entries.find? settings name with
  | some (.bool value) => value
  | _ => false

def texts (settings : Settings) (name : String) : List String :=
  match Entries.find? settings name with
  | some (.list values) => values.filterMap fun
      | .text value => some value
      | _ => none
  | _ => []

end Settings

end PhpAudit
