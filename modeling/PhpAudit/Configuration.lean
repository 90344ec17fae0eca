import PhpAudit.Check.Catalogue
import PhpAudit.Files.Tree
import PhpAudit.Json.Reader
import PhpAudit.Json.Writer
import PhpAudit.Text.Utf8

/-!
The configuration of a run: where the sources are, which rules are enabled or disabled, their
settings and the form of the report. It is kept in a JSON file, in which every key is optional.
-/

namespace PhpAudit

inductive OutputFormat where
  | text | json
deriving DecidableEq, Inhabited

namespace OutputFormat

def name : OutputFormat → String
  | text => "text"
  | json => "json"

def ofName? (name : String) : Option OutputFormat :=
  if name == "text" then some text else if name == "json" then some json else none

end OutputFormat

structure Configuration where
  source : String := "./src"
  enabled : List String := []
  disabled : List String := []
  settings : Entries Json := []
  output : OutputFormat := .text

inductive ConfigurationError where
  | notObject (kind : String)
  | wrongKind (key expected kind : String)
  | notCodes (key : String)
  | unknownFormat (name : String)
  | unreadable (path : Path) (failure : FileFailure)
  | notJson (path : Path) (message : String)

def ConfigurationError.message : ConfigurationError → String
  | notObject kind => "Configuration must be an object, got " ++ kind
  | wrongKind key expected kind =>
      "Configuration key " ++ quoted key ++ " must be " ++ expected ++ ", got " ++ kind
  | notCodes key => "Configuration key " ++ quoted key ++ " must be a list of rule codes"
  | unknownFormat name =>
      "Unknown output format " ++ quoted name ++ ", expected one of text, json"
  | unreadable path failure => "Unable to read " ++ path.text ++ ": " ++ failure.message path
  | notJson path message => path.text ++ " is not valid JSON: " ++ message

namespace Configuration

/-- The settings of all checks that have any, by code. -/
def defaultSettings : Entries Json :=
  Check.all.filterMap fun check =>
    check.schema.map fun schema => (check.code, .object schema.defaults)

/-- The configuration that spells out the default settings. -/
def standard : Configuration := { settings := defaultSettings }

/-- Reads the value of a key, if the key is there, and uses it. -/
def withKey (entries : Entries Json) (key : String) (configuration : Configuration)
    (use : Json → Except ConfigurationError Configuration) :
    Except ConfigurationError Configuration :=
  match Entries.find? entries key with
  | none => .ok configuration
  | some value => use value

def expectText (key : String) : Json → Except ConfigurationError String
  | .text value => .ok value
  | other => .error (.wrongKind key "str" other.kindName)

def expectObject (key : String) : Json → Except ConfigurationError (Entries Json)
  | .object entries => .ok entries
  | other => .error (.wrongKind key "dict" other.kindName)

def codesOf (key : String) : List Json → Except ConfigurationError (List String)
  | [] => .ok []
  | .text code :: rest => (codesOf key rest).map (code :: ·)
  | _ :: _ => .error (.notCodes key)

def expectCodes (key : String) : Json → Except ConfigurationError (List String)
  | .list items => codesOf key items
  | other => .error (.wrongKind key "list" other.kindName)

def expectFormat (key : String) (value : Json) : Except ConfigurationError OutputFormat := do
  let name ← expectText key value
  match OutputFormat.ofName? name with
  | some format => .ok format
  | none => .error (.unknownFormat name)

/-- Reads a JSON value. The keys are looked at in a fixed order, whatever theirs is, and unknown
keys are ignored. -/
def ofJson : Json → Except ConfigurationError Configuration
  | .object entries => do
      let first ← withKey entries "src" {} fun value => do
        return { source := ← expectText "src" value }
      let second ← withKey entries "enabled_rules" first fun value => do
        return { first with enabled := ← expectCodes "enabled_rules" value }
      let third ← withKey entries "disable_rules" second fun value => do
        return { second with disabled := ← expectCodes "disable_rules" value }
      let fourth ← withKey entries "rules" third fun value => do
        return { third with settings := ← expectObject "rules" value }
      withKey entries "output" fourth fun value => do
        return { fourth with output := ← expectFormat "output" value }
  | other => .error (.notObject other.kindName)

def toJson (configuration : Configuration) : Json :=
  .object [("src", .text configuration.source),
    ("enabled_rules", Json.texts configuration.enabled),
    ("disable_rules", Json.texts configuration.disabled),
    ("rules", .object configuration.settings),
    ("output", .text configuration.output.name)]

end Configuration

/-- Why no configuration was loaded from a file. -/
inductive LoadError where
  | configuration (error : ConfigurationError)
  | encoding (error : Utf8.Error)
  /-- A whole number with so many digits is not read. -/
  | tooManyDigits (count : Nat)

namespace LoadError

def message : LoadError → String
  | configuration error => error.message
  | encoding error => error.message
  | tooManyDigits count => (Json.FaultKind.tooManyDigits count).message

/-- The fault that was met in the text of the file at a path. -/
def ofFault (path : Path) (text : String) (fault : Json.Fault) : LoadError :=
  match fault.kind with
  | .tooManyDigits count => .tooManyDigits count
  | _ => .configuration (.notJson path (fault.message text.toList))

end LoadError

namespace Configuration

/-- Reads the text of the configuration file at a path. -/
def ofText (path : Path) (text : String) : Except LoadError Configuration × Log :=
  match Json.read text with
  | .error fault => (.error (.ofFault path text fault), [])
  | .ok value =>
      ((ofJson value).mapError .configuration,
        [⟨.info, .configuration, "Loaded configuration from " ++ path.text⟩])

/-- Loads what was read from a path; the bytes are text in UTF-8, with any line ends. -/
def load (path : Path) : Except FileFailure (List UInt8) → Except LoadError Configuration × Log
  | .error failure => (.error (.configuration (.unreadable path failure)), [])
  | .ok bytes =>
      match Utf8.decode bytes with
      | .error error => (.error (.encoding error), [])
      | .ok characters => ofText path (String.ofList (unifyNewlines characters))

end Configuration

end PhpAudit
