import PhpAudit.Configuration
import PhpAudit.Text.DecimalDigit

/-!
The command line. A long option may be cut short as long as it stays unique and may carry its
value behind an equals sign; short options may be joined, the last one with its value. All
arguments are classified before the first one takes effect.
-/

namespace PhpAudit

inductive OptionValue where
  | text (value : String)
  /-- Two dashes attached to an option are no value, and yet the option is given. -/
  | missing
deriving DecidableEq, Inhabited

def OptionValue.ofText (value : String) : OptionValue :=
  if value == "--" then .missing else .text value

structure Options where
  configuration : OptionValue := .text "phanalist.json"
  standardConfiguration : Bool := false
  source : Option OptionValue := none
  output : Option OutputFormat := none
  summaryOnly : Bool := false
  quiet : Bool := false
  verbosity : Nat := 0
  listRules : Bool := false

inductive Flag where
  | help | version | configuration | standardConfiguration | source | output | summaryOnly | quiet
  | verbose | listRules
deriving DecidableEq, Inhabited

namespace Flag

def all : List Flag :=
  [help, version, configuration, standardConfiguration, source, output, summaryOnly, quiet,
    verbose, listRules]

def spellings : Flag → List String
  | help => ["-h", "--help"]
  | version => ["--version"]
  | configuration => ["-c", "--config"]
  | standardConfiguration => ["-d", "--default-config"]
  | source => ["-s", "--src"]
  | output => ["-o", "--output-format"]
  | summaryOnly => ["--summary-only"]
  | quiet => ["-q", "--quiet"]
  | verbose => ["-v", "--verbose"]
  | listRules => ["--list-rules"]

def takesValue : Flag → Bool
  | configuration | source | output => true
  | _ => false

def label (flag : Flag) : String := "/".intercalate flag.spellings

def table : List (String × Flag) :=
  all.flatMap fun flag => flag.spellings.map fun spelling => (spelling, flag)

def ofSpelling? (spelling : List Char) : Option Flag := table.lookup (String.ofList spelling)

end Flag

inductive UsageError where
  | ambiguous (argument : String) (spellings : List String)
  | missingValue (flag : Flag)
  | unwantedValue (flag : Flag) (value : String)
  | unknownFormat (value : String)
  | unrecognized (arguments : List String)
deriving DecidableEq, Inhabited

def UsageError.message : UsageError → String
  | ambiguous argument spellings =>
      "ambiguous option: " ++ argument ++ " could match " ++ ", ".intercalate spellings
  | missingValue flag => "argument " ++ flag.label ++ ": expected one argument"
  | unwantedValue flag value =>
      "argument " ++ flag.label ++ ": ignored explicit argument " ++ quoted value
  | unknownFormat value =>
      "argument " ++ Flag.output.label ++ ": invalid choice: " ++ quoted value ++
        " (choose from 'text', 'json')"
  | unrecognized arguments => "unrecognized arguments: " ++ " ".intercalate arguments

/-- What an argument is by itself. -/
inductive ArgumentKind where
  /-- A flag, perhaps with text attached to it, and whether it was written with one dash. -/
  | known (flag : Flag) (short : Bool) (attached : Option (List Char))
  | unknown
  | separator
  | plain
deriving DecidableEq, Inhabited

namespace ArgumentKind

def splitEquals (argument : List Char) : Option (List Char × List Char) :=
  match argument.span (· != '=') with
  | (before, _ :: value) => some (before, value)
  | (_, []) => none

/-- A minus and digits, perhaps with a point before the last of them and a line feed behind. -/
def isNegativeNumber : List Char → Bool
  | '-' :: rest =>
      let number := if rest.getLast? == some '\n' then rest.dropLast else rest
      let (_, tail) := number.span isArgumentDigit
      match tail with
      | [] => !number.isEmpty
      | '.' :: places => !places.isEmpty && places.all isArgumentDigit
      | _ => false
  | _ => false

def isShort : List Char → Bool
  | _ :: '-' :: _ => false
  | _ => true

/-- The spellings that a long argument may be short for. -/
def candidates (start : List Char) : List (String × Flag) :=
  Flag.table.filter fun entry => start.isPrefixOf entry.1.toList

/-- A long argument that is no full spelling. -/
def classifyLong (argument : List Char) : Except UsageError (Option ArgumentKind) :=
  let (start, attached) := match splitEquals argument with
    | some (start, value) => (start, some value)
    | none => (argument, none)
  match candidates start with
  | [] => .ok none
  | [(_, flag)] => .ok (some (.known flag false attached))
  | several => .error (.ambiguous (String.ofList argument) (several.map Prod.fst))

/-- A short flag with text behind it. -/
def classifyShort (argument : List Char) : Option ArgumentKind :=
  (Flag.ofSpelling? (argument.take 2)).map fun flag =>
    .known flag true (some (argument.drop 2))

/-- A flag in one of its full spellings, perhaps with an equals sign and text. -/
def classifySpelled (argument : List Char) : Option ArgumentKind :=
  match Flag.ofSpelling? argument with
  | some flag => some (.known flag (isShort argument) none)
  | none =>
      (splitEquals argument).bind fun (start, value) =>
        (Flag.ofSpelling? start).map fun flag => .known flag (isShort start) (some value)

/-- An argument that starts with a dash and names no flag. Numbers and texts with spaces are
plain arguments. -/
def classifyOther (argument : List Char) : ArgumentKind :=
  if isNegativeNumber argument || argument.contains ' ' then .plain else .unknown

def classify (argument : List Char) : Except UsageError ArgumentKind :=
  match argument with
  | '-' :: next :: _ =>
      match classifySpelled argument with
      | some kind => .ok kind
      | none =>
          if next == '-' then
            (classifyLong argument).map fun kind => kind.getD (classifyOther argument)
          else .ok ((classifyShort argument).getD (classifyOther argument))
  | _ => .ok .plain

/-- Everything after a separator is a plain argument. -/
def classifyAll : List String → Except UsageError (List (String × ArgumentKind))
  | [] => .ok []
  | argument :: rest =>
      if argument == "--" then
        .ok ((argument, .separator) :: rest.map fun following => (following, .plain))
      else do
        let kind ← classify argument.toList
        return (argument, kind) :: (← classifyAll rest)

end ArgumentKind

/-- A flag that takes effect, with its value if it takes one. -/
structure Effect where
  flag : Flag
  value : String := ""
deriving DecidableEq, Inhabited

/-- The effects of an argument, and the flag at its end that waits for a value. -/
structure Effects where
  done : List Effect := []
  waiting : Option Flag := none
deriving DecidableEq, Inhabited

namespace Effects

def after (effect : Effect) (effects : Effects) : Effects :=
  { effects with done := effect :: effects.done }

def alone (flag : Flag) : Effects :=
  if flag.takesValue then ⟨[], some flag⟩ else ⟨[⟨flag, ""⟩], none⟩

def withValue (flag : Flag) (text : List Char) : Effects := ⟨[⟨flag, String.ofList text⟩], none⟩

/-- A flag written with one dash and the text behind it. Behind a flag that takes no value this
is the letter of another flag with what is behind that. -/
def joined (flag : Flag) (text : List Char) : Except UsageError Effects :=
  if flag.takesValue then .ok (withValue flag text)
  else match text with
    | [] => .error (.unwantedValue flag "")
    | next :: rest =>
        match Flag.ofSpelling? ['-', next] with
        | none => .error (.unwantedValue flag (String.ofList text))
        | some following =>
            match rest with
            | [] => .ok ((alone following).after ⟨flag, ""⟩)
            | other :: others => (joined following (other :: others)).map (after ⟨flag, ""⟩)

def ofFlag (flag : Flag) (short : Bool) : Option (List Char) → Except UsageError Effects
  | none => .ok (alone flag)
  | some text =>
      if short then joined flag text
      else if flag.takesValue then .ok (withValue flag text)
      else .error (.unwantedValue flag (String.ofList text))

end Effects

inductive Request where
  | help
  | version
  | run (options : Options)

structure Reading where
  options : Options := {}
  /-- The arguments that mean nothing. -/
  extras : List String := []

namespace Reading

def set (reading : Reading) (change : Options → Options) : Reading :=
  { reading with options := change reading.options }

def addExtra (reading : Reading) (text : String) : Reading :=
  { reading with extras := reading.extras ++ [text] }

/-- The format that a value names; without a value it is text. -/
def formatOf (value : String) : Except UsageError OutputFormat :=
  match OptionValue.ofText value with
  | .missing => .ok .text
  | .text name =>
      match OutputFormat.ofName? name with
      | some format => .ok format
      | none => .error (.unknownFormat name)

/-- The effect of a flag, unless it ends the reading. -/
def apply (reading : Reading) (effect : Effect) : Except UsageError (Request ⊕ Reading) :=
  match effect.flag with
  | .help => .ok (.inl .help)
  | .version => .ok (.inl .version)
  | .configuration =>
      .ok (.inr (reading.set ({ · with configuration := .ofText effect.value })))
  | .standardConfiguration => .ok (.inr (reading.set ({ · with standardConfiguration := true })))
  | .source => .ok (.inr (reading.set ({ · with source := some (.ofText effect.value) })))
  | .output =>
      (formatOf effect.value).map fun format =>
        .inr (reading.set ({ · with output := some format }))
  | .summaryOnly => .ok (.inr (reading.set ({ · with summaryOnly := true })))
  | .quiet => .ok (.inr (reading.set ({ · with quiet := true })))
  | .verbose =>
      .ok (.inr (reading.set fun options => { options with verbosity := options.verbosity + 1 }))
  | .listRules => .ok (.inr (reading.set ({ · with listRules := true })))

def applyAll (reading : Reading) : List Effect → Except UsageError (Request ⊕ Reading)
  | [] => .ok (.inr reading)
  | effect :: rest => do
      match ← reading.apply effect with
      | .inl request => .ok (.inl request)
      | .inr next => next.applyAll rest

def finish (reading : Reading) : Except UsageError Request :=
  if reading.extras.isEmpty then .ok (.run reading.options)
  else .error (.unrecognized reading.extras)

/-- Takes the arguments one after the other; a flag that waits for a value takes the next
argument, which has to be a plain one. -/
def readAll (reading : Reading) : List (String × ArgumentKind) → Except UsageError Request
  | [] => reading.finish
  | (_, .known flag short attached) :: rest => do
      let effects ← Effects.ofFlag flag short attached
      match effects.waiting with
      | none =>
          match ← reading.applyAll effects.done with
          | .inl request => .ok request
          | .inr next => next.readAll rest
      | some waiting =>
          match rest with
          | (value, .plain) :: others =>
              match ← reading.applyAll (effects.done ++ [⟨waiting, value⟩]) with
              | .inl request => .ok request
              | .inr next => next.readAll others
          | _ => .error (.missingValue waiting)
  | (argument, _) :: rest => (reading.addExtra argument).readAll rest

end Reading

def Request.read (arguments : List String) : Except UsageError Request := do
  Reading.readAll {} (← ArgumentKind.classifyAll arguments)

end PhpAudit
