import PhpAudit.Command.Options
import PhpAudit.Command.Scan
import PhpAudit.Files.Discovery
import PhpAudit.Report.Summary

/-!
A run of the command: reading the options, loading the configuration, scanning the files and
writing the report. The exit status is zero without violations, one with violations, two for
wrong options or a wrong configuration, and three when there is nothing at the source path.
-/

namespace PhpAudit

/-- Whether there is anything at the end of the path; for a name that is too long it cannot be
told. -/
def Place.hasPath (place : Place) (path : Path) : Except FileFailure Bool :=
  match place.find path with
  | .ok _ => .ok true
  | .error .nameTooLong => .error .nameTooLong
  | .error _ => .ok false

inductive ExitStatus where
  | clean | violations | usage | noSource
deriving DecidableEq, Inhabited

def ExitStatus.code : ExitStatus → Nat
  | clean => 0
  | violations => 1
  | usage => 2
  | noSource => 3

structure Outcome where
  status : ExitStatus
  output : String := ""
  messages : List String := []

/-- What stands before the first line feed. -/
def firstLine (text : String) : String := String.ofList (text.toList.takeWhile (· != '\n'))

namespace Options

def level (options : Options) : LogLevel :=
  match options.verbosity with
  | 0 => .warning
  | 1 => .info
  | _ => .debug

def messages (options : Options) (log : Log) : List String :=
  (log.atLeast options.level).map fun record => firstLine record.line

def outcome (options : Options) (status : ExitStatus) (log : Log) (output : String) : Outcome :=
  ⟨status, output, options.messages log⟩

/-- Where to look for sources; the options have precedence over the configuration. -/
def sourceFor (options : Options) (configuration : Configuration) : OptionValue :=
  options.source.getD (.text configuration.source)

/-- The form of the report; the options have precedence over the configuration. -/
def outputFor (options : Options) (configuration : Configuration) : OutputFormat :=
  options.output.getD configuration.output

end Options

def commandError (message : String) : LogRecord := ⟨.error, .command, message⟩

def unhandled (message : String) : LogRecord := commandError ("Unhandled exception: " ++ message)

/-- An option for a path was given without a value. -/
def noPath : LogRecord := unhandled "expected str, bytes or os.PathLike object, not list"

def LoadError.record : LoadError → LogRecord
  | configuration error => commandError error.message
  | encoding error => unhandled error.message
  | tooManyDigits count => unhandled (LoadError.tooManyDigits count).message

def ruleList : String :=
  String.join (Catalogue.standard.all.map fun rule =>
    rule.code ++ "  " ++ rule.check.description ++ "\n")

def versionText : String := "phanalist 0.1.0\n"

/-- The report in the form that is asked for. -/
def Results.write (palette : Palette) (format : OutputFormat) (summaryOnly : Bool)
    (results : Results) : String :=
  match format with
  | .json => results.document
  | .text => results.report palette summaryOnly

def Results.status (results : Results) : ExitStatus :=
  if results.hasViolations then .violations else .clean

namespace Command

def collect (place : Place) (source : Path) : List FoundFile :=
  (place.discover source).map fun path => ⟨path, place.read path⟩

/-- The scan of a source path, after everything in the log so far. -/
def scan (place : Place) (palette : Palette) (options : Options) (log : Log)
    (configuration : Configuration) (source : Path) : Outcome :=
  let (audit, prepared) := Audit.prepare configuration
  let (results, scanned) := Results.scan audit (collect place source)
  let output :=
    if options.quiet then ""
    else results.write palette (options.outputFor configuration) options.summaryOnly
  options.outcome results.status (log ++ prepared ++ scanned) output

def runWith (place : Place) (palette : Palette) (options : Options) (log : Log)
    (configuration : Configuration) : Outcome :=
  match options.sourceFor configuration with
  | .missing => options.outcome .usage (log ++ [noPath]) ""
  | .text source =>
      let path := Path.ofText source
      match place.hasPath path with
      | .error failure => options.outcome .usage (log ++ [unhandled (failure.message path)]) ""
      | .ok false =>
          options.outcome .noSource
            (log ++ [commandError ("Path " ++ source ++ " does not exist")]) ""
      | .ok true => scan place palette options log configuration path

/-- Loads the configuration file and goes on with it. A file that is not there stands for the
standard configuration. -/
def runLoaded (place : Place) (palette : Palette) (options : Options) (path : Path) : Outcome :=
  match place.hasPath path with
  | .error failure => options.outcome .usage [unhandled (failure.message path)] ""
  | .ok false =>
      runWith place palette options
        [⟨.warning, .command, "No configuration file " ++ path.text ++
          " has been found, using defaults"⟩] .standard
  | .ok true =>
      match Configuration.load path (place.read path) with
      | (.error error, log) => options.outcome .usage (log ++ [error.record]) ""
      | (.ok configuration, log) => runWith place palette options log configuration

def runOptions (place : Place) (palette : Palette) (options : Options) : Outcome :=
  if options.listRules then options.outcome .clean (Audit.prepare .standard).2 ruleList
  else if options.standardConfiguration then runWith place palette options [] .standard
  else match options.configuration with
    | .missing => options.outcome .usage [noPath] ""
    | .text path => runLoaded place palette options (Path.ofText path)

/-- The flags with the values they take. -/
def usage : String :=
  "usage: phanalist " ++ " ".intercalate (Flag.all.map fun flag =>
    "[" ++ flag.label ++ (if flag.takesValue then " VALUE" else "") ++ "]") ++ "\n"

def run (place : Place) (palette : Palette) (arguments : List String) : Outcome :=
  match Request.read arguments with
  | .error error => ⟨.usage, "", [firstLine ("phanalist: error: " ++ error.message)]⟩
  | .ok .help => ⟨.clean, usage, []⟩
  | .ok .version => ⟨.clean, versionText, []⟩
  | .ok (.run options) => runOptions place palette options

end Command

end PhpAudit
