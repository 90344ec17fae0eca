import PhpAudit.Check.ForeignCalls
import PhpAudit.Check.Measures
import PhpAudit.Check.Settings
import PhpAudit.Check.SharedState

/-!
The twelve checks and the rules made of them. A rule is a check together with its current
settings. Most checks look at every statement of the flattened file and ask for a file with a
declaration.
-/

namespace PhpAudit

inductive Check where
  | openingTag | emptyCatch | methodModifiers | upperCaseConstants | capitalizedNames
  | propertyModifiers | parameterCount | returnTypes | branching | paths | sharedState
  | foreignCalls
deriving DecidableEq, Inhabited

namespace Check

def all : List Check :=
  [openingTag, emptyCatch, methodModifiers, upperCaseConstants, capitalizedNames,
    propertyModifiers, parameterCount, returnTypes, branching, paths, sharedState, foreignCalls]

def code : Check → String
  | openingTag => "E0001"
  | emptyCatch => "E0002"
  | methodModifiers => "E0003"
  | upperCaseConstants => "E0004"
  | capitalizedNames => "E0005"
  | propertyModifiers => "E0006"
  | parameterCount => "E0007"
  | returnTypes => "E0008"
  | branching => "E0009"
  | paths => "E0010"
  | sharedState => "E0012"
  | foreignCalls => "E0014"

def description : Check → String
  | openingTag => "Opening tag position"
  | emptyCatch => "Empty catch"
  | methodModifiers => "Method modifiers"
  | upperCaseConstants => "Uppercase constants"
  | capitalizedNames => "Capitalized class name"
  | propertyModifiers => "Property modifiers"
  | parameterCount => "Method parameters count"
  | returnTypes => "Return type signature"
  | branching => "Cyclomatic complexity"
  | paths => "Npath complexity"
  | sharedState => "Service compatibility with Shared Memory Model"
  | foreignCalls => "Law of Demeter violation. Method chaining should be avoided unless " ++
      "returning the same object type."

/-- The name under which a rule is listed. -/
def title : Check → String
  | openingTag => "OpeningTagRule"
  | emptyCatch => "EmptyCatchRule"
  | methodModifiers => "MethodModifiersRule"
  | upperCaseConstants => "UppercaseConstantsRule"
  | capitalizedNames => "CapitalizedClassNameRule"
  | propertyModifiers => "PropertyModifiersRule"
  | parameterCount => "MethodParametersRule"
  | returnTypes => "ReturnTypeSignatureRule"
  | branching => "CyclomaticComplexityRule"
  | paths => "NpathComplexityRule"
  | sharedState => "ServiceCompatibilityRule"
  | foreignCalls => "LawOfDemeterRule"

def ofCode? (code : String) : Option Check := all.find? fun check => check.code == code

/-- The settings of the checks that have any. -/
def schema : Check → Option Schema
  | parameterCount =>
      some [⟨"max_parameters", .int, .int 5⟩, ⟨"check_constructor", .bool, .bool true⟩]
  | branching => some [⟨"max_complexity", .int, .int 10⟩]
  | paths => some [⟨"max_paths", .int, .int 200⟩]
  | sharedState =>
      some [⟨"include_namespaces", .list .text, Json.texts ["App\\Service\\", "App\\Controller\\"]⟩,
        ⟨"exclude_namespaces", .list .text, Json.texts []⟩,
        ⟨"reset_interfaces", .list .text, Json.texts ["ResetInterface"]⟩]
  | _ => none

/-- Whether the check has anything to say about a file. -/
def applies (check : Check) (settings : Settings) (file : SourceFile) : Bool :=
  match check with
  | openingTag | emptyCatch | foreignCalls => true
  | sharedState =>
      selectsName (settings.texts "include_namespaces") (settings.texts "exclude_namespaces")
        file.qualifiedName
  | _ => file.qualifiedName.isSome

def statementFindings (check : Check) (settings : Settings) : Stmt → List Finding :=
  match check with
  | openingTag | foreignCalls => fun _ => []
  | emptyCatch => emptyCatches
  | methodModifiers => onDeclaration methodsWithoutModifier
  | upperCaseConstants => constantsInLowerCase
  | capitalizedNames => onDeclaration uncapitalizedName
  | propertyModifiers => onDeclaration propertiesWithoutModifier
  | parameterCount =>
      onDeclaration
        (tooManyParameters (settings.int "max_parameters") (settings.flag "check_constructor"))
  | returnTypes => onDeclaration missingReturnTypes
  | branching => onDeclaration (branchingMethods (settings.int "max_complexity"))
  | paths => onDeclaration (methodsWithManyPaths (settings.int "max_paths"))
  | sharedState => onDeclaration (stateWrites (settings.texts "reset_interfaces"))

/-- The findings of a check in a file. The place of the opening tag is a matter of the whole file,
and foreign calls are looked for in the top-level statements. -/
def findings (check : Check) (settings : Settings) (file : SourceFile) : List Finding :=
  match check with
  | openingTag => misplacedTag file
  | foreignCalls => file.statements.flatMap (callsToOthers file.types)
  | _ => file.statements.flatMap fun statement =>
      statement.flatten.flatMap (check.statementFindings settings)

end Check

structure Rule where
  check : Check
  settings : Option Settings

namespace Rule

def ofCheck (check : Check) : Rule := ⟨check, check.schema.map Schema.defaults⟩

def code (rule : Rule) : String := rule.check.code

def describe (rule : Rule) : String := "<" ++ rule.check.title ++ " '" ++ rule.code ++ "'>"

/-- Takes settings over. Settings that do not fit the schema leave the rule as it is, with a
warning; a rule without settings takes none. -/
def configure (rule : Rule) (value : Json) : Rule × Bool × Log :=
  match rule.check.schema, rule.settings with
  | some schema, some settings =>
      match schema.coerce value settings with
      | .ok merged => ({ rule with settings := some merged }, true, [])
      | .error error =>
          (rule, false, [⟨.warning, .rules, "Unable to parse config for rule " ++ rule.code ++
            ", so default values will be used. Parsing error: " ++ error.message⟩])
  | _, _ => (rule, false, [])

def violations (rule : Rule) (file : SourceFile) : List Violation :=
  let settings := rule.settings.getD []
  if rule.check.applies settings file then
    (rule.check.findings settings file).map (file.violation rule.code)
  else []

end Rule

end PhpAudit
