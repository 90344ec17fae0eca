import PhpAudit.Configuration

/-!
The audit of source texts with the rules that a configuration selects.
-/

namespace PhpAudit

/-- The rules that run, in ascending order of their codes. -/
structure Audit where
  rules : List Rule

namespace Audit

def prepare (configuration : Configuration) : Audit × Log :=
  let (catalogue, configured) := Catalogue.standard.configure configuration.settings
  let rules := catalogue.selected configuration.enabled configuration.disabled
  (⟨rules⟩, configured ++
    catalogue.unknownCodes (configuration.enabled ++ configuration.disabled) ++
    [⟨.debug, .audit, "Enabled rules: " ++ ", ".intercalate (rules.map Rule.code)⟩])

def violations (audit : Audit) (file : SourceFile) : List Violation :=
  audit.rules.flatMap fun rule => rule.violations file

/-- The types of a file are worked out when foreign calls are looked for in a statement. -/
def needsTypes (audit : Audit) (file : SourceFile) : Bool :=
  audit.rules.any (fun rule => rule.check == .foreignCalls) && !file.statements.isEmpty

def auditText (audit : Audit) (path text : String) : List Violation × Log :=
  let (file, log) := SourceFile.ofText path text
  let types : Log :=
    if audit.needsTypes file then
      [⟨.debug, .types, "type registry: " ++ quotedList file.types.names⟩]
    else []
  (audit.violations file, log ++ types)

end Audit

end PhpAudit
