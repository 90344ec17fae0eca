import PhpAudit.Source

/-!
What a check reports: a finding is a place with advice, a violation also names the rule and
shows the line.
-/

namespace PhpAudit

structure Finding where
  span : Span
  suggestion : String
deriving DecidableEq, Inhabited

structure Violation where
  rule : String
  line : String
  suggestion : String
  span : Span
deriving DecidableEq, Inhabited

namespace SourceFile

/-- A finding in a file together with the line it stands on. -/
def violation (file : SourceFile) (rule : String) (finding : Finding) : Violation :=
  ⟨rule, file.lineText finding.span.line, finding.suggestion, finding.span⟩

end SourceFile

end PhpAudit
