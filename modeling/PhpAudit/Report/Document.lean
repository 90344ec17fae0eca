import PhpAudit.Json.Writer
import PhpAudit.Report.Results

/-!
Results as a JSON document.
-/

namespace PhpAudit

def Span.toJson (span : Span) : Json :=
  .object [("line", .int span.line), ("column", .int span.column),
    ("position", .int span.position)]

def Violation.toJson (violation : Violation) : Json :=
  .object [("rule", .text violation.rule), ("line", .text violation.line),
    ("suggestion", .text violation.suggestion), ("span", violation.span.toJson)]

def Duration.toJson : Duration → Json
  | whole seconds => .int seconds
  | measured seconds => .float seconds

namespace Results

/-- The counts stand in the order of the codes. -/
def toJson (results : Results) : Json :=
  let counts := results.counts.mergeSort fun first second => decide (first.1 ≤ second.1)
  .object
    [("files", .object (results.files.map fun entry =>
        (entry.1, .list (entry.2.map Violation.toJson)))),
      ("codes_count", .object (counts.map fun entry => (entry.1, .int entry.2))),
      ("total_files_count", .int results.fileCount),
      ("duration", (results.duration.map Duration.toJson).getD .null)]

def document (results : Results) : String := results.toJson.render 2 ++ "\n"

end Results

end PhpAudit
