import PhpAudit.Audit
import PhpAudit.Report.Results

/-!
The scan of many files, one after the other. A file that cannot be read is passed over with a
warning; these warnings come after all other messages.
-/

namespace PhpAudit

/-- A file that was found, with what came of reading it. -/
structure FoundFile where
  path : Path
  content : Except FileFailure (List UInt8)

namespace FoundFile

/-- The text of a file that was read: bad bytes become replacement characters and line ends line
feeds. -/
def textOf (bytes : List UInt8) : String := String.ofList (unifyNewlines (Utf8.decodeLossy bytes))

def readable (file : FoundFile) : Option (String × String) :=
  match file.content with
  | .ok bytes => some (file.path.text, textOf bytes)
  | .error _ => none

def warning (file : FoundFile) : Option LogRecord :=
  match file.content with
  | .ok _ => none
  | .error failure =>
      some ⟨.warning, .audit,
        "Unable to read " ++ file.path.text ++ ": " ++ failure.message file.path⟩

end FoundFile

namespace Results

def record (audit : Audit) (results : Results) (path text : String) : Results × Log :=
  let (violations, log) := audit.auditText path text
  ({ results.add path violations with fileCount := results.fileCount + 1 },
    ⟨.debug, .audit, "Analysing " ++ path⟩ :: log)

def recordAll (audit : Audit) (results : Results) : List (String × String) → Results × Log
  | [] => (results, [])
  | (path, text) :: rest =>
      let (next, log) := results.record audit path text
      let (last, more) := next.recordAll audit rest
      (last, log ++ more)

def closingMessage (results : Results) : String :=
  "Analysed " ++ toString results.fileCount ++ " files, " ++ toString results.total ++
    " violations in " ++ hundredthsText 0 ++ "s"

/-- Audits all readable files. Time is not measured. -/
def scan (audit : Audit) (files : List FoundFile) : Results × Log :=
  let (results, log) := ({} : Results).recordAll audit (files.filterMap FoundFile.readable)
  let finished := { results with duration := some (.measured 0.0) }
  (finished, log ++ [⟨.info, .audit, finished.closingMessage⟩] ++
    files.filterMap FoundFile.warning)

end Results

end PhpAudit
