import PhpAudit.Check.Finding
import PhpAudit.Entries
import PhpAudit.Json.Value

/-!
What an audit of many files found: the violations of every file in the order of the files, and
how many violations there are of each rule.
-/

namespace PhpAudit

/-- A length of time in seconds, given as a whole number or measured. -/
inductive Duration where
  | whole (seconds : Int)
  | measured (seconds : Float)

structure Results where
  files : Entries (List Violation) := []
  /-- The number of violations of each rule, in the order of their first violations. -/
  counts : Entries Nat := []
  fileCount : Nat := 0
  /-- Absent while the audit runs. -/
  duration : Option Duration := none

namespace Results

def countViolation (counts : Entries Nat) (violation : Violation) : Entries Nat :=
  Entries.put counts violation.rule ((Entries.find? counts violation.rule).getD 0 + 1)

/-- Adds violations behind those the file has already. -/
def add (results : Results) (path : String) (violations : List Violation) : Results :=
  { results with
    files := Entries.put results.files path
      ((Entries.find? results.files path).getD [] ++ violations)
    counts := violations.foldl countViolation results.counts }

def total (results : Results) : Nat :=
  results.counts.foldr (fun entry rest => entry.2 + rest) 0

def hasViolations (results : Results) : Bool := 0 < results.total

/-- The counts from the highest to the lowest; equal ones stay in their order. -/
def ranking (results : Results) : List (String × Nat) :=
  results.counts.mergeSort fun first second => decide (second.2 ≤ first.2)

end Results

end PhpAudit
