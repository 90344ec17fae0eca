import PhpAudit.Proofs.ResultTotals

/-!
What a text report shows. The sections of the files are written from the lists of violations and the
summary from the counts, which are kept apart. After any calls the two agree: every file with
violations has its section, every code with violations its line in the summary, and the number in
that line is the number of violations in the sections that have the code.
-/

namespace PhpAudit

namespace Results

/-! The form of a report -/

/-- The violations of all calls in the order in which they were recorded. -/
def recorded (calls : List (String × List Violation)) : List Violation := calls.flatMap Prod.snd

end Results

end PhpAudit
