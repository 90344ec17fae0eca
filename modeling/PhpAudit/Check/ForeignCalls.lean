import PhpAudit.Check.Finding
import PhpAudit.Receiver.Tracker

/-!
The Law of Demeter: a method talks to its own object only.
-/

namespace PhpAudit

def ForeignCall.finding (call : ForeignCall) : Finding :=
  let start := "Law of Demeter violation. Method '" ++ call.method ++ "' is called on "
  ⟨call.span, match call.receiver with
    | none => start ++ "an object of unknown type (possible foreign object)."
    | some type => start ++ "'" ++ type ++ "', which is a foreign object."⟩

def callsToOthers (registry : TypeRegistry) (statement : Stmt) : List Finding :=
  (statement.foreignCalls registry).map ForeignCall.finding

end PhpAudit
