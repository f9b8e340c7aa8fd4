/-!
# Outcomes of host code

Host code called by the bridge returns, fails with a chain of error texts, or panics.
-/

namespace BrokerBridge

/-- How a call into host code ends. The texts of an error go from the innermost outwards. -/
inductive HostOutcome where
  | ok
  | error (causes : List String)
  /-- A panic whose payload may hold no text. -/
  | panic (text : Option String)
deriving DecidableEq, Repr

namespace HostOutcome

def opaquePanic : String := "non-string panic payload"

/-- The text of a failure: an error's causes from the outermost inwards, or the panic. -/
def failure? : HostOutcome → Option String
  | ok => none
  | error causes => some (": ".intercalate causes.reverse)
  | panic text => some ("callback panicked: " ++ text.getD opaquePanic)

end HostOutcome

end BrokerBridge
