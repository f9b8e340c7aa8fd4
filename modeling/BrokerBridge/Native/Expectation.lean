import BrokerBridge.Native.Call

/-!
# Expected calls

A rehearsal checks each native call against the next one it expects. A strict queue expects
what was declared up front; an automatic one declares each call just before it arrives.
-/

namespace BrokerBridge

inductive ExpectationMode where
  | auto | strict
deriving DecidableEq, Repr

/-- How a call, or the end of a run, fails to meet the expectations. -/
inductive Mismatch where
  /-- Another call was expected. -/
  | unexpected (expected call : NativeCall)
  /-- No call was expected any more. -/
  | exhausted (call : NativeCall)
  /-- Calls were expected that never came. -/
  | unmet (pending : List NativeCall)

namespace Mismatch

/-- What is said of a mismatch, up to the calls that are shown. -/
def message : Mismatch → String
  | unexpected _ call => s!"unexpected {call.name} call"
  | exhausted call => s!"unexpected {call.name} call with no expectation left"
  | unmet _ => "expected calls never arrived"

/-- The calls that are shown, where `shown` writes one of them out with its arguments. -/
def details (shown : NativeCall → String) : Mismatch → String
  | unexpected expected call => ": expected " ++ shown expected ++ ", got " ++ shown call
  | exhausted call => ": " ++ shown call
  | unmet pending => ": [" ++ ", ".intercalate (pending.map shown) ++ "]"

def text (shown : NativeCall → String) (m : Mismatch) : String := m.message ++ m.details shown

end Mismatch

structure ExpectationQueue where
  mode : ExpectationMode
  /-- The calls still expected, the next one first. -/
  pending : List NativeCall := []
  /-- The calls that met their expectation, the oldest first. -/
  history : List NativeCall := []

namespace ExpectationQueue

def auto : ExpectationQueue := { mode := .auto }

def strict : ExpectationQueue := { mode := .strict }

def expect (q : ExpectationQueue) (call : NativeCall) : ExpectationQueue :=
  { q with pending := q.pending ++ [call] }

/-- An automatic queue declares the arriving call. -/
def announce (q : ExpectationQueue) (call : NativeCall) : ExpectationQueue :=
  match q.mode with
  | .auto => q.expect call
  | .strict => q

def take (q : ExpectationQueue) : Option NativeCall × ExpectationQueue :=
  (q.pending.head?, { q with pending := q.pending.tail })

def record (q : ExpectationQueue) (call : NativeCall) : ExpectationQueue :=
  { q with history := q.history ++ [call] }

/-- Check a call against the next expectation, which is used up even by a call that differs. -/
def observe (q : ExpectationQueue) (call : NativeCall) :
    Except Mismatch Unit × ExpectationQueue :=
  match (q.announce call).take with
  | (none, q) => (.error (.exhausted call), q)
  | (some expected, q) =>
      if expected.agrees call then (.ok (), q.record call)
      else (.error (.unexpected expected call), q)

def remaining (q : ExpectationQueue) : Nat := q.pending.length

def satisfied (q : ExpectationQueue) : Except Mismatch Unit :=
  if q.pending.isEmpty then .ok () else .error (.unmet q.pending)

end ExpectationQueue

end BrokerBridge
