/-!
# Metrics

Counters of what a session delivers. They count from the moment they are registered, which
happens once in each registry.
-/

namespace BrokerBridge

structure Counters where
  messagesPushed : Nat := 0
  acksDelivered : Nat := 0
  nacksSuppressed : Nat := 0
  decodeErrors : Nat := 0
  callbackFailures : Nat := 0
deriving DecidableEq, Repr

def Counters.entries (c : Counters) : List (String × Nat) :=
  [("bmq_bridge_messages_pushed_total", c.messagesPushed),
    ("bmq_bridge_acks_delivered_total", c.acksDelivered),
    ("bmq_bridge_nacks_suppressed_total", c.nacksSuppressed),
    ("bmq_bridge_property_decode_errors_total", c.decodeErrors),
    ("bmq_bridge_callback_failures_total", c.callbackFailures)]

structure MetricsRegistry where
  counters : Option Counters := none
deriving DecidableEq, Repr

namespace MetricsRegistry

instance : Inhabited MetricsRegistry := ⟨{}⟩

/-- Register the counters; none where they are registered already. -/
def register? (r : MetricsRegistry) : Option MetricsRegistry :=
  match r.counters with
  | none => some ⟨some {}⟩
  | some _ => none

def observe (f : Counters → Counters) (r : MetricsRegistry) : MetricsRegistry :=
  ⟨r.counters.map f⟩

def entries (r : MetricsRegistry) : List (String × Nat) :=
  match r.counters with
  | none => []
  | some c => c.entries

end MetricsRegistry

end BrokerBridge
