import BrokerBridge.Message.Basic

/-!
# Packing messages into an event

The client accepts a message only for a queue that can take it. A refused message comes back
as it was.
-/

namespace BrokerBridge

/-- A message on its way out, not yet bound to a queue. -/
structure OutgoingMessage where
  payload : ByteArray
  properties : Option WireProperties
  correlation : Option Correlation
  compression : Compression
deriving DecidableEq

/-- The rules a message has to obey, in the order in which they are tried. -/
inductive PackingRule where
  | queueValid | queueWritable | queueNotSuspended | correlationPresent | payloadNonempty
  | payloadWithinLimit
deriving DecidableEq, Repr

namespace PackingRule

def all : List PackingRule :=
  [queueValid, queueWritable, queueNotSuspended, correlationPresent, payloadNonempty,
    payloadWithinLimit]

def code : PackingRule → Int
  | queueValid => -100
  | queueWritable => -101
  | queueNotSuspended => -108
  | correlationPresent => -102
  | payloadNonempty => -105
  | payloadWithinLimit => -104

def holds (limit : Nat) (t : QueueTable) (q : QueueHandle) (m : OutgoingMessage) :
    PackingRule → Bool
  | queueValid => t.isValid q
  | queueWritable => q.flags.write
  | queueNotSuspended => !t.isSuspended q
  | correlationPresent => !q.flags.ack || m.correlation.isSome
  | payloadNonempty => m.payload.size != 0
  | payloadWithinLimit => m.payload.size ≤ limit

end PackingRule

structure PackRejection where
  code : Int
  message : OutgoingMessage
deriving DecidableEq

structure EventBuilder where
  messages : List Message
  maxPayload : Nat
deriving DecidableEq

namespace EventBuilder

def defaultMaxPayload : Nat := 64 * 1024 * 1024

def empty (maxPayload : Nat) : EventBuilder := ⟨[], maxPayload⟩

/-- Add a message, or hand it back with the code of the first rule it breaks. -/
def pack (b : EventBuilder) (t : QueueTable) (guid : Guid) (q : QueueHandle)
    (m : OutgoingMessage) : Except PackRejection EventBuilder :=
  match PackingRule.all.find? fun r => !r.holds b.maxPayload t q m with
  | some broken => .error ⟨broken.code, m⟩
  | none => .ok { b with messages := b.messages ++ [
      { queue := q, guid, payload := m.payload, properties := m.properties,
        correlation := m.correlation, compression := m.compression }] }

def build (b : EventBuilder) : MessageEvent := ⟨MessageEventKind.put.code, b.messages⟩

end EventBuilder

end BrokerBridge
