import BrokerBridge.Host.Outcome
import BrokerBridge.Session.Run

/-!
# Delivering events to the host

A native event becomes calls into host code. They run as host code, and no failure of theirs
gets out: it is counted and reported.
-/

namespace BrokerBridge

/-- The host's code: how it ends for each delivery, and what it does on the way. -/
abbrev HostCode (ν : Type) := Delivery → Act ν HostOutcome

/-- The pushed messages for the host, and an error for each property that was skipped. -/
def receiveBatch : List Message → List ReceivedMessage × List DecodeError
  | [] => ([], [])
  | m :: rest =>
      let (properties, skipped) :=
        match m.properties with
        | some wire => Property.decode wire
        | none => (.empty, [])
      let (received, errors) := receiveBatch rest
      (⟨m.payload, m.guid, m.queue.uri, properties⟩ :: received, skipped ++ errors)

/-- An acknowledgement that failed and belongs to no post: the broker's own affair. -/
def Message.isSuppressedAck (m : Message) : Bool :=
  m.ackStatus != Code.success && m.correlation.isNone

def ReceivedAck.ofMessage (m : Message) : ReceivedAck where
  status := m.ackStatus
  statusName := Code.ack.name m.ackStatus
  guid := if m.ackStatus = Code.success then some m.guid else none
  queueUri := m.queue.uri
  correlation := m.correlation

def deliveredAcks (messages : List Message) : List ReceivedAck :=
  (messages.filter (!·.isSuppressedAck)).map .ofMessage

def decodeReport (errors : List DecodeError) : String :=
  String.join (errors.map fun e => e.message ++ "\n")

def unexpectedMessages (kind : Int) : String :=
  s!"Received an unexpected message event of type {kind} ({MessageEventKind.table.name kind})"

inductive DeliveryKind where
  | notification | messages | acks
deriving DecidableEq, Repr

def DeliveryKind.context : DeliveryKind → String
  | notification => "session event callback"
  | messages => "message callback"
  | acks => "ack callback"

def Delivery.kind : Delivery → DeliveryKind
  | notification _ => .notification
  | messages _ => .messages
  | acks _ => .acks

def HostCode.ending {ν : Type} (outcome : DeliveryKind → HostOutcome) : HostCode ν :=
  fun d => return outcome d.kind

variable {ν : Type}

def hostFailure? : Except Panic HostOutcome → Option String
  | .ok outcome => outcome.failure?
  | .error cause => (HostOutcome.panic cause.text).failure?

/-- Host code has returned from one delivery; a failure is counted and reported. -/
def Act.hostReturned (d : Delivery) (outcome : Except Panic HostOutcome) : Act ν Unit := do
  modify fun b => { b with delivering := b.delivering - 1 }
  match hostFailure? outcome with
  | none => return
  | some text =>
      observe fun c => { c with callbackFailures := c.callbackFailures + 1 }
      reportUnhandled d.kind.context text

def Act.callHost (host : HostCode ν) (d : Delivery) : Act ν Unit := do
  modify fun b =>
    { b with delivering := b.delivering + 1, deliveries := b.deliveries ++ [d] }
  let outcome ← attempt (host d)
  hostReturned d outcome

def SessionEvent.tell (e : SessionEvent) (host : HostCode ν) : Act ν Unit :=
  Act.inHost (Act.callHost host (.notification (.event (.ofEvent e))))

namespace MessageEvent

/-- Skipped properties are reported before the batch they were skipped from. -/
def tellPushed (e : MessageEvent) (host : HostCode ν) : Act ν Unit := do
  let (received, errors) := receiveBatch e.messages
  if !errors.isEmpty then
    Act.observe fun c => { c with decodeErrors := c.decodeErrors + errors.length }
    Act.callHost host (.notification (.diagnostic (decodeReport errors)))
  Act.observe fun c => { c with messagesPushed := c.messagesPushed + received.length }
  Act.callHost host (.messages received)

/-- The host is not called where every acknowledgement is suppressed. -/
def tellAcked (e : MessageEvent) (host : HostCode ν) : Act ν Unit := do
  let acks := deliveredAcks e.messages
  let suppressed := (e.messages.filter (·.isSuppressedAck)).length
  Act.observe fun c => { c with nacksSuppressed := c.nacksSuppressed + suppressed }
  if !acks.isEmpty then
    Act.observe fun c => { c with acksDelivered := c.acksDelivered + acks.length }
    Act.callHost host (.acks acks)

/-- Tell the host of a batch of messages. Only pushed messages and acknowledgements are
expected. -/
def tell (e : MessageEvent) (host : HostCode ν) : Act ν Unit :=
  Act.inHost <|
    match MessageEventKind.ofCode? e.kind with
    | some .push => e.tellPushed host
    | some .ack => e.tellAcked host
    | _ => Act.callHost host (.notification (.diagnostic (unexpectedMessages e.kind)))

end MessageEvent

def NativeEvent.tell (host : HostCode ν) : NativeEvent → Act ν Unit
  | .session e => e.tell host
  | .message e => e.tell host

end BrokerBridge
