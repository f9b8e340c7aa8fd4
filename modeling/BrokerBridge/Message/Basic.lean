import BrokerBridge.Message.Guid
import BrokerBridge.Property.Wire
import BrokerBridge.Queue
import BrokerBridge.Settings.Basic

/-!
# Messages and events

What passes between the broker's client and the bridge: batches of messages, session events,
and the outcome of a queue call.
-/

namespace BrokerBridge

/-- A token that the host attaches to a post and gets back with its acknowledgement. Tokens
are told apart by their identity alone. -/
structure Correlation where
  name : String
deriving DecidableEq, Repr

structure Message where
  queue : QueueHandle
  guid : Guid := .zero
  payload : ByteArray := .empty
  properties : Option WireProperties := none
  correlation : Option Correlation := none
  /-- Says something for acknowledgements only. -/
  ackStatus : Int := 0
  compression : Compression := .none
deriving DecidableEq

namespace Message

def push (queue : QueueHandle) (guid : Guid) (payload : ByteArray)
    (properties : Option WireProperties) : Message :=
  { queue, guid, payload, properties }

def ack (queue : QueueHandle) (guid : Guid) (status : Int) (correlation : Option Correlation) :
    Message :=
  { queue, guid, ackStatus := status, correlation }

end Message

/-- A batch of messages. Its kind is a code that the bridge may not know. -/
structure MessageEvent where
  kind : Int
  messages : List Message
deriving DecidableEq

namespace MessageEvent

def push (messages : List Message) : MessageEvent := ⟨MessageEventKind.push.code, messages⟩

def ack (messages : List Message) : MessageEvent := ⟨MessageEventKind.ack.code, messages⟩

def put (messages : List Message) : MessageEvent := ⟨MessageEventKind.put.code, messages⟩

def correlations (e : MessageEvent) : List Correlation := e.messages.filterMap (·.correlation)

def takeCorrelations (e : MessageEvent) : List Correlation × MessageEvent :=
  (e.correlations, { e with messages := e.messages.map fun m => { m with correlation := none } })

theorem correlations_takeCorrelations (e : MessageEvent) :
    e.takeCorrelations.2.correlations = [] := by
  simp only [takeCorrelations, correlations, List.filterMap_map]
  exact List.filterMap_eq_nil_iff.mpr fun _ _ => rfl

end MessageEvent

structure SessionEvent where
  kind : Int
  status : Int
  description : String
  queue : Option QueueHandle
deriving DecidableEq

inductive NativeEvent where
  | session (event : SessionEvent)
  | message (event : MessageEvent)
deriving DecidableEq

structure QueueStatus where
  queue : Option QueueHandle
  code : Int
  description : String
deriving DecidableEq

end BrokerBridge
