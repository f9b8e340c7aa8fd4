import BrokerBridge.Message.Basic

/-!
# What the host is told

Records of events as the host's callbacks receive them, and the reading of a session
notification as a notice.
-/

namespace BrokerBridge

structure SessionRecord where
  kind : Int
  kindName : String
  status : Int
  statusName : String
  description : String
  /-- Empty unless events of this kind name a queue. -/
  queueUri : String
deriving DecidableEq, Repr

inductive Notification where
  | event (record : SessionRecord)
  /-- A report that the bridge itself produced. -/
  | diagnostic (text : String)
deriving DecidableEq, Repr

namespace SessionRecord

/-- The record of an event, with the names of its codes. -/
def named (kind status : Int) (description queueUri : String) : SessionRecord where
  kind
  kindName := SessionEventKind.table.name kind
  status
  statusName := Code.generic.name status
  description
  queueUri

/-- The address is told only for kinds of events that are about a queue. -/
def ofEvent (e : SessionEvent) : SessionRecord :=
  let carries := ((SessionEventKind.ofCode? e.kind).map (·.carriesQueue)).getD false
  named e.kind e.status e.description <|
    match e.queue with
    | some q => if carries then q.uri else ""
    | none => ""

/-- The failure an event reports: its description, then the status. -/
def failure? (r : SessionRecord) : Option String :=
  if r.status = 0 then none
  else
    let separator := if r.description.isEmpty then "" else ": "
    some s!"{r.description}{separator}{r.statusName} ({r.status})"

end SessionRecord

structure ReceivedMessage where
  payload : ByteArray
  guid : Guid
  queueUri : String
  properties : PropertySet

structure ReceivedAck where
  status : Int
  statusName : String
  /-- Present only for a success. -/
  guid : Option Guid
  queueUri : String
  correlation : Option Correlation
deriving DecidableEq

inductive SessionChange where
  | connected | disconnected | connectionLost | reconnected | stateRestored | connectionTimeout
  | hostUnhealthy | hostHealthRestored | slowConsumerNormal | slowConsumerHighWatermark
deriving DecidableEq, Repr

def SessionChange.name : SessionChange → String
  | connected => "Connected"
  | disconnected => "Disconnected"
  | connectionLost => "ConnectionLost"
  | reconnected => "Reconnected"
  | stateRestored => "StateRestored"
  | connectionTimeout => "ConnectionTimeout"
  | hostUnhealthy => "HostUnhealthy"
  | hostHealthRestored => "HostHealthRestored"
  | slowConsumerNormal => "SlowConsumerNormal"
  | slowConsumerHighWatermark => "SlowConsumerHighWatermark"

inductive QueueChange where
  | reopened | suspended | resumed
deriving DecidableEq, Repr

/-- A change that failed has a name of its own. -/
def QueueChange.name : QueueChange → (failed : Bool) → String
  | reopened, failed => if failed then "QueueReopenFailed" else "QueueReopened"
  | suspended, failed => if failed then "QueueSuspendFailed" else "QueueSuspended"
  | resumed, failed => if failed then "QueueResumeFailed" else "QueueResumed"

inductive Notice where
  | session (change : SessionChange) (failure : Option String)
  | queue (change : QueueChange) (uri : String) (failure : Option String)
  | interfaceError (text : String)
deriving DecidableEq, Repr

namespace Notice

def sessionChange? : SessionEventKind → Option SessionChange
  | .connected => some .connected
  | .disconnected => some .disconnected
  | .connectionLost => some .connectionLost
  | .reconnected => some .reconnected
  | .stateRestored => some .stateRestored
  | .connectionTimeout => some .connectionTimeout
  | .hostUnhealthy => some .hostUnhealthy
  | .hostHealthRestored => some .hostHealthRestored
  | .slowConsumerNormal => some .slowConsumerNormal
  | .slowConsumerHighWatermark => some .slowConsumerHighWatermark
  | _ => none

def queueChange? : SessionEventKind → Option QueueChange
  | .queueReopenResult => some .reopened
  | .queueSuspended => some .suspended
  | .queueResumed => some .resumed
  | _ => none

/-- A kind of event that is neither a change of the session nor of a queue is unexpected. -/
def ofRecord (r : SessionRecord) : Notice :=
  let kind := SessionEventKind.ofCode? r.kind
  match kind.bind sessionChange?, kind.bind queueChange? with
  | some change, _ => .session change r.failure?
  | none, some change => .queue change r.queueUri r.failure?
  | none, none => .interfaceError s!"Unexpected event type: {r.kindName}"

def classify : Notification → Notice
  | .diagnostic text => .interfaceError text
  | .event r => ofRecord r

end Notice

inductive AckStatus where
  | success | unknown | timeout | notConnected | canceled | notSupported | refused
  | invalidArgument | notReady | limitBytes | limitMessages | storageFailure
  /-- A code that the bridge does not know. -/
  | unrecognized
deriving DecidableEq, Repr

def AckStatus.name : AckStatus → String
  | success => "Success"
  | unknown => "Unknown"
  | timeout => "Timeout"
  | notConnected => "NotConnected"
  | canceled => "Canceled"
  | notSupported => "NotSupported"
  | refused => "Refused"
  | invalidArgument => "InvalidArgument"
  | notReady => "NotReady"
  | limitBytes => "LimitBytes"
  | limitMessages => "LimitMessages"
  | storageFailure => "StorageFailure"
  | unrecognized => "Unrecognized"

def AckStatus.ofCode (c : Int) : AckStatus :=
  match c with
  | 0 => .success
  | -1 => .unknown
  | -2 => .timeout
  | -3 => .notConnected
  | -4 => .canceled
  | -5 => .notSupported
  | -6 => .refused
  | -7 => .invalidArgument
  | -8 => .notReady
  | -100 => .limitMessages
  | -101 => .limitBytes
  | -104 => .storageFailure
  | _ => .unrecognized

end BrokerBridge
