import BrokerBridge.Message.Packing
import BrokerBridge.Session.Run

/-!
# Session operations

A session drives a native client. Each operation gives up host execution, passes the started
gate, and makes its checks in a fixed order before its native call.
-/

namespace BrokerBridge

structure PostRejection where
  code : Int
  event : MessageEvent
deriving DecidableEq

/-- The calls a session makes on the broker's client. -/
structure NativeClient (ν : Type) where
  start : Duration → Act ν Int
  stop : Act ν Unit
  openQueue : String → QueueFlags → QueueOptions → Duration → Act ν QueueStatus
  configureQueue : QueueHandle → QueueOptions → Duration → Act ν QueueStatus
  closeQueue : QueueHandle → Duration → Act ν QueueStatus
  queue? : String → Act ν (Option QueueHandle)
  post : MessageEvent → Act ν (Except PostRejection Unit)
  confirm : QueueHandle → Guid → Act ν Int
  /-- What a posted event is built with. -/
  builder : EventBuilder := .empty EventBuilder.defaultMaxPayload
  /-- The queues as their handles show them. -/
  queues : ν → QueueTable

/-- A failed post hands back the token it was given. -/
structure PostFailure where
  error : SessionError
  returned : Option Correlation
deriving DecidableEq

structure Session (ν : Type) where
  client : NativeClient ν
  options : ClientOptions
  compression : Compression
  /-- How the session is called in warnings. -/
  label : String

namespace Session

variable {ν ε α : Type}

abbrev Op (ν ε : Type) := ExceptT ε (Act ν)

def op (a : Act ν α) : Op ν ε α := ExceptT.lift a

def queueTable (s : Session ν) : Op ν ε QueueTable :=
  op do return s.client.queues (← Act.native)

def isStarted : Act ν Bool := return (← get).gate.started

/-- Pass the started gate, or learn that the session is stopped. -/
def enter : Act ν Bool := do
  let b ← get
  let nested := b.delivering != 0 || b.gate.isReader b.thread
  if b.gate.admits nested then
    if b.gate.started then
      Act.modifyGate fun g => g.hold.count b.thread
      return true
    else return false
  else throw .blocked

def start (s : Session ν) (timeout : Option Duration) : Op ν SessionError Unit := do
  let code ← op <| Act.outsideHost do
    let code ← s.client.start (timeout.getD s.options.timeouts.connect)
    if code = Code.success then
      let _ ← Act.changeStarted true
    return code
  if code ≠ Code.success then throw (.ofNative .start code)

def unstoppedWarning (s : Session ν) : String :=
  s!"stop() not invoked before destruction of Session<{s.label}> object"

/-- Stop the session. A stopped one is left alone; stopping a started one may be warned of. -/
def stop (s : Session ν) (warn : Bool) : Op ν SessionError Unit := do
  let wasStarted ← op <| Act.outsideHost do
    let wasStarted ← Act.changeStarted false
    if wasStarted then s.client.stop
    return wasStarted
  if wasStarted && warn then ExceptT.mk (Act.warn s.unstoppedWarning)

/-- Let the waiting stops run, one after another, each on its own thread. -/
def runWaiting (s : Session ν) : List StopRequest → Act ν Unit
  | [] => return
  | r :: rest => do
      let result ← Act.onThread r.thread (Act.attempt (s.stop r.warn).run)
      modify fun b => { b with stops := b.stops ++ [⟨r.thread, result⟩] }
      s.runWaiting rest

/-- Leave the started gate. The last reader to leave lets the waiting stops in. -/
def leave (s : Session ν) : Act ν Unit := do
  let b ← get
  Act.modifyGate fun g => (g.uncount b.thread).release
  let g := (← get).gate
  if g.isClear then
    Act.modifyGate fun g => { g with waiting := [] }
    s.runWaiting g.waiting

/-- Run an operation inside the started gate and outside host execution. -/
def whileStarted (s : Session ν) (stopped : ε) (body : Op ν ε α) : Op ν ε α :=
  ExceptT.mk <| Act.outsideHost do
    if ← enter then Act.ensuring body.run s.leave
    else return .error stopped

/-- Queues may suspend on bad host health only where it is monitored. -/
def requireMonitoring (s : Session ν) (o : QueueOptions) : Op ν SessionError Unit :=
  if o.suspendsOnBadHostHealth && !s.options.monitorHostHealth then throw .hostHealthNotMonitored
  else return

def openHandle (s : Session ν) (uri : String) (missing : ε) : Op ν ε QueueHandle := do
  match ← op (s.client.queue? uri) with
  | some q => return q
  | none => throw missing

def expectSuccess (action : QueueAction) (uri : String) (status : QueueStatus) :
    Op ν SessionError Unit :=
  if status.code = Code.success then return
  else throw (.ofNative (.queue action uri status.description) status.code)

def openQueue (s : Session ν) (uri : String) (read write : Bool) (options : QueueOptions)
    (timeout : Option Duration) : Op ν SessionError Unit := do
  s.requireMonitoring options
  s.whileStarted .stopped do
    let status ← op <| s.client.openQueue uri (.ofAccess read write) options
      (timeout.getD s.options.timeouts.openQueue)
    expectSuccess .openQueue uri status

def configureQueue (s : Session ν) (uri : String) (options : QueueOptions)
    (timeout : Option Duration) : Op ν SessionError Unit := do
  s.requireMonitoring options
  s.whileStarted .stopped do
    let q ← s.openHandle uri (.queueNotOpened uri)
    let status ← op <| s.client.configureQueue q options
      (timeout.getD s.options.timeouts.configureQueue)
    expectSuccess .configureQueue uri status

def closeQueue (s : Session ν) (uri : String) (timeout : Option Duration) :
    Op ν SessionError Unit :=
  s.whileStarted .stopped do
    let q ← s.openHandle uri (.queueNotOpened uri)
    let status ← op <| s.client.closeQueue q
      (timeout.getD s.options.timeouts.closeQueue)
    expectSuccess .closeQueue uri status

def queueOptions (s : Session ν) (uri : String) : Op ν SessionError QueueOptions :=
  s.whileStarted .stopped do
    let q ← s.openHandle uri (.queueNotOpened uri)
    return (← s.queueTable).options q

def encodeProperties : Option PropertySet → Except PropertyError (Option WireProperties)
  | none => .ok none
  | some set => (Property.encode set).map some

/-- Pack one message into an event and give it to the client. The token comes back with the
message or the event that was refused. -/
def postEncoded (s : Session ν) (uri : String) (payload : ByteArray)
    (wire : Option WireProperties) (onAck : Option Correlation) : Op ν PostFailure Unit := do
  let q ← s.openHandle uri ⟨.queueNotOpened uri, onAck⟩
  let table ← s.queueTable
  match s.client.builder.pack table .zero q ⟨payload, wire, onAck, s.compression⟩ with
  | .error refused => throw ⟨.construction refused.code, refused.message.correlation⟩
  | .ok builder =>
      match ← op (s.client.post builder.build) with
      | .ok () => return
      | .error refused =>
          throw ⟨.ofNative (.post uri) refused.code, refused.event.correlations.head?⟩

/-- Post one message. The token goes to the client when the post succeeds. -/
def post (s : Session ν) (uri : String) (payload : ByteArray) (properties : Option PropertySet)
    (onAck : Option Correlation) : Op ν PostFailure Unit :=
  match encodeProperties properties with
  | .error e => throw ⟨.property e, onAck⟩
  | .ok wire =>
      s.whileStarted ⟨.stopped, onAck⟩ (s.postEncoded uri payload wire onAck)

def confirm (s : Session ν) (uri : String) (guid : ByteArray) : Op ν SessionError Unit :=
  s.whileStarted .stopped do
    let q ← s.openHandle uri (.queueNotOpened uri)
    if !(← s.queueTable).isValid q then throw (.queueClosing uri)
    match Guid.ofBytes? guid with
    | none => throw .invalidGuid
    | some guid =>
        let code ← op (s.client.confirm q guid)
        if code ≠ Code.success then throw (.ofNative (.confirm guid) code)

/-- Give the session up. A session that is still started is stopped with a warning. -/
def drop (s : Session ν) : Act ν Unit := do
  match ← (s.stop true).run with
  | .ok () => return
  | .error e => Act.reportUnhandled "session drop" e.message

end Session

end BrokerBridge
