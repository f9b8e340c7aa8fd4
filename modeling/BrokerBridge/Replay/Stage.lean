import BrokerBridge.Host.Health
import BrokerBridge.Native.Expectation
import BrokerBridge.Replay.Script
import BrokerBridge.Replay.Ledger
import BrokerBridge.Replay.Request
import BrokerBridge.Session.Delivery
import BrokerBridge.Session.Operations

/-!
# A client that replays a script

A stand-in for the broker's client. Each call is checked against the expectations and entered in
the ledger; then, as host code, a fixed code decides it. Opening a queue delivers at most one
scripted batch of messages and a post at most one batch of acknowledgements, both before the
call returns. While it is started, the client reports changes of the host's health.
-/

namespace BrokerBridge

structure Verdicts where
  start : Int := 0
  openQueue : Int := 0
  configureQueue : Int := 0
  closeQueue : Int := 0
  post : Int := 0
  confirm : Int := 0
deriving DecidableEq, Repr

def Verdicts.set (c : Verdicts) (code : Int) : CodedCall → Verdicts
  | .start => { c with start := code }
  | .openQueue => { c with openQueue := code }
  | .configureQueue => { c with configureQueue := code }
  | .closeQueue => { c with closeQueue := code }
  | .post => { c with post := code }
  | .confirm => { c with confirm := code }

def Verdicts.setAll (c : Verdicts) (codes : List (CodedCall × Int)) : Verdicts :=
  codes.foldl (fun c e => c.set e.2 e.1) c

structure Stage where
  ledger : Ledger := {}
  expectations : ExpectationQueue := .auto
  codes : Verdicts := {}
  /-- The calls that arrived, the oldest first, whether or not they were expected. -/
  arrived : List NativeCall := []
  /-- The calls that came as far as being decided, the oldest first. -/
  decided : List NativeCall := []
  /-- Close every queue as soon as it is looked up. -/
  closeOnGet : Bool := false
  script : Script := {}
  /-- The host's health monitor; the client in use is its only listener. -/
  monitor : HealthMonitor Unit := {}
  subscription : Option Nat := none
  /-- The options the client in use was created with. -/
  createdWith : Option ClientOptions := none
  /-- The tokens held by calls in progress. -/
  inFlight : List Correlation := []
  diary : HostDiary := {}

namespace Stage

instance : Inhabited Stage := ⟨{}⟩

def ledgerUpdate {α : Type} (f : Ledger → α × Ledger) : Act Stage α :=
  Act.onNative fun s => let (a, ledger) := f s.ledger; (a, { s with ledger })

def modifyLedger (f : Ledger → Ledger) : Act Stage Unit :=
  Act.modifyNative fun s => { s with ledger := f s.ledger }

def observe (call : NativeCall) : Act Stage Unit := do
  let r ← Act.onNative fun s =>
    let (r, expectations) := s.expectations.observe call
    (r, { s with expectations, arrived := s.arrived ++ [call] })
  match r with
  | .ok () => return
  | .error mismatch => Act.panic (.expectation mismatch)

def settle (call : NativeCall) (code : Verdicts → Int) : Act Stage Int :=
  Act.onNative fun s => (code s.codes, { s with decided := s.decided ++ [call] })

/-- Run `body` while a call in progress holds some tokens. -/
def holding {α : Type} (tokens : List Correlation) (body : Act Stage α) : Act Stage α := do
  Act.modifyNative fun s => { s with inFlight := tokens ++ s.inFlight }
  Act.ensuring body (Act.modifyNative fun s => { s with inFlight := s.inFlight.drop tokens.length })

def tokensOf : NativeEvent → List Correlation
  | .session _ => []
  | .message e => e.correlations

/-- Pass an event through the ledger's buffer to the host. -/
def passOn (host : HostCode Stage) (e : NativeEvent) : Act Stage Unit := do
  modifyLedger (·.enqueue e)
  match ← ledgerUpdate (·.takePending) with
  | some e => holding (tokensOf e) (e.tell host)
  | none => Act.panic .eventLost

def healthReport (kind : SessionEventKind) (queue : Option QueueHandle) : NativeEvent :=
  .session ⟨kind.code, Code.success, "", queue⟩

def passAll (host : HostCode Stage) : List NativeEvent → Act Stage Unit
  | [] => return
  | e :: rest => do
      passOn host e
      passAll host rest

def healthReports (health : HealthState) (affected : List QueueHandle) : List NativeEvent :=
  match health with
  | .unhealthy =>
      healthReport .hostUnhealthy none ::
        affected.map fun q => healthReport .queueSuspended (some q)
  | .healthy =>
      (affected.map fun q => healthReport .queueResumed (some q)) ++
        [healthReport .hostHealthRestored none]

def healthChanged (host : HostCode Stage) (health : HealthState) : Act Stage Unit := do
  let affected ← ledgerUpdate (·.setHealth health)
  if (← Act.native).ledger.started then
    Act.inHost (passAll host (healthReports health affected))

def setHealth (host : HostCode Stage) (health : HealthState) : Act Stage Unit := do
  let listeners ← Act.onNative fun s =>
    let (listeners, monitor) := s.monitor.transition health
    (listeners, { s with monitor })
  listeners.forM fun _ => healthChanged host health

/-! ## Scripted batches -/

def openHandle (uri : String) : Act Stage QueueHandle := do
  match (← Act.native).ledger.queue? uri with
  | some q => return q
  | none => Act.panic (.queueMissing uri)

def pushMessage (p : ScriptedPush) : Act Stage Message := do
  match p.wire with
  | .error e => Act.panic (.unencodable e)
  | .ok wire => return .push (← openHandle p.queueUri) p.guid p.payload (some wire)

def playPush (host : HostCode Stage) (batch : List ScriptedPush) : Act Stage Unit := do
  let messages ← batch.mapM pushMessage
  passOn host (.message (.push messages))

/-- The token of an acknowledgement, and the posted token if it is still to be handed out. -/
def claimToken (posted : Option Correlation) :
    AckToken → Option Correlation × Option Correlation
  | .posted => (posted, none)
  | .handle c => (some c, posted)
  | .unset => (none, posted)

/-- The messages of a batch, and the posted token if no acknowledgement claims it. -/
def ackMessages (posted : Option Correlation) :
    List ScriptedAck → Act Stage (List Message × Option Correlation)
  | [] => return ([], posted)
  | a :: rest => do
      let (token, posted) := claimToken posted a.correlation
      let q ← openHandle a.queueUri
      let (messages, left) ← ackMessages posted rest
      return (.ack q a.guid a.status token :: messages, left)

/-- The posted token goes to the first acknowledgement that claims it. -/
def playAcks (host : HostCode Stage) (batch : List ScriptedAck) (posted : Option Correlation) :
    Act Stage Unit := do
  let (messages, left) ← ackMessages posted batch
  holding left.toList (passOn host (.message (.ack messages)))

/-! ## The calls -/

def start (host : HostCode Stage) (timeout : Duration) : Act Stage Int := do
  observe (.start timeout)
  modifyLedger (·.start)
  Act.inHost do
    let code ← settle (.start timeout) (·.start)
    if code ≠ Code.success then
      modifyLedger (·.stop)
      return code
    if !(← Act.native).ledger.health.isHealthy then
      passOn host (healthReport .hostUnhealthy none)
    return Code.success

def stop : Act Stage Unit := do
  observe .stop
  modifyLedger (·.stop)
  Act.inHost do
    let _ ← settle .stop fun _ => Code.success

def openQueue (host : HostCode Stage) (uri : String) (flags : QueueFlags)
    (options : QueueOptions) (timeout : Duration) : Act Stage QueueStatus := do
  let call := NativeCall.openQueue uri flags options timeout
  observe call
  let status ← ledgerUpdate (·.openQueue uri flags options)
  if status.code ≠ Code.success then return status
  Act.inHost do
    let code ← settle call (·.openQueue)
    if code ≠ Code.success then
      modifyLedger (·.dropQueue uri)
      return ⟨status.queue, code, "mock open rejected with " ++ Code.openQueue.name code⟩
    match ← Act.onNative fun s => let (b, script) := s.script.popPush; (b, { s with script }) with
    | some batch => playPush host batch
    | none => pure ()
    return status

def configureQueue (q : QueueHandle) (options : QueueOptions) (timeout : Duration) :
    Act Stage QueueStatus := do
  let call := NativeCall.configureQueue q.uri options timeout
  observe call
  let before := (← Act.native).ledger.table.options q
  let status ← ledgerUpdate (·.configureQueue q options)
  if status.code ≠ Code.success then return status
  Act.inHost do
    let code ← settle call (·.configureQueue)
    if code ≠ Code.success then
      modifyLedger (·.resetOptions q before)
      return ⟨status.queue, code, "mock configure rejected with " ++ Code.configureQueue.name code⟩
    return status

def closeQueue (q : QueueHandle) (timeout : Duration) : Act Stage QueueStatus := do
  let call := NativeCall.closeQueue q.uri timeout
  observe call
  if !(← Act.native).ledger.isCurrent q then
    return ⟨some q, Code.unknownQueue, "unknown queue"⟩
  Act.inHost do
    let code ← settle call (·.closeQueue)
    if code ≠ Code.success then
      return ⟨some q, code, "mock close rejected with " ++ Code.closeQueue.name code⟩
    ledgerUpdate (·.closeQueue q)

def queue? (uri : String) : Act Stage (Option QueueHandle) := do
  let s ← Act.native
  match s.ledger.queue? uri with
  | none => return none
  | some q =>
      if s.closeOnGet then
        observe (.closeOnGet uri)
        let _ ← ledgerUpdate (·.closeQueue q)
      return some q

def nextAcks : Act Stage (Option (List ScriptedAck)) :=
  Act.onNative fun s => let (b, script) := s.script.popAck; (b, { s with script })

/-- Acknowledge a posted event. Its token goes to the acknowledgements only where it is
accepted. -/
def acknowledge (host : HostCode Stage) (posted : MessageEvent) (code : Int)
    (batch : List ScriptedAck) : Act Stage Unit :=
  if code = Code.success then playAcks host batch posted.correlations.head?
  else holding posted.correlations (playAcks host batch none)

def decidePost (host : HostCode Stage) (call : NativeCall) (posted : MessageEvent) :
    Act Stage (Except PostRejection Unit) := do
  let code ← settle call (·.post)
  match ← nextAcks with
  | some batch => acknowledge host posted code batch
  | none => pure ()
  return if code = Code.success then .ok () else .error ⟨code, posted⟩

/-- Buffer an event; then, as host code, take up the oldest event buffered. -/
def bufferPost (host : HostCode Stage) (call : NativeCall) (e : MessageEvent) :
    Act Stage (Except PostRejection Unit) := do
  modifyLedger (·.post e)
  Act.inHost do
    match ← ledgerUpdate (·.takePosted) with
    | none => Act.panic .postLost
    | some posted => decidePost host call posted

def post (host : HostCode Stage) (e : MessageEvent) : Act Stage (Except PostRejection Unit) := do
  let call := NativeCall.ofPosted e
  observe call
  bufferPost host call e

def confirm (q : QueueHandle) (guid : Guid) : Act Stage Int := do
  let call := NativeCall.confirm q.uri guid
  observe call
  let code := (← Act.native).ledger.confirm q
  if code ≠ Code.success then return code
  Act.inHost (settle call (·.confirm))

def client (host : HostCode Stage) : NativeClient Stage where
  start := start host
  stop := stop
  openQueue := openQueue host
  configureQueue := configureQueue
  closeQueue := closeQueue
  queue? := queue?
  post := post host
  confirm := confirm
  queues s := s.ledger.table

/-! ## Creating and giving up a client -/

/-- Start from empty books; a client that watches the host's health notes it and follows it. -/
def create (options : ClientOptions) : Act Stage Unit := do
  Act.inHost (Act.modifyNative fun s => { s with createdWith := some options })
  modifyLedger fun _ => {}
  if options.hasMonitor then
    let health := (← Act.native).monitor.state
    let _ ← ledgerUpdate (·.setHealth health)
    Act.modifyNative fun s =>
      let (id, monitor) := s.monitor.subscribe ()
      { s with monitor, subscription := some id }

def discard : Act Stage Unit :=
  Act.modifyNative fun s =>
    match s.subscription with
    | some id => { s with monitor := s.monitor.unsubscribe id, subscription := none }
    | none => s

end Stage

end BrokerBridge
