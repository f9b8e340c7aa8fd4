import BrokerBridge.Message.Notice
import BrokerBridge.Native.Expectation
import BrokerBridge.Session.Error
import BrokerBridge.Session.Gate
import BrokerBridge.Session.Metrics

/-!
# Running a session

The state that a session, its dispatcher and the host share, and the computations on it. A
computation may panic; a panic unwinds through every guard up to whoever catches it.
-/

namespace BrokerBridge

inductive Panic where
  /-- Raised by host code, with a text or without. -/
  | host (text : Option String)
  | expectation (mismatch : Mismatch)
  /-- A scripted event names a queue that is not open. -/
  | queueMissing (uri : String)
  | unencodable (error : PropertyError)
  /-- A call that the client does not support. -/
  | unsupported (method : String)
  /-- An event was gone before it could be delivered. -/
  | eventLost
  /-- A posted event was gone before it could be taken up. -/
  | postLost

/-- The text of a panic; of a mismatch, up to the calls that it shows. -/
def Panic.text : Panic → Option String
  | host text => text
  | expectation mismatch => some mismatch.message
  | queueMissing uri => some s!"Failed to get queue {uri}"
  | unencodable error => some s!"Failed to encode scripted properties: {error.message}"
  | unsupported method => some s!"mock method not implemented: {method}"
  | eventLost => some "Failed to emit event"
  | postLost => some "Failed to pop posted event"

/-- Why a computation has no answer. Only a panic can be caught. -/
inductive Interrupt where
  | panic (cause : Panic)
  /-- The thread would wait for ever for a lock. -/
  | blocked
  /-- Host callbacks are nested deeper than is looked into. -/
  | tooDeep

inductive Delivery where
  | notification (n : Notification)
  | messages (batch : List ReceivedMessage)
  | acks (batch : List ReceivedAck)

structure UnhandledFailure where
  context : String
  error : String
deriving DecidableEq, Repr

structure Diagnostics where
  /-- Warnings are raised as errors. -/
  escalate : Bool := false
  warnings : List String := []
  unhandled : List UnhandledFailure := []
deriving DecidableEq, Repr

structure StopOutcome where
  thread : ThreadId
  result : Except Panic (Except SessionError Unit)

/-- Everything a running session shares; `ν` is the far side's own state. -/
structure Bridge (ν : Type) where
  /-- The thread that is running. -/
  thread : ThreadId := 0
  gate : Gate := {}
  host : HostLock := .free
  /-- How many host callbacks the running thread is inside. -/
  delivering : Nat := 0
  /-- Every call into host code so far, the oldest first. -/
  deliveries : List Delivery := []
  metrics : MetricsRegistry := {}
  diagnostics : Diagnostics := {}
  stops : List StopOutcome := []
  native : ν

abbrev Act (ν : Type) := EStateM Interrupt (Bridge ν)

namespace Act

variable {ν α : Type}

def panic (cause : Panic) : Act ν α := throw (.panic cause)

def ensuring (body : Act ν α) (cleanup : Act ν Unit) : Act ν α := fun b =>
  match body b with
  | .ok a b =>
      match cleanup b with
      | .ok _ b => .ok a b
      | .error i b => .error i b
  | .error i b =>
      match cleanup b with
      | .ok _ b => .error i b
      | .error i b => .error i b

def attempt (body : Act ν α) : Act ν (Except Panic α) := fun b =>
  match body b with
  | .ok a b => .ok (.ok a) b
  | .error (.panic cause) b => .ok (.error cause) b
  | .error i b => .error i b

def native : Act ν ν := return (← get).native

def modifyNative (f : ν → ν) : Act ν Unit := modify fun b => { b with native := f b.native }

def onNative (f : ν → α × ν) : Act ν α := do
  let (a, n) := f (← native)
  modifyNative fun _ => n
  return a

def modifyGate (f : Gate → Gate) : Act ν Unit := modify fun b => { b with gate := f b.gate }

/-- Change the started state, which nobody may hold meanwhile. -/
def changeStarted (started : Bool) : Act ν Bool := do
  let g := (← get).gate
  if g.isClear then
    modifyGate (·.setStarted started)
    return g.started
  else throw .blocked

/-! ## Host execution -/

def enterHost (levels : Nat) : Act ν Unit := do
  let b ← get
  match b.host.enter? b.thread levels with
  | some host => set { b with host }
  | none => throw .blocked

def leaveHost : Act ν Unit := modify fun b => { b with host := b.host.leave }

def inHost (body : Act ν α) : Act ν α := do
  enterHost 1
  ensuring body leaveHost

def stepOut : Act ν Nat := do
  let b ← get
  let (saved, host) := b.host.leaveAll b.thread
  set { b with host }
  return saved

def stepBack (saved : Nat) : Act ν Unit := do
  if saved = 0 then return else enterHost saved

/-- Run `body` with host execution given up, and take it back up afterwards. -/
def outsideHost (body : Act ν α) : Act ν α := do
  let saved ← stepOut
  ensuring body (stepBack saved)

/-! ## Diagnostics -/

/-- Warn the host, which may have the warning raised as an error. -/
def warn (text : String) : Act ν (Except SessionError Unit) := do
  modify fun b =>
    { b with diagnostics := { b.diagnostics with warnings := b.diagnostics.warnings ++ [text] } }
  return if (← get).diagnostics.escalate then .error (.warning text) else .ok ()

def reportUnhandled (context error : String) : Act ν Unit :=
  modify fun b =>
    { b with diagnostics :=
      { b.diagnostics with unhandled := b.diagnostics.unhandled ++ [⟨context, error⟩] } }

def observe (f : Counters → Counters) : Act ν Unit :=
  modify fun b => { b with metrics := b.metrics.observe f }

/-- Run on another thread, outside every host callback, and come back to the present one. -/
def onThread (t : ThreadId) (body : Act ν α) : Act ν α := do
  let b ← get
  set { b with thread := t, delivering := 0 }
  ensuring body (modify fun s => { s with thread := b.thread, delivering := b.delivering })

end Act

end BrokerBridge
