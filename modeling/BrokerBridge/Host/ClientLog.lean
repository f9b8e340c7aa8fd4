import BrokerBridge.Host.Lock
import BrokerBridge.Host.Outcome

/-!
# The client's log

The broker's client logs from threads of its own. One sink at a time may be registered to
receive its records, translated for the host; it runs as host code, and its failures end there.
-/

namespace BrokerBridge

/-- A record of the client. A lower severity number is more severe. -/
structure ClientLogRecord where
  category : String
  severity : Int
  file : String
  line : Nat
  message : String
deriving DecidableEq, Repr

structure HostLogRecord where
  logger : String
  level : Nat
  file : String
  line : Nat
  message : String
deriving DecidableEq, Repr

namespace ClientLog

def fatal : Int := 32
def error : Int := 64
def warn : Int := 96
def info : Int := 128
def debug : Int := 160

/-- The highest severity number that a sink still receives; with diagnostics, debug records too. -/
def threshold (diagnostics : Bool) : Int := if diagnostics then debug else info

/-- The host's level for a severity. A value between two named ones goes to the less severe. -/
def hostLevel (severity : Int) : Nat :=
  if severity > info then 10
  else if severity > warn then 20
  else if severity > error then 30
  else if severity > fatal then 40
  else 50

def loggerName (category : String) : String := "blazingmq." ++ category

def translate (r : ClientLogRecord) : HostLogRecord where
  logger := loggerName r.category
  level := hostLevel r.severity
  file := r.file
  line := r.line
  message := r.message

end ClientLog

def HostOutcome.sinkFailure? : HostOutcome → Option String
  | panic text => some (text.getD opaquePanic)
  | outcome => outcome.failure?

abbrev RuntimeId := Nat

structure LogSink where
  /-- How many sinks were registered before it. -/
  number : Nat
  runtime : RuntimeId
  /-- How it ends each time, where nothing else is said. -/
  outcome : HostOutcome
  threshold : Int
deriving DecidableEq, Repr

structure ForwardedRecord where
  sink : Nat
  thread : ThreadId
  record : HostLogRecord
  held : Bool
deriving DecidableEq, Repr

structure SinkFailure where
  logger : String
  error : String
deriving DecidableEq, Repr

structure LogBridge where
  sink : Option LogSink := none
  /-- How many sinks have been registered so far. -/
  registered : Nat := 0
  locks : RuntimeId → HostLock := fun _ => .free
  forwarded : List ForwardedRecord := []
  failures : List SinkFailure := []

namespace LogBridge

instance : Inhabited LogBridge := ⟨{}⟩

/-- Register a sink that runs in a host execution; refused while another one is. -/
def installIn (b : LogBridge) (k : RuntimeId) (diagnostics : Bool) (outcome : HostOutcome) :
    Option LogBridge :=
  match b.sink with
  | some _ => none
  | none =>
      some { b with
        sink := some ⟨b.registered, k, outcome, ClientLog.threshold diagnostics⟩
        registered := b.registered + 1 }

def install (b : LogBridge) (diagnostics : Bool) (outcome : HostOutcome) : Option LogBridge :=
  b.installIn 0 diagnostics outcome

def uninstall (b : LogBridge) : LogBridge := { b with sink := none }

def isInstalled (b : LogBridge) : Bool := b.sink.isSome

def withLock (b : LogBridge) (k : RuntimeId) (l : HostLock) : LogBridge :=
  { b with locks := fun j => if j = k then l else b.locks j }

/-- The sink that a record is for: the registered one, unless the record is too verbose for it. -/
def receiver? (b : LogBridge) (r : ClientLogRecord) : Option LogSink :=
  match b.sink with
  | none => none
  | some sink => if r.severity > sink.threshold then none else some sink

/-- Enter host execution on thread `t` and hand a record to a sink; `none` while another thread
is inside. -/
def handOver? (b : LogBridge) (t : ThreadId) (sink : LogSink) (record : HostLogRecord) :
    Option LogBridge := do
  let inside ← (b.locks sink.runtime).enter? t 1
  let seen : ForwardedRecord := ⟨sink.number, t, record, inside.isHeldBy t⟩
  return { b.withLock sink.runtime inside with forwarded := b.forwarded ++ [seen] }

def handBack (b : LogBridge) (sink : LogSink) (record : HostLogRecord) (outcome : HostOutcome) :
    LogBridge :=
  let failed := outcome.sinkFailure?.toList.map (SinkFailure.mk record.logger)
  { b.withLock sink.runtime (b.locks sink.runtime).leave with failures := b.failures ++ failed }

/-- Forward a record on thread `t`, however the sink ends; `none` while another thread runs
host code. -/
def publish (b : LogBridge) (t : ThreadId) (r : ClientLogRecord) : Option LogBridge :=
  match b.receiver? r with
  | none => some b
  | some sink => do
      let record := ClientLog.translate r
      let inside ← b.handOver? t sink record
      return inside.handBack sink record sink.outcome

end LogBridge

end BrokerBridge
