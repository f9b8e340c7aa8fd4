import BrokerBridge.Host.Health
import BrokerBridge.Message.Basic

/-!
# The books of a session without a broker

Which queues are open, under which handle, whether the session is started, and what the host's
health was last known to be. While the host is unhealthy, the open queues that ask for it are
suspended.
-/

namespace BrokerBridge

structure Ledger where
  started : Bool := false
  health : HealthState := .healthy
  table : QueueTable := .empty
  /-- The open queues in the order in which they were opened, one for each address. -/
  openQueues : List QueueHandle := []
  /-- Events posted and not yet taken up. -/
  posted : List MessageEvent := []
  /-- Events waiting to be delivered. -/
  pending : List NativeEvent := []

namespace Ledger

instance : Inhabited Ledger := ⟨{}⟩

def start (l : Ledger) : Ledger := { l with started := true }

def stop (l : Ledger) : Ledger := { l with started := false }

def queue? (l : Ledger) (uri : String) : Option QueueHandle :=
  l.openQueues.find? (·.uri == uri)

theorem mem_of_queue? {l : Ledger} {uri : String} {q : QueueHandle} (h : l.queue? uri = some q) :
    q ∈ l.openQueues :=
  List.mem_of_find?_eq_some h

theorem uri_of_queue? {l : Ledger} {uri : String} {q : QueueHandle} (h : l.queue? uri = some q) :
    q.uri = uri := by
  have hfound := List.find?_some h
  exact eq_of_beq hfound

def openUris (l : Ledger) : List String := l.openQueues.map (·.uri)

def isCurrent (l : Ledger) (q : QueueHandle) : Bool :=
  match l.queue? q.uri with
  | some known => known.sameQueue q
  | none => false

def wouldSuspend (l : Ledger) (o : QueueOptions) : Bool :=
  o.suspendsOnBadHostHealth && !l.health.isHealthy

def remove (l : Ledger) (uri : String) : Ledger :=
  { l with openQueues := l.openQueues.filter (·.uri != uri) }

def openQueue (l : Ledger) (uri : String) (flags : QueueFlags) (options : QueueOptions) :
    QueueStatus × Ledger :=
  match l.queue? uri with
  | some existing => (⟨some existing, Code.alreadyOpened, "queue already opened"⟩, l)
  | none =>
      let (q, table) := l.table.create uri flags options
      let table := table.setSuspended q (l.wouldSuspend options)
      (⟨some q, Code.success, ""⟩, { l with table, openQueues := l.openQueues ++ [q] })

def foreignQueue (l : Ledger) (uri : String) (flags : QueueFlags) (options : QueueOptions) :
    QueueHandle × Ledger :=
  let (q, table) := l.table.create uri flags options
  (q, { l with table })

def configureQueue (l : Ledger) (q : QueueHandle) (options : QueueOptions) :
    QueueStatus × Ledger :=
  if l.isCurrent q then
    (⟨some q, Code.success, ""⟩,
      { l with table := (l.table.setOptions q options).setSuspended q (l.wouldSuspend options) })
  else (⟨some q, Code.invalidQueue, "unknown queue"⟩, l)

def closeQueue (l : Ledger) (q : QueueHandle) : QueueStatus × Ledger :=
  if l.isCurrent q then
    (⟨some q, Code.success, ""⟩, remove { l with table := l.table.invalidate q } q.uri)
  else (⟨some q, Code.unknownQueue, "unknown queue"⟩, l)

/-- Drop a queue whose opening came to nothing. -/
def dropQueue (l : Ledger) (uri : String) : Ledger :=
  match l.queue? uri with
  | some q => remove { l with table := l.table.invalidate q } uri
  | none => l

/-- Put back the options of a queue, and nothing else. -/
def resetOptions (l : Ledger) (q : QueueHandle) (options : QueueOptions) : Ledger :=
  { l with table := l.table.setOptions q options }

/-- Note the host's health. The answer is the queues that it suspends or resumes. -/
def setHealth (l : Ledger) (health : HealthState) : List QueueHandle × Ledger :=
  if l.health = health then ([], l)
  else
    let affected := l.openQueues.filter fun q => (l.table.options q).suspendsOnBadHostHealth
    let table := affected.foldl (fun t q => t.setSuspended q (!health.isHealthy)) l.table
    (affected, { l with health, table })

def confirm (l : Ledger) (q : QueueHandle) : Int :=
  if l.isCurrent q then Code.success else Code.invalidArgument

def post (l : Ledger) (e : MessageEvent) : Ledger := { l with posted := l.posted ++ [e] }

def takePosted (l : Ledger) : Option MessageEvent × Ledger :=
  (l.posted.head?, { l with posted := l.posted.tail })

def enqueue (l : Ledger) (e : NativeEvent) : Ledger := { l with pending := l.pending ++ [e] }

def takePending (l : Ledger) : Option NativeEvent × Ledger :=
  (l.pending.head?, { l with pending := l.pending.tail })

end Ledger

end BrokerBridge
