/-!
# Host health

A monitor whose state the host sets. A change of state is passed, on the thread that made it,
to every listener subscribed when the change was made; a listener may use the monitor again.
-/

namespace BrokerBridge

inductive HealthState where
  | healthy | unhealthy
deriving DecidableEq, Repr, Inhabited

namespace HealthState

def name : HealthState → String
  | healthy => "healthy"
  | unhealthy => "unhealthy"

def isHealthy : HealthState → Bool
  | healthy => true
  | unhealthy => false

end HealthState

structure HealthMonitor (ι : Type) where
  state : HealthState := .healthy
  listeners : List (Nat × ι) := []
  nextId : Nat := 0
deriving Repr

namespace HealthMonitor

variable {ι : Type}

instance : Inhabited (HealthMonitor ι) := ⟨{}⟩

/-- Add a listener; the answer names the subscription. -/
def subscribe (m : HealthMonitor ι) (listener : ι) : Nat × HealthMonitor ι :=
  (m.nextId,
    { m with listeners := m.listeners ++ [(m.nextId, listener)], nextId := m.nextId + 1 })

def unsubscribe (m : HealthMonitor ι) (id : Nat) : HealthMonitor ι :=
  { m with listeners := m.listeners.filter (·.1 != id) }

/-- Change the state. The answer is the listeners to call: none when the state is the same. -/
def transition (m : HealthMonitor ι) (next : HealthState) :
    List (Nat × ι) × HealthMonitor ι :=
  if m.state = next then ([], m) else (m.listeners, { m with state := next })

def listenerCount (m : HealthMonitor ι) : Nat := m.listeners.length

theorem transition_same {m : HealthMonitor ι} : m.transition m.state = ([], m) := by
  simp [transition]

theorem state_transition (m : HealthMonitor ι) (next : HealthState) :
    (m.transition next).2.state = next := by
  unfold transition
  split
  · next h => exact h
  · rfl

theorem listeners_transition (m : HealthMonitor ι) (next : HealthState) :
    (m.transition next).2.listeners = m.listeners := by
  unfold transition
  split <;> rfl

end HealthMonitor

/-! ## Listeners that use the monitor -/

/-- What can be done with a monitor. A subscriber says what its listener does on each state. -/
inductive HealthAction where
  | set (state : HealthState)
  | subscribe (name : String) (onHealthy onUnhealthy : List HealthAction)
  | drop (name : String)
deriving Repr

structure HealthListener where
  name : String
  onHealthy : List HealthAction
  onUnhealthy : List HealthAction
deriving Repr

def HealthListener.reaction (l : HealthListener) : HealthState → List HealthAction
  | .healthy => l.onHealthy
  | .unhealthy => l.onUnhealthy

structure HealthCall where
  id : Nat
  name : String
  passed : HealthState
  /-- The monitor's state when the listener was called. -/
  current : HealthState
deriving DecidableEq, Repr

structure HealthBench where
  monitor : HealthMonitor HealthListener := {}
  subscriptions : List (String × Nat) := []
  calls : List HealthCall := []
deriving Repr

namespace HealthBench

instance : Inhabited HealthBench := ⟨{}⟩

def dropSubscription (b : HealthBench) (name : String) : HealthBench :=
  match b.subscriptions.lookup name with
  | none => b
  | some id =>
      { b with
        monitor := b.monitor.unsubscribe id
        subscriptions := b.subscriptions.filter (·.1 != name) }

/-- Under a used name the new listener is registered first, then the old one is dropped. -/
def subscribe (b : HealthBench) (l : HealthListener) : HealthBench :=
  let (id, monitor) := b.monitor.subscribe l
  let b := dropSubscription { b with monitor } l.name
  { b with subscriptions := b.subscriptions ++ [(l.name, id)] }

def record (b : HealthBench) (id : Nat) (l : HealthListener) (passed : HealthState) :
    HealthBench :=
  { b with calls := b.calls ++ [⟨id, l.name, passed, b.monitor.state⟩] }

/-- Perform actions one after another, with the listeners they call. Listeners nested deeper
than `depth` give no answer. -/
def perform : (depth : Nat) → HealthBench → List HealthAction → Option HealthBench
  | _, b, [] => some b
  | depth, b, .subscribe name onHealthy onUnhealthy :: rest =>
      perform depth (b.subscribe ⟨name, onHealthy, onUnhealthy⟩) rest
  | depth, b, .drop name :: rest => perform depth (b.dropSubscription name) rest
  | 0, b, .set next :: rest =>
      match b.monitor.transition next with
      | ([], monitor) => perform 0 { b with monitor } rest
      | (_ :: _, _) => none
  | depth + 1, b, .set next :: rest => do
      let (listeners, monitor) := b.monitor.transition next
      let b ← listeners.foldlM
        (fun b (id, l) => perform depth (b.record id l next) (l.reaction next))
        { b with monitor }
      perform (depth + 1) b rest
termination_by depth _ actions => (depth, actions.length)

end HealthBench

end BrokerBridge
