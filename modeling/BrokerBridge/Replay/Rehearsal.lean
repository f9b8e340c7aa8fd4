import BrokerBridge.Replay.Callbacks

/-!
# Rehearsals

A rehearsal plays a session against the scripted client. Each step makes one request and reports
the answer together with how things stand after it and all that is new since the step before.
-/

namespace BrokerBridge

inductive RehearsalStep where
  | connect
  | drop
  | request (r : Request)

structure StepReport where
  answer : Answer
  /-- None without a session. -/
  started : Option Bool
  pendingPush : Nat
  pendingAck : Nat
  /-- The calls still expected. -/
  remaining : Nat
  /-- Whether host execution is held. -/
  held : Bool
  history : List NativeCall
  decided : List NativeCall
  deliveries : List Delivery
  warnings : List String
  unhandled : List UnhandledFailure
  reactions : List Reaction
  stops : List StopOutcome

def RehearsalPlan.connector (p : RehearsalPlan) : Connector Stage := fun options => do
  match p.refusal with
  | some causes => return .error causes
  | none =>
      Stage.create options
      return .ok ()

structure Rehearsal where
  plan : RehearsalPlan
  bridge : Bridge Stage
  connection : Option Connection := none

namespace Rehearsal

/-- A rehearsal before its first step. Without diagnostics of the host the settings say whether
warnings are raised as errors. -/
def ofPlan (p : RehearsalPlan) : Rehearsal where
  plan := p
  bridge :=
    { metrics := if p.metrics then ⟨some {}⟩ else {}
      diagnostics := { escalate := p.diagnostics.getD p.settings.warningsAsErrors }
      native :=
        { expectations := { mode := p.mode }
          monitor := { state := p.health.getD .healthy } } }

def depthLimit : Nat := 1000

def host (r : Rehearsal) : HostCode Stage := r.plan.callback r.connection depthLimit

/-- Give the session up, if there is one. It is gone even if giving it up panics. -/
def drop (r : Rehearsal) : Act Stage Answer := do
  match r.connection with
  | none => return .dropped false
  | some c =>
      let answer ← RehearsalPlan.caught do
        (r.plan.session r.host c).drop
        return .dropped true
      Stage.discard
      return answer

def offer (r : Rehearsal) : Except SessionError Connection := do
  let p := r.plan
  let c ← p.settings.connection p.executable p.health.isSome
  match p.refusal with
  | some causes => .error (.refusedConnection causes)
  | none => return c

/-- Put a session in the place of the one there may be, which is given up. The new one is there
even if giving the old one up panics. -/
def replace (r : Rehearsal) (c : Connection) : Act Stage Answer := do
  let given ← r.drop
  Act.outsideHost (Stage.create c.options)
  Act.modifyGate fun _ => {}
  match given with
  | .panicked cause => return .panicked cause
  | _ =>
      let stage ← Act.native
      let sameOptions := stage.createdWith == some c.options
      return .connected c stage.monitor.state sameOptions (← Session.isStarted)

def perform (r : Rehearsal) : RehearsalStep → Act Stage (Answer × Option Connection)
  | .connect =>
      match r.offer with
      | .error e => return (.failed e, r.connection)
      | .ok c => return (← r.replace c, some c)
  | .drop => return (← r.drop, none)
  | .request q => return (← r.plan.perform r.connection r.host q, r.connection)

def inLevels {α : Type} (levels : Nat) (body : Act Stage α) : Act Stage (α × Bool) := do
  if levels != 0 then Act.enterHost levels
  let a ← body
  let b ← get
  modify fun b => { b with host := levels.repeat (·.leave) b.host }
  return (a, b.host.isHeldBy b.thread)

def seen {α : Type} (p : RehearsalPlan) (l : List α) : List α :=
  if p.diagnostics.isSome then l else []

def report (old new : Rehearsal) (answer : Answer) (held : Bool) : StepReport where
  answer
  started := new.connection.map fun _ => new.bridge.gate.started
  pendingPush := new.bridge.native.script.push.length
  pendingAck := new.bridge.native.script.ack.length
  remaining := new.bridge.native.expectations.remaining
  held
  history := new.bridge.native.expectations.history.drop
    old.bridge.native.expectations.history.length
  decided := new.bridge.native.decided.drop old.bridge.native.decided.length
  deliveries := new.bridge.deliveries.drop old.bridge.deliveries.length
  warnings := seen new.plan <|
    new.bridge.diagnostics.warnings.drop old.bridge.diagnostics.warnings.length
  unhandled := seen new.plan <|
    new.bridge.diagnostics.unhandled.drop old.bridge.diagnostics.unhandled.length
  reactions := new.bridge.native.diary.reactions.drop
    old.bridge.native.diary.reactions.length
  stops := new.bridge.stops.drop old.bridge.stops.length

/-- Make a step; none where it would never end. -/
def step? (r : Rehearsal) (s : RehearsalStep) : Option (StepReport × Rehearsal) :=
  match inLevels r.plan.levels (r.perform s) r.bridge with
  | .ok ((answer, connection), held) bridge =>
      let next := { r with bridge, connection }
      some (report r next answer held, next)
  | .error _ _ => none

def play? (r : Rehearsal) : List RehearsalStep → Option (List StepReport × Rehearsal)
  | [] => some ([], r)
  | s :: rest => do
      let (report, r) ← r.step? s
      let (reports, r) ← r.play? rest
      return (report :: reports, r)

end Rehearsal

end BrokerBridge
