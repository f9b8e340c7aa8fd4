import BrokerBridge.Replay.Stage

/-!
# Callbacks that make requests

How requests are carried out against the scripted client, and the host code of a rehearsal: each
of its callbacks makes requests of its own before it ends.
-/

namespace BrokerBridge

structure CallbackPlan where
  requests : List Request := []
  outcome : HostOutcome := .ok

structure RehearsalPlan where
  settings : Settings := {}
  /-- The name of the running program. -/
  executable : String
  /-- How a session is called in warnings. -/
  label : String
  callbacks : DeliveryKind → CallbackPlan := fun _ => {}
  mode : ExpectationMode := .auto
  /-- The state of the monitor that sessions watch, if they watch one. -/
  health : Option HealthState := none
  metrics : Bool := true
  /-- Whether the host's own diagnostics raise warnings as errors; none without diagnostics of
  its own, when warnings and failures are only logged. -/
  diagnostics : Option Bool := some false
  /-- Why every connection is refused, the innermost cause first. -/
  refusal : Option (List String) := none
  /-- Each step runs inside host execution, so many levels deep. -/
  levels : Nat := 0

def RehearsalPlan.session (p : RehearsalPlan) (host : HostCode Stage) (c : Connection) :
    Session Stage where
  client := Stage.client host
  options := c.options
  compression := c.compression
  label := p.label

def ScriptedAck.token? (a : ScriptedAck) : Option Correlation :=
  match a.correlation with
  | .handle c => some c
  | _ => none

def Stage.scriptedTokens (n : Stage) : List Correlation :=
  n.script.ack.flatMap fun batch => batch.filterMap (·.token?)

/-- Who holds a token: the host, and everything on the stage that carries it. A token that the
host never made is held by nobody. -/
def Stage.holders (n : Stage) (c : Correlation) : Nat :=
  if n.diary.tokens.contains c then
    1 + n.inFlight.count c
      + n.scriptedTokens.count c
      + (n.ledger.posted.flatMap (·.correlations)).count c
      + (n.ledger.pending.flatMap Stage.tokensOf).count c
  else 0

def Stage.noteTokens (n : Stage) (tokens : List Correlation) : Stage :=
  { n with diary := { n.diary with tokens := n.diary.tokens ++ tokens } }

namespace RehearsalPlan

/-! ## Requests -/

def outcome (o : Session.Op Stage SessionError Unit) : Act Stage Answer := do
  match ← o.run with
  | .ok () => return .done
  | .error e => return .failed e

/-- A start inside a callback is not carried out, nor is a stop inside a callback while a queue
operation is running: it would wait for itself. A stop on another thread needs an operation to
wait for. -/
def isRefused (r : SessionRequest) (b : Bridge Stage) : Bool :=
  match r with
  | .start _ => b.delivering != 0
  | .stop _ => b.delivering != 0 && b.gate.holds != 0
  | .stopElsewhere _ => b.gate.holds == 0
  | _ => false

def requestStop (warn : Bool) : Act Stage Unit :=
  modify fun b =>
    let thread := b.thread + 1 + b.stops.length + b.gate.waiting.length
    { b with gate := b.gate.request ⟨thread, warn⟩ }

def performSession (s : Session Stage) (r : SessionRequest) : Act Stage Answer := do
  if isRefused r (← get) then return .refused
  match r with
  | .start timeout => outcome (s.start timeout)
  | .stop warn => outcome (s.stop warn)
  | .stopElsewhere warn =>
      requestStop warn
      return .none
  | .openQueue uri read write options timeout =>
      outcome (s.openQueue uri read write options timeout)
  | .configureQueue uri options timeout => outcome (s.configureQueue uri options timeout)
  | .closeQueue uri timeout => outcome (s.closeQueue uri timeout)
  | .queueOptions uri =>
      match ← (s.queueOptions uri).run with
      | .ok options => return .queueOptions options
      | .error e => return .failed e
  | .post uri payload properties onAck =>
      Act.modifyNative (·.noteTokens onAck.toList)
      match ← (s.post uri payload properties onAck).run with
      | .ok () => return .done
      | .error failure => return .postFailed failure
  | .confirm uri guid => outcome (s.confirm uri guid)
  | .isStarted => return .flag (← Session.isStarted)

def reports (deliveries : List Delivery) : List String :=
  deliveries.filterMap fun
    | .notification (.diagnostic text) => some text
    | _ => none

def performStage (host : HostCode Stage) : StageRequest → Act Stage Answer
  | .setCodes codes => do
      Act.modifyNative fun n => { n with codes := n.codes.setAll codes }
      return .none
  | .closeOnGet value => do
      Act.modifyNative fun n => { n with closeOnGet := value }
      return .none
  | .push batch => do
      Act.modifyNative fun n => { n with script := n.script.enqueuePush batch }
      return .none
  | .ack batch => do
      Act.modifyNative (·.noteTokens (batch.filterMap (·.token?)))
      Act.modifyNative fun n => { n with script := n.script.enqueueAck batch }
      return .none
  | .loadScript files path => do
      match Script.load files path with
      | .error fault => return .badScript fault
      | .ok more =>
          Act.modifyNative fun n => { n with script := n.script.extend more }
          return .done
  | .expect call => do
      Act.modifyNative fun n => { n with expectations := n.expectations.expect call }
      return .none
  | .checkSatisfied => do
      match (← Act.native).expectations.satisfied with
      | .ok () => return .done
      | .error mismatch => Act.panic (.expectation mismatch)
  | .holders token => return .count ((← Act.native).holders token)
  | .reports => return .texts (reports (← get).deliveries)
  | .setHealth health => do
      Stage.setHealth host health
      return .listeners (← Act.native).monitor.listenerCount

def caught (a : Act Stage Answer) : Act Stage Answer := do
  match ← Act.attempt a with
  | .ok answer => return answer
  | .error cause => return .panicked cause

def perform (p : RehearsalPlan) (c : Option Connection) (host : HostCode Stage) :
    Request → Act Stage Answer
  | .session r =>
      match c with
      | none => return .noSession
      | some c => caught (performSession (p.session host c) r)
  | .stage r => caught (performStage host r)
  | .confirmAll => return .none

/-! ## Callbacks -/

/-- The requests that one request of a callback stands for. -/
def expand (d : Delivery) : Request → List Request
  | .confirmAll =>
      match d with
      | .messages batch => batch.map fun m => .session (.confirm m.queueUri m.guid.bytes)
      | _ => []
  | r => [r]

def noteReaction (r : Reaction) : Act Stage Unit :=
  Act.modifyNative fun n =>
    { n with diary := { n.diary with reactions := n.diary.reactions ++ [r] } }

/-- The host's code. Callbacks that are nested deeper than `depth` are not looked into. -/
def callback (p : RehearsalPlan) (c : Option Connection) : (depth : Nat) → HostCode Stage
  | 0 => fun _ => throw .tooDeep
  | depth + 1 => fun d => do
      let plan := p.callbacks d.kind
      (plan.requests.flatMap (expand d)).forM fun r => do
        let answer ← perform p c (callback p c depth) r
        noteReaction ⟨d.kind, r, answer⟩
      return plan.outcome

end RehearsalPlan

end BrokerBridge
