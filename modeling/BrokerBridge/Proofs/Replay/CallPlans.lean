import BrokerBridge.Proofs.Replay.Custody

/-!
# Calls of the scripted client, section by section

A call of the client takes the lock of its books, the script or the expectations, leaves it again
and goes on with what it found. Events pass through the buffers only in two ways: one that is
posted is taken up in host execution, and one that is to be delivered is handed over there. The plan
of a call lists its sections; run without a break they are the call.
-/

namespace BrokerBridge

/-- What a call does under a lock, the buffers apart. -/
inductive ClientSection where
  | observe (call : NativeCall)
  | settle (call : NativeCall) (code : Verdicts → Int)
  | start
  | stop
  | isHealthy
  | openQueue (uri : String) (flags : QueueFlags) (options : QueueOptions)
  | dropQueue (uri : String)
  | configureQueue (q : QueueHandle) (options : QueueOptions)
  | optionsOf (q : QueueHandle)
  | resetOptions (q : QueueHandle) (options : QueueOptions)
  | closeQueue (q : QueueHandle)
  | isCurrent (q : QueueHandle)
  | findQueue (uri : String)
  | openHandle (uri : String)
  | confirm (q : QueueHandle)
  /-- Note the host's health; who is affected, and whether the client is started. -/
  | setHealth (health : HealthState)
  | closesOnGet
  | nextPush
  | nextAcks
  | pushMessage (p : ScriptedPush)
  | unsupported (method : String)

namespace ClientSection

def Answer : ClientSection → Type
  | observe _ | start | stop | dropQueue _ | resetOptions .. => Unit
  | settle .. | confirm _ => Int
  | isHealthy | isCurrent _ | closesOnGet => Bool
  | openQueue .. | configureQueue .. | closeQueue _ => QueueStatus
  | optionsOf _ => QueueOptions
  | findQueue _ => Option QueueHandle
  | openHandle _ => QueueHandle
  | setHealth _ => List QueueHandle × Bool
  | nextPush => Option (List ScriptedPush)
  | nextAcks => Option (List ScriptedAck)
  | pushMessage _ => Message
  | unsupported _ => Empty

open Stage in
def run : (s : ClientSection) → Act Stage s.Answer
  | observe call => Stage.observe call
  | settle call code => Stage.settle call code
  | start => modifyLedger (·.start)
  | stop => modifyLedger (·.stop)
  | isHealthy => return (← Act.native).ledger.health.isHealthy
  | openQueue uri flags options => ledgerUpdate (·.openQueue uri flags options)
  | dropQueue uri => modifyLedger (·.dropQueue uri)
  | configureQueue q options => ledgerUpdate (·.configureQueue q options)
  | optionsOf q => return (← Act.native).ledger.table.options q
  | resetOptions q options => modifyLedger (·.resetOptions q options)
  | closeQueue q => ledgerUpdate (·.closeQueue q)
  | isCurrent q => return (← Act.native).ledger.isCurrent q
  | findQueue uri => return (← Act.native).ledger.queue? uri
  | openHandle uri => Stage.openHandle uri
  | confirm q => return (← Act.native).ledger.confirm q
  | setHealth health => do
      let affected ← ledgerUpdate (·.setHealth health)
      return (affected, (← Act.native).ledger.started)
  | closesOnGet => return (← Act.native).closeOnGet
  | nextPush => Act.onNative fun s => let (b, script) := s.script.popPush; (b, { s with script })
  | nextAcks => Stage.nextAcks
  | pushMessage p => Stage.pushMessage p
  | unsupported method => Act.panic (.unsupported method)

/-- Whoever writes the script is asked, and may do other things before the answer. -/
def asks : ClientSection → Bool
  | settle .. | closesOnGet | nextPush | nextAcks => true
  | _ => false

end ClientSection

def Panic.isLoss : Panic → Bool
  | eventLost | postLost => true
  | _ => false

/-- Host execution and the buffers are left alone, and no event is missed. -/
def Spared : Course Stage := fun ending b b' =>
  b'.host = b.host ∧ b'.native.ledger.buffers = b.native.ledger.buffers ∧
    ∀ cause ∈ ending, cause.isLoss = false

private theorem Spared.ended {b b' : Bridge Stage} (host : b'.host = b.host)
    (buffers : b'.native.ledger.buffers = b.native.ledger.buffers) : Spared none b b' :=
  ⟨host, buffers, fun _ h => absurd h (Option.not_mem_none _)⟩

private theorem Spared.before {ending : Option Panic} {b₁ b₂ b₃ : Bridge Stage}
    (h₁ : Spared none b₁ b₂)
    (h₂ : Spared ending b₂ b₃) : Spared ending b₁ b₃ := by
  obtain ⟨host₁, buffers₁, _⟩ := h₁
  obtain ⟨host₂, buffers₂, hcause⟩ := h₂
  exact ⟨host₂.trans host₁, buffers₂.trans buffers₁, hcause⟩

namespace ClientSection

open Act

variable {α β : Type}

private theorem spared_pure (a : α) : Follows Spared (pure a : Act Stage α) where
  ok h := by
    cases h
    exact .ended rfl rfl
  panic h := by cases h

private theorem spared_panic {cause : Panic} (hcause : cause.isLoss = false) :
    Follows Spared (Act.panic cause : Act Stage α) where
  ok h := by cases h
  panic h := by
    cases h
    refine ⟨rfl, rfl, ?_⟩
    rintro _ ⟨⟩
    exact hcause

private theorem spared_bind {m : Act Stage α} {k : α → Act Stage β} (hm : Follows Spared m)
    (hk : ∀ a, Follows Spared (k a)) : Follows Spared (m >>= k) where
  ok h := by
    obtain ⟨a, b₁, h₁, h₂⟩ := bind_eq_ok.mp h
    exact (hm.ok h₁).before ((hk a).ok h₂)
  panic h := by
    rcases bind_eq_error.mp h with h₁ | ⟨a, b₁, h₁, h₂⟩
    · exact hm.panic h₁
    · exact (hm.ok h₁).before ((hk a).panic h₂)

private theorem spared_onNative {f : Stage → α × Stage}
    (hf : ∀ n, (f n).2.ledger.buffers = n.ledger.buffers) : Follows Spared (onNative f) :=
  follows_onNative fun b => .ended rfl (hf b.native)

private theorem spared_native : Follows Spared (native : Act Stage Stage) where
  ok h := by
    cases h
    exact .ended rfl rfl
  panic h := by cases h

private theorem spared_read (f : Stage → α) : Follows Spared (native >>= fun n => pure (f n)) :=
  spared_bind spared_native fun _ => spared_pure _

private theorem spared_ledgerUpdate {f : Ledger → α × Ledger}
    (hf : ∀ l, (f l).2.buffers = l.buffers) :
    Follows Spared (Stage.ledgerUpdate f) :=
  spared_onNative fun n => hf n.ledger

private theorem spared_modifyLedger {f : Ledger → Ledger} (hf : ∀ l, (f l).buffers = l.buffers) :
    Follows Spared (Stage.modifyLedger f) :=
  follows_modify fun b => .ended rfl (hf b.native.ledger)

private theorem spared_observe (call : NativeCall) : Follows Spared (Stage.observe call) := by
  refine spared_bind (spared_onNative fun n => rfl) fun r => ?_
  cases r with
  | ok _ => exact spared_pure _
  | error mismatch => exact spared_panic rfl

private theorem spared_openHandle (uri : String) : Follows Spared (Stage.openHandle uri) := by
  refine spared_bind spared_native fun n => ?_
  cases n.ledger.queue? uri with
  | none => exact spared_panic rfl
  | some q => exact spared_pure q

private theorem spared_pushMessage (p : ScriptedPush) : Follows Spared (Stage.pushMessage p) := by
  unfold Stage.pushMessage
  cases p.wire with
  | error e => exact spared_panic rfl
  | ok wire => exact spared_bind (spared_openHandle p.queueUri) fun _ => spared_pure _

/-- Only calls that push to a buffer or take from it touch the buffers. -/
theorem spared_run (s : ClientSection) : Follows Spared s.run := by
  cases s with
  | observe call => exact spared_observe call
  | start => exact spared_modifyLedger fun _ => rfl
  | stop => exact spared_modifyLedger fun _ => rfl
  | openQueue uri flags options =>
    exact spared_ledgerUpdate fun l => l.buffers_openQueue uri options flags
  | dropQueue uri => exact spared_modifyLedger fun l => l.buffers_dropQueue uri
  | configureQueue q options =>
    exact spared_ledgerUpdate fun l => l.buffers_configureQueue q options
  | resetOptions q options =>
    exact spared_modifyLedger (f := (·.resetOptions q options)) fun _ => rfl
  | closeQueue q => exact spared_ledgerUpdate fun l => l.buffers_closeQueue q
  | openHandle uri => exact spared_openHandle uri
  | setHealth health =>
    exact spared_bind (spared_ledgerUpdate fun l => l.buffers_setHealth health)
      fun affected => spared_read _
  | settle | nextPush | nextAcks =>
    refine ⟨fun h => ?_, nofun⟩
    cases h
    exact .ended rfl rfl
  | pushMessage p => exact spared_pushMessage p
  | unsupported method => exact spared_panic rfl
  | _ => exact spared_read _

end ClientSection

inductive HostPlan (α : Type) where
  | done (a : α)
  | step (s : ClientSection) (next : s.Answer → HostPlan α)
  /-- Hold some tokens to the end. -/
  | hold (tokens : List Correlation) (next : HostPlan α)
  | deliver (e : NativeEvent) (next : HostPlan α)

inductive CallPlan (α : Type) where
  | done (a : α)
  | step (s : ClientSection) (next : s.Answer → CallPlan α)
  | inHost (next : HostPlan α)
  /-- Buffer an event; in host execution, go on with the oldest one buffered. -/
  | post (e : MessageEvent) (next : MessageEvent → HostPlan α)

variable {α : Type}

def HostPlan.alone (host : HostCode Stage) : HostPlan α → Act Stage α
  | done a => return a
  | step s next => do (next (← s.run)).alone host
  | hold tokens next => Stage.holding tokens (next.alone host)
  | deliver e next => do
      Stage.passOn host e
      next.alone host

def CallPlan.alone (host : HostCode Stage) : CallPlan α → Act Stage α
  | done a => return a
  | step s next => do (next (← s.run)).alone host
  | inHost next => Act.inHost (next.alone host)
  | post e next => do
      Stage.modifyLedger (·.post e)
      Act.inHost do
        match ← Stage.ledgerUpdate (·.takePosted) with
        | none => Act.panic .postLost
        | some posted => (next posted).alone host

namespace HostPlan

def deliverAll : List NativeEvent → HostPlan α → HostPlan α
  | [], next => next
  | e :: rest, next => .deliver e (deliverAll rest next)

def pushes : List ScriptedPush → (List Message → HostPlan α) → HostPlan α
  | [], next => next []
  | p :: rest, next =>
      .step (.pushMessage p) fun m => pushes rest fun messages => next (m :: messages)

def acks : Option Correlation → List ScriptedAck →
    (List Message → Option Correlation → HostPlan α) → HostPlan α
  | posted, [], next => next [] posted
  | posted, a :: rest, next =>
      .step (.openHandle a.queueUri) fun q =>
        acks (Stage.claimToken posted a.correlation).2 rest fun messages left =>
          next (.ack q a.guid a.status (Stage.claimToken posted a.correlation).1 :: messages) left

def playAcks (batch : List ScriptedAck) (posted : Option Correlation) (a : α) : HostPlan α :=
  acks posted batch fun messages left =>
    .hold left.toList (.deliver (.message (.ack messages)) (.done a))

def decidePost (call : NativeCall) (posted : MessageEvent) :
    HostPlan (Except PostRejection Unit) :=
  .step (.settle call (·.post)) fun (code : Int) =>
    let answer := if code = Code.success then .ok () else .error ⟨code, posted⟩
    .step .nextAcks fun
      | none => .done answer
      | some batch =>
          if code = Code.success then playAcks batch posted.correlations.head? answer
          else .hold posted.correlations (playAcks batch none answer)

end HostPlan

/-- A call of the client, or a change of the host's health that it is told of. -/
inductive ClientRequest where
  | start (timeout : Duration)
  | stop
  | openQueue (uri : String) (flags : QueueFlags) (options : QueueOptions) (timeout : Duration)
  | configureQueue (q : QueueHandle) (options : QueueOptions) (timeout : Duration)
  | closeQueue (q : QueueHandle) (timeout : Duration)
  | findQueue (uri : String)
  | post (e : MessageEvent)
  | confirm (q : QueueHandle) (guid : Guid)
  | healthChanged (health : HealthState)
  | unsupported (method : String)

namespace ClientRequest

def Answer : ClientRequest → Type
  | start _ | confirm .. => Int
  | stop | healthChanged _ => Unit
  | openQueue .. | configureQueue .. | closeQueue .. => QueueStatus
  | findQueue _ => Option QueueHandle
  | post _ => Except PostRejection Unit
  | unsupported _ => Empty

def perform (host : HostCode Stage) : (r : ClientRequest) → Act Stage r.Answer
  | start timeout => Stage.start host timeout
  | stop => Stage.stop
  | openQueue uri flags options timeout => Stage.openQueue host uri flags options timeout
  | configureQueue q options timeout => Stage.configureQueue q options timeout
  | closeQueue q timeout => Stage.closeQueue q timeout
  | findQueue uri => Stage.queue? uri
  | post e => Stage.post host e
  | confirm q guid => Stage.confirm q guid
  | healthChanged health => Stage.healthChanged host health
  | unsupported method => Act.panic (.unsupported method)

def plan : (r : ClientRequest) → CallPlan r.Answer
  | start timeout =>
      .step (.observe (.start timeout)) fun _ => .step .start fun _ => .inHost <|
        .step (.settle (.start timeout) (·.start)) fun (code : Int) =>
          if code ≠ Code.success then .step .stop fun _ => .done code
          else
            .step .isHealthy fun (healthy : Bool) =>
              if !healthy then
                .deliver (Stage.healthReport .hostUnhealthy none) (.done Code.success)
              else .done Code.success
  | stop =>
      .step (.observe .stop) fun _ => .step .stop fun _ => .inHost <|
        .step (.settle .stop fun _ => Code.success) fun _ => .done ()
  | openQueue uri flags options timeout =>
      let call := NativeCall.openQueue uri flags options timeout
      .step (.observe call) fun _ => .step (.openQueue uri flags options) fun status =>
        if status.code ≠ Code.success then .done status
        else
          .inHost <| .step (.settle call (·.openQueue)) fun (code : Int) =>
            if code ≠ Code.success then
              .step (.dropQueue uri) fun _ => .done
                ⟨status.queue, code, "mock open rejected with " ++ Code.openQueue.name code⟩
            else
              .step .nextPush fun
                | some batch => .pushes batch fun messages =>
                    .deliver (.message (.push messages)) (.done status)
                | none => .done status
  | configureQueue q options timeout =>
      let call := NativeCall.configureQueue q.uri options timeout
      .step (.observe call) fun _ => .step (.optionsOf q) fun before =>
        .step (.configureQueue q options) fun status =>
          if status.code ≠ Code.success then .done status
          else
            .inHost <| .step (.settle call (·.configureQueue)) fun (code : Int) =>
              if code ≠ Code.success then
                .step (.resetOptions q before) fun _ => .done ⟨status.queue, code,
                  "mock configure rejected with " ++ Code.configureQueue.name code⟩
              else .done status
  | closeQueue q timeout =>
      let call := NativeCall.closeQueue q.uri timeout
      .step (.observe call) fun _ => .step (.isCurrent q) fun (current : Bool) =>
        if !current then .done ⟨some q, Code.unknownQueue, "unknown queue"⟩
        else
          .inHost <| .step (.settle call (·.closeQueue)) fun (code : Int) =>
            if code ≠ Code.success then
              .done ⟨some q, code, "mock close rejected with " ++ Code.closeQueue.name code⟩
            else .step (.closeQueue q) .done
  | findQueue uri =>
      .step (.findQueue uri) fun
        | none => .done none
        | some q => .step .closesOnGet fun (closes : Bool) =>
            if closes then
              .step (.observe (.closeOnGet uri)) fun _ => .step (.closeQueue q) fun _ =>
                .done (some q)
            else .done (some q)
  | post e => .step (.observe (.ofPosted e)) fun _ => .post e (.decidePost (.ofPosted e))
  | confirm q guid =>
      .step (.observe (.confirm q.uri guid)) fun _ => .step (.confirm q) fun (code : Int) =>
        if code ≠ Code.success then .done code
        else .inHost <| .step (.settle (.confirm q.uri guid) (·.confirm)) .done
  | healthChanged health =>
      .step (.setHealth health) fun (affected, started) =>
        if started then .inHost (.deliverAll (Stage.healthReports health affected) (.done ()))
        else .done ()
  | unsupported method => .step (.unsupported method) Empty.elim

end ClientRequest

/-! ## Plans run without a break -/

namespace HostPlan

open Act

variable (host : HostCode Stage)

private theorem alone_branch {c : Prop} [Decidable c] {p q : HostPlan α} {x y : Act Stage α}
    (hp : p.alone host = x) (hq : q.alone host = y) :
    (if c then p else q).alone host = if c then x else y := by
  rw [← hp, ← hq, apply_ite (alone host)]

private theorem alone_deliverAll (events : List NativeEvent) (next : HostPlan α) :
    (deliverAll events next).alone host =
      Stage.passAll host events >>= fun _ => next.alone host := by
  induction events with
  | nil => rfl
  | cons e rest ih =>
    rw [deliverAll, alone, ih]
    simp only [Stage.passAll, bind_assoc]

private theorem alone_pushes (batch : List ScriptedPush) (next : List Message → HostPlan α) :
    (pushes batch next).alone host =
      batch.mapM Stage.pushMessage >>= fun messages => (next messages).alone host := by
  induction batch generalizing next with
  | nil => rfl
  | cons p rest ih =>
    simp only [pushes, alone, ih, List.mapM_cons, bind_assoc, pure_bind]
    rfl

private theorem alone_acks (posted : Option Correlation) (batch : List ScriptedAck)
    (next : List Message → Option Correlation → HostPlan α) :
    (acks posted batch next).alone host =
      Stage.ackMessages posted batch >>= fun r => (next r.1 r.2).alone host := by
  induction batch generalizing posted next with
  | nil => rfl
  | cons a rest ih =>
    simp only [acks, alone, ih, Stage.ackMessages, bind_assoc, pure_bind]
    rfl

end HostPlan

namespace Stage

open Act

variable {β : Type} (host : HostCode Stage)

private theorem read_bind (f : Stage → β) (k : β → Act Stage α) :
    ((native >>= fun n => pure (f n)) >>= k) = native >>= fun n => k (f n) := by
  simp only [bind_assoc, pure_bind]

/-- An answer that is given afterwards may as well be given while the tokens are held. -/
theorem holding_bind_pure (tokens : List Correlation) (body : Act Stage β) (a : α) :
    (holding tokens body >>= fun _ => pure a) = holding tokens (body >>= fun _ => pure a) := by
  unfold holding
  rw [bind_assoc]
  congr 1
  funext _ b
  simp only [bind, EStateM.bind, ensuring]
  cases body b <;> rfl

private theorem alone_playAcks (batch : List ScriptedAck) (posted : Option Correlation) (a : α) :
    (HostPlan.playAcks batch posted a).alone host =
      playAcks host batch posted >>= fun _ => pure a := by
  simp only [HostPlan.playAcks, HostPlan.alone_acks, HostPlan.alone, playAcks, bind_assoc,
    holding_bind_pure]

private theorem alone_decidePost (call : NativeCall) (posted : MessageEvent) :
    (HostPlan.decidePost call posted).alone host = decidePost host call posted := by
  refine bind_congr fun (code : Int) => bind_congr fun batch => ?_
  cases batch with
  | none => rfl
  | some batch =>
    unfold acknowledge
    by_cases hcode : code = Code.success
    · simp only [hcode, if_true, alone_playAcks]
    · simp only [hcode, if_false, HostPlan.alone, alone_playAcks, holding_bind_pure]

end Stage

private theorem CallPlan.alone_branch (host : HostCode Stage) {c : Prop} [Decidable c]
    {p q : CallPlan α}
    {x y : Act Stage α} (hp : p.alone host = x) (hq : q.alone host = y) :
    (if c then p else q).alone host = if c then x else y := by
  rw [← hp, ← hq, apply_ite (alone host)]

namespace ClientRequest

open Act

variable (host : HostCode Stage)

private theorem alone_start (timeout : Duration) :
    (start timeout).plan.alone host = Stage.start host timeout := by
  refine bind_congr fun _ => bind_congr fun _ => congrArg inHost (bind_congr fun (code : Int) => ?_)
  refine HostPlan.alone_branch host rfl ?_
  refine (Stage.read_bind (·.ledger.health.isHealthy) _).trans (bind_congr fun n => ?_)
  exact HostPlan.alone_branch host rfl rfl

private theorem alone_openQueue (uri : String) (flags : QueueFlags) (options : QueueOptions)
    (timeout : Duration) : (openQueue uri flags options timeout).plan.alone host =
      Stage.openQueue host uri flags options timeout := by
  refine bind_congr fun _ => bind_congr fun status => ?_
  refine CallPlan.alone_branch host rfl (congrArg inHost (bind_congr fun (code : Int) => ?_))
  refine HostPlan.alone_branch host rfl (bind_congr fun front => ?_)
  cases front with
  | none => rfl
  | some batch =>
    refine (HostPlan.alone_pushes host batch _).trans ?_
    simp only [Stage.playPush, bind_assoc]
    rfl

private theorem alone_configureQueue (q : QueueHandle) (options : QueueOptions)
    (timeout : Duration) :
    (configureQueue q options timeout).plan.alone host =
      Stage.configureQueue q options timeout := by
  refine bind_congr fun _ => (Stage.read_bind (·.ledger.table.options q) _).trans ?_
  refine bind_congr fun n => bind_congr fun status => ?_
  refine CallPlan.alone_branch host rfl (congrArg inHost (bind_congr fun (code : Int) => ?_))
  exact HostPlan.alone_branch host rfl rfl

private theorem alone_closeQueue (q : QueueHandle) (timeout : Duration) :
    (closeQueue q timeout).plan.alone host = Stage.closeQueue q timeout := by
  refine bind_congr fun _ => (Stage.read_bind (·.ledger.isCurrent q) _).trans ?_
  refine bind_congr fun n => ?_
  refine CallPlan.alone_branch host rfl (congrArg inHost (bind_congr fun (code : Int) => ?_))
  exact HostPlan.alone_branch host rfl (bind_pure _)

private theorem alone_findQueue (uri : String) :
    (findQueue uri).plan.alone host = Stage.queue? uri := by
  refine (Stage.read_bind (·.ledger.queue? uri) _).trans ?_
  funext b
  -- both sides look at the client as it is, though only one of them looks again
  refine Eq.trans ?_ (bind_of_ok (rfl : native b = .ok b.native b)).symm
  refine (bind_of_ok (rfl : native b = .ok b.native b)).trans ?_
  cases b.native.ledger.queue? uri with
  | none => rfl
  | some q =>
    refine (congrFun (Stage.read_bind (·.closeOnGet) _) b).trans ?_
    refine (bind_of_ok (rfl : native b = .ok b.native b)).trans ?_
    cases b.native.closeOnGet <;> rfl

private theorem alone_post (e : MessageEvent) : (post e).plan.alone host = Stage.post host e := by
  refine bind_congr fun _ => bind_congr fun _ => congrArg inHost (bind_congr fun posted => ?_)
  cases posted with
  | none => rfl
  | some posted => exact Stage.alone_decidePost host _ posted

private theorem alone_confirm (q : QueueHandle) (guid : Guid) :
    (confirm q guid).plan.alone host = Stage.confirm q guid := by
  refine bind_congr fun _ => (Stage.read_bind (·.ledger.confirm q) _).trans ?_
  refine bind_congr fun n => ?_
  exact CallPlan.alone_branch host rfl (congrArg inHost (bind_pure _))

private theorem alone_healthChanged (health : HealthState) :
    (healthChanged health).plan.alone host = Stage.healthChanged host health := by
  refine (bind_assoc _ _ _).trans (bind_congr fun affected => ?_)
  refine (Stage.read_bind (fun n => (affected, n.ledger.started)) _).trans ?_
  refine bind_congr fun n => ?_
  refine CallPlan.alone_branch host (congrArg inHost ?_) rfl
  exact (HostPlan.alone_deliverAll host _ _).trans (bind_pure _)

/-- The sections of a request, run without a break, are the request. -/
theorem alone_plan (r : ClientRequest) : r.plan.alone host = r.perform host := by
  cases r with
  | start timeout => exact alone_start host timeout
  | stop => rfl
  | openQueue uri flags options timeout => exact alone_openQueue host uri flags options timeout
  | configureQueue q options timeout => exact alone_configureQueue host q options timeout
  | closeQueue q timeout => exact alone_closeQueue host q timeout
  | findQueue uri => exact alone_findQueue host uri
  | post e => exact alone_post host e
  | confirm q guid => exact alone_confirm host q guid
  | healthChanged health => exact alone_healthChanged host health
  | unsupported method => rfl

end ClientRequest

end BrokerBridge
