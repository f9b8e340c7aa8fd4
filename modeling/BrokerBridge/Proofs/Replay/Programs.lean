import BrokerBridge.Proofs.Session.Courses
import BrokerBridge.Replay.Stage

/-!
# Programs on a session of the scripted client

The scripted client checks a call, changes the books, arranges what nobody else looks at, and calls
the host. A course of these four is one of every call of the client, hence of every program on its
session, whose callbacks are programs again, nested to any depth.
-/

namespace BrokerBridge

variable {α β : Type}

inductive Ledger.Update (l : Ledger) : Ledger → Prop where
  | openQueue (uri : String) (flags : QueueFlags) (options : QueueOptions) :
      Update l (l.openQueue uri flags options).2
  | foreignQueue (uri : String) (flags : QueueFlags) (options : QueueOptions) :
      Update l (l.foreignQueue uri flags options).2
  | configureQueue (q : QueueHandle) (options : QueueOptions) :
      Update l (l.configureQueue q options).2
  | closeQueue (q : QueueHandle) : Update l (l.closeQueue q).2
  | dropQueue (uri : String) : Update l (l.dropQueue uri)
  | resetOptions (q : QueueHandle) (options : QueueOptions) : Update l (l.resetOptions q options)
  | setHealth (health : HealthState) : Update l (l.setHealth health).2
  | post (e : MessageEvent) : Update l (l.post e)
  | takePosted : Update l l.takePosted.2
  | enqueue (e : NativeEvent) : Update l (l.enqueue e)
  | takePending : Update l l.takePending.2

namespace Stage

open Act

structure Aside (n n' : Stage) : Prop where
  ledger : n'.ledger = n.ledger
  expectations : n'.expectations = n.expectations
  arrived : n'.arrived = n.arrived
  listeners : n'.monitor.listeners = n.monitor.listeners

structure Apart (n n' : Stage) : Prop where
  ledger : n'.ledger = n.ledger
  expectations : n'.expectations = n.expectations
  arrived : n'.arrived = n.arrived
  monitor : n'.monitor = n.monitor
  inFlight : n'.inFlight = n.inFlight

theorem Apart.aside {n n' : Stage} (h : Apart n n') : Aside n n' :=
  ⟨h.ledger, h.expectations, h.arrived, congrArg HealthMonitor.listeners h.monitor⟩

def checked (n : Stage) (call : NativeCall) : Stage :=
  { n with
    expectations := (n.expectations.observe call).2
    arrived := n.arrived ++ [call] }

theorem observe_apply (call : NativeCall) (b : Bridge Stage) :
    observe call b =
      match (b.native.expectations.observe call).1 with
      | .ok () => .ok () { b with native := b.native.checked call }
      | .error m =>
          .error (.panic (.expectation m)) { b with native := b.native.checked call } := by
  have hupdate : onNative (fun s : Stage =>
      ((s.expectations.observe call).1, s.checked call)) b =
        .ok (b.native.expectations.observe call).1 { b with native := b.native.checked call } := rfl
  refine (bind_of_ok hupdate).trans ?_
  cases (b.native.expectations.observe call).1 <;> rfl

theorem follows_observe {R : Course Stage} {call : NativeCall}
    (h : ∀ (b : Bridge Stage) ending, (∀ m, (b.native.expectations.observe call).1 = .error m →
      ending = some (.expectation m)) → R ending b { b with native := b.native.checked call }) :
    Follows R (observe call) := by
  constructor
  · intro b x b' hrun
    rw [observe_apply] at hrun
    split at hrun
    · next hmet =>
      cases hrun
      refine h b none ?_
      intro m hm
      rw [hmet] at hm
      cases hm
    · cases hrun
  · intro b cause b' hrun
    rw [observe_apply] at hrun
    split at hrun
    · cases hrun
    · next hmismatch =>
      cases hrun
      refine h b _ ?_
      intro m hm
      rw [hmismatch] at hm
      cases hm
      rfl

/-- However a call is met, it has been checked. -/
theorem eq_of_observe {call : NativeCall} {b b' : Bridge Stage} (h : (observe call).Ends b b') :
    b' = { b with native := b.native.checked call } := by
  rw [Ends, observe_apply] at h
  split at h
  · rcases h with ⟨_, h⟩ | ⟨_, h⟩ <;> cases h
    rfl
  · rcases h with ⟨_, h⟩ | ⟨_, h⟩ <;> cases h
    rfl

section

variable {b b' : Bridge Stage}

theorem observe_ok {call : NativeCall} {u : Unit} (h : observe call b = .ok u b') :
    b'.native.ledger = b.native.ledger ∧ b'.native.codes = b.native.codes := by
  rw [eq_of_observe (.inl ⟨u, h⟩)]
  exact ⟨rfl, rfl⟩

theorem neverPanics_ledgerUpdate {α : Type} (f : Ledger → α × Ledger) :
    NeverPanics (ledgerUpdate f) :=
  neverPanics_onNative _

theorem ledgerUpdate_ok {α : Type} {f : Ledger → α × Ledger} {x : α}
    (h : ledgerUpdate f b = .ok x b') : x = (f b.native.ledger).1 ∧
      b'.native.ledger = (f b.native.ledger).2 ∧ b'.native.codes = b.native.codes := by
  cases h
  exact ⟨rfl, rfl, rfl⟩

theorem modifyLedger_ok {f : Ledger → Ledger} {u : Unit} (h : modifyLedger f b = .ok u b') :
    b'.native.ledger = f b.native.ledger := by
  cases h
  rfl

theorem settle_ok {call : NativeCall} {code : Verdicts → Int} {x : Int}
    (h : settle call code b = .ok x b') :
    x = code b.native.codes ∧ b'.native.ledger = b.native.ledger := by
  cases h
  exact ⟨rfl, rfl⟩

end

def startChecked (host : HostCode Stage) (timeout : Duration) : Act Stage Int := do
  modifyLedger (·.start)
  Act.inHost do
    let code ← settle (.start timeout) (·.start)
    if code ≠ Code.success then
      modifyLedger (·.stop)
      return code
    if !(← Act.native).ledger.health.isHealthy then
      passOn host (healthReport .hostUnhealthy none)
    return Code.success

theorem start_eq (host : HostCode Stage) (timeout : Duration) :
    start host timeout = observe (.start timeout) >>= fun _ => startChecked host timeout :=
  rfl

/-- Pairs that calls which at most close a queue do not break up. -/
structure Serves (P : {α : Type} → Act Stage α → Act Stage α → Prop) : Prop
    extends Act.Closed P where
  checks : ∀ call, P (observe call) (observe call)
  settles : ∀ call code, P (settle call code) (settle call code)
  closes : ∀ q, P (ledgerUpdate (·.closeQueue q)) (ledgerUpdate (·.closeQueue q))

/-- Pairs that calls on queues do not break up, configuring, posting and passing events on apart. -/
structure Assembles (P : {α : Type} → Act Stage α → Act Stage α → Prop) : Prop
    extends Serves P where
  apart : ∀ {α : Type} {f : Stage → α × Stage}, (∀ n, Apart n (f n).2) →
    P (onNative f) (onNative f)
  settles := fun _ _ => apart fun _ => ⟨rfl, rfl, rfl, rfl, rfl⟩
  opens : ∀ uri flags options,
    P (ledgerUpdate (·.openQueue uri flags options)) (ledgerUpdate (·.openQueue uri flags options))
  drops : ∀ uri, P (modifyLedger (·.dropQueue uri)) (modifyLedger (·.dropQueue uri))
  keeps : ∀ {α : Type} (tokens : List Correlation) {body body' : Act Stage α}, P body body' →
    P (holding tokens body) (holding tokens body')

/-- Pairs that what the calls of the client are made of does not break up, starting and stopping
apart. -/
structure Builds (P : {α : Type} → Act Stage α → Act Stage α → Prop) : Prop
    extends Assembles P where
  update : ∀ {α : Type} {f : Ledger → α × Ledger}, (∀ l : Ledger, l.Update (f l).2) →
    P (ledgerUpdate f) (ledgerUpdate f)
  revise : ∀ {f : Ledger → Ledger}, (∀ l : Ledger, l.Update (f l)) →
    P (modifyLedger f) (modifyLedger f)
  closes := fun q => update fun _ => .closeQueue q
  opens := fun uri flags options => update fun _ => .openQueue uri flags options
  drops := fun uri => revise fun _ => .dropQueue uri

structure Arranges (P : {α : Type} → Act Stage α → Act Stage α → Prop) : Prop
    extends Builds P where
  aside : ∀ {α : Type} {f : Stage → α × Stage}, (∀ n, Aside n (f n).2) →
    P (onNative f) (onNative f)
  arrange : ∀ {f : Stage → Stage}, (∀ n, Aside n (f n)) → P (modifyNative f) (modifyNative f)
  apart := fun hf => aside fun n => (hf n).aside

section

variable {P : {α : Type} → Act Stage α → Act Stage α → Prop} (hP : Serves P)

include hP

private theorem closed_openHandle (uri : String) : P (openHandle uri) (openHandle uri) := by
  apply hP.andThen (closed_native hP.toClosed)
  intro n
  split
  · exact hP.done _
  · exact hP.fails _

theorem closed_closeQueue (q : QueueHandle) (timeout : Duration) :
    P (closeQueue q timeout) (closeQueue q timeout) := by
  apply hP.andThen (hP.checks _)
  intro _
  apply hP.andThen (closed_native hP.toClosed)
  intro n
  split
  · exact hP.done _
  apply hP.inside
  apply hP.andThen (hP.settles ..)
  intro code
  split
  · exact hP.done _
  · exact hP.closes q

theorem closed_queue? (uri : String) : P (queue? uri) (queue? uri) := by
  apply hP.andThen (closed_native hP.toClosed)
  intro n
  split
  · exact hP.done _
  next q _ =>
  simp only
  split
  · apply hP.andThen (hP.checks _)
    intro _
    apply hP.andThen
    · exact hP.closes q
    · exact fun _ => hP.done _
  · exact hP.done _

theorem closed_confirm (q : QueueHandle) (guid : Guid) : P (confirm q guid) (confirm q guid) := by
  apply hP.andThen (hP.checks _)
  intro _
  apply hP.andThen (closed_native hP.toClosed)
  intro n
  simp only
  split
  · exact hP.done _
  · exact hP.inside (hP.settles ..)

theorem closed_stop (hstopped : P (modifyLedger (·.stop)) (modifyLedger (·.stop))) :
    P stop stop := by
  apply hP.andThen (hP.checks _)
  intro _
  apply hP.andThen hstopped
  intro _
  apply hP.inside
  exact hP.andThen (hP.settles ..) fun _ => hP.done _

private theorem closed_ackMessages (posted : Option Correlation) (batch : List ScriptedAck) :
    P (ackMessages posted batch) (ackMessages posted batch) := by
  induction batch generalizing posted with
  | nil => exact hP.done _
  | cons a rest ih =>
    apply hP.andThen (closed_openHandle hP _)
    intro q
    exact hP.andThen (ih _) fun _ => hP.done _

section

variable {host host' : HostCode Stage}
  (hstarted : P (modifyLedger (·.start)) (modifyLedger (·.start)))
  (hstopped : P (modifyLedger (·.stop)) (modifyLedger (·.stop)))
  (hreport : P (passOn host (healthReport .hostUnhealthy none))
    (passOn host' (healthReport .hostUnhealthy none))) (timeout : Duration)

include hstarted hstopped hreport

theorem closed_startChecked : P (startChecked host timeout) (startChecked host' timeout) := by
  apply hP.andThen hstarted
  intro _
  apply hP.inside
  apply hP.andThen (hP.settles ..)
  intro code
  split
  · exact hP.andThen hstopped fun _ => hP.done _
  · apply hP.andThen (closed_native hP.toClosed)
    intro n
    split
    · exact hP.andThen hreport fun _ => hP.done _
    · exact hP.done _

theorem closed_start : P (start host timeout) (start host' timeout) :=
  hP.andThen (hP.checks _) fun _ =>
    closed_startChecked hP hstarted hstopped hreport timeout

end

theorem closed_configureQueue
    (hconfigures : ∀ q options, P (ledgerUpdate (·.configureQueue q options))
      (ledgerUpdate (·.configureQueue q options)))
    (hresets : ∀ q options, P (modifyLedger (·.resetOptions q options))
      (modifyLedger (·.resetOptions q options)))
    (q : QueueHandle) (options : QueueOptions) (timeout : Duration) :
    P (configureQueue q options timeout) (configureQueue q options timeout) := by
  apply hP.andThen (hP.checks _)
  intro _
  apply hP.andThen (closed_native hP.toClosed)
  intro n
  apply hP.andThen (hconfigures q options)
  intro status
  split
  · exact hP.done _
  apply hP.inside
  apply hP.andThen (hP.settles ..)
  intro code
  split
  · exact hP.andThen (hresets q _) fun _ => hP.done _
  · exact hP.done _

end

theorem healthReports_eq (health : HealthState) (affected : List QueueHandle) :
    ∃ events : List SessionEvent, healthReports health affected = events.map .session := by
  have hmap (kind : SessionEventKind) : ∃ events : List SessionEvent,
      affected.map (fun q => healthReport kind (some q)) = events.map .session :=
    ⟨affected.map fun q => ⟨kind.code, Code.success, "", some q⟩, by rw [List.map_map]; rfl⟩
  cases health with
  | unhealthy =>
    obtain ⟨events, hevents⟩ := hmap .queueSuspended
    exact ⟨⟨SessionEventKind.hostUnhealthy.code, Code.success, "", none⟩ :: events, by
      rw [healthReports, hevents]
      rfl⟩
  | healthy =>
    obtain ⟨events, hevents⟩ := hmap .queueResumed
    exact ⟨events ++ [⟨SessionEventKind.hostHealthRestored.code, Code.success, "", none⟩], by
      rw [healthReports, hevents, List.map_append]
      rfl⟩

section

variable {P : {α : Type} → Act Stage α → Act Stage α → Prop} (hP : Act.Closed P)
  {host host' : HostCode Stage}

include hP

theorem closed_passAll {l : List NativeEvent}
    (hpass : ∀ e ∈ l, P (passOn host e) (passOn host' e)) :
    P (passAll host l) (passAll host' l) := by
  induction l with
  | nil => exact hP.done _
  | cons e rest ih =>
    apply hP.andThen (hpass e (List.mem_cons_self ..))
    exact fun _ => ih fun e he => hpass e (List.mem_cons_of_mem _ he)

theorem closed_healthChanged
    (hpass : ∀ e, P (passOn host (.session e)) (passOn host' (.session e))) {health : HealthState}
    (hnotes : P (ledgerUpdate (·.setHealth health)) (ledgerUpdate (·.setHealth health))) :
    P (healthChanged host health) (healthChanged host' health) := by
  apply hP.andThen hnotes
  intro affected
  apply hP.andThen (closed_native hP)
  intro n
  split
  · apply hP.inside
    apply closed_passAll hP
    intro e he
    obtain ⟨events, hevents⟩ := healthReports_eq health affected
    rw [hevents] at he
    obtain ⟨e, _, rfl⟩ := List.mem_map.mp he
    exact hpass e
  · exact hP.done _

end

section

variable {P : {α : Type} → Act Stage α → Act Stage α → Prop} (hP : Assembles P)
  {host host' : HostCode Stage}
  (hpass : ∀ e : MessageEvent, P (passOn host (.message e)) (passOn host' (.message e)))

include hP hpass

private theorem closed_playPush (batch : List ScriptedPush) :
    P (playPush host batch) (playPush host' batch) := by
  apply hP.andThen
  · apply closed_mapM hP.toClosed
    intro p _
    unfold pushMessage
    split
    · exact hP.fails _
    · apply hP.andThen (closed_openHandle hP.toServes _)
      exact fun _ => hP.done _
  · exact fun _ => hpass _

private theorem closed_playAcks (batch : List ScriptedAck) (posted : Option Correlation) :
    P (playAcks host batch posted) (playAcks host' batch posted) := by
  apply hP.andThen (closed_ackMessages hP.toServes posted batch)
  exact fun _ => hP.keeps _ (hpass _)

theorem closed_openQueue (uri : String) (flags : QueueFlags) (options : QueueOptions)
    (timeout : Duration) :
    P (openQueue host uri flags options timeout) (openQueue host' uri flags options timeout) := by
  apply hP.andThen (hP.checks _)
  intro _
  apply hP.andThen
  · exact hP.opens uri flags options
  intro status
  split
  · exact hP.done _
  apply hP.inside
  apply hP.andThen (hP.settles ..)
  intro code
  split
  · apply hP.andThen
    · exact hP.drops uri
    · exact fun _ => hP.done _
  · apply hP.andThen
    · exact hP.apart fun _ => ⟨rfl, rfl, rfl, rfl, rfl⟩
    intro batch
    split
    · apply hP.andThen (closed_playPush hP hpass _)
      exact fun _ => hP.done _
    · exact hP.done _

theorem closed_decidePost (call : NativeCall) (posted : MessageEvent) :
    P (decidePost host call posted) (decidePost host' call posted) := by
  apply hP.andThen (hP.settles ..)
  intro code
  apply hP.andThen
  · exact hP.apart fun _ => ⟨rfl, rfl, rfl, rfl, rfl⟩
  intro batch
  have hacks (batch : List ScriptedAck) :
      P (acknowledge host posted code batch) (acknowledge host' posted code batch) := by
    unfold acknowledge
    split
    · exact closed_playAcks hP hpass _ _
    · exact hP.keeps _ (closed_playAcks hP hpass _ _)
  cases batch with
  | some batch => exact hP.andThen (hacks batch) fun _ => hP.done _
  | none => exact hP.done _

theorem closed_post (hposts : ∀ e, P (modifyLedger (·.post e)) (modifyLedger (·.post e)))
    (htakes : P (ledgerUpdate (·.takePosted)) (ledgerUpdate (·.takePosted))) (e : MessageEvent) :
    P (post host e) (post host' e) := by
  apply hP.andThen (hP.checks _)
  intro _
  apply hP.andThen (hposts e)
  intro _
  apply hP.inside
  apply hP.andThen htakes
  intro posted
  cases posted with
  | none => exact hP.fails _
  | some posted => exact closed_decidePost hP hpass _ posted

theorem closed_plainCalls (hpost : ∀ e, P (post host e) (post host' e)) :
    (client host).PlainCalls P (client host') where
  openQueue := closed_openQueue hP hpass
  closeQueue := closed_closeQueue hP.toServes
  queue? := closed_queue? hP.toServes
  post := hpost
  confirm := closed_confirm hP.toServes
  builder := rfl
  queues := rfl

end

section

variable {P : {α : Type} → Act Stage α → Act Stage α → Prop} (hP : Builds P)

include hP

variable {host host' : HostCode Stage} (hcall : ∀ d, P (callHost host d) (callHost host' d))

include hcall

theorem closed_passOn (e : NativeEvent) : P (passOn host e) (passOn host' e) := by
  apply hP.andThen
  · exact hP.revise fun l => .enqueue e
  intro _
  apply hP.andThen
  · exact hP.update fun l => .takePending
  intro next
  cases next with
  | some e => exact hP.keeps _ (closed_tell hP.toClosed hcall e)
  | none => exact hP.fails _

private theorem closed_queueCalls : (client host).QueueCalls P (client host') where
  toPlainCalls := by
    have hpass (e : MessageEvent) := closed_passOn hP hcall (.message e)
    exact closed_plainCalls hP.toAssembles hpass <|
      closed_post hP.toAssembles hpass (fun e => hP.revise fun _ => .post e)
        (hP.update fun _ => .takePosted)
  configureQueue := closed_configureQueue hP.toServes
    (fun q options => hP.update fun _ => .configureQueue q options)
    fun q options => hP.revise fun _ => .resetOptions q options

theorem closed_calls (hstarted : P (modifyLedger (·.start)) (modifyLedger (·.start)))
    (hstopped : P (modifyLedger (·.stop)) (modifyLedger (·.stop))) :
    (client host).Calls P (client host') where
  toQueueCalls := closed_queueCalls hP hcall
  start := closed_start hP.toServes hstarted hstopped (closed_passOn hP hcall _)
  stop := closed_stop hP.toServes hstopped

end

theorem closed_setHealth {P : {α : Type} → Act Stage α → Act Stage α → Prop} (hP : Arranges P)
    {host host' : HostCode Stage} (hcall : ∀ d, P (callHost host d) (callHost host' d))
    (health : HealthState) : P (setHealth host health) (setHealth host' health) := by
  apply hP.andThen
  · exact hP.aside fun n => ⟨rfl, rfl, rfl, HealthMonitor.listeners_transition ..⟩
  intro listeners
  refine closed_forM hP.toClosed fun _ _ => ?_
  exact closed_healthChanged hP.toClosed (fun _ => closed_passOn hP.toBuilds hcall _)
    (hP.update fun _ => .setHealth health)

/-- A property of the parts of the client is one of what its session does with it. -/
theorem passes_client {P : {α : Type} → Act Stage α → Prop} (hP : Builds fun a _ => P a)
    {host : HostCode Stage} (hcall : ∀ d, P (callHost host d)) {s : Session Stage}
    (hs : s.client = client host)
    (hgate : ∀ {ε α : Type} (stopped : ε) {body : Session.Op Stage ε α}, P body.run →
      P (s.whileStarted stopped body).run) :
    s.Passes (fun a _ => P a) (fun a _ => P a) s.client where
  toQueueCalls := by
    rw [hs]
    exact closed_queueCalls hP hcall
  whileStarted stopped _ _ := hgate stopped

/-! ## Courses -/

structure Parts (R : Course Stage) : Prop where
  composes : R.Composes
  notes : R.Notes
  aside : ∀ {b : Bridge Stage} {n}, Aside b.native n → R none b { b with native := n }
  update : ∀ {b : Bridge Stage} {ledger}, b.native.ledger.Update ledger →
    R none b { b with native := { b.native with ledger } }
  observe : ∀ call, Follows R (observe call)

structure Carries (R : Course Stage) : Prop extends Parts R where
  leave : ∀ s : Session Stage, s.client.stop = stop → Follows R s.leave

structure CarriesLifecycle (R : Course Stage) : Prop where
  admits : R.Admits
  started : ∀ (b : Bridge Stage) started,
    R none b { b with native := { b.native with ledger := { b.native.ledger with started } } }

theorem follows_holding {R : Course Stage} (hR : R.Composes)
    (hflight : ∀ (b : Bridge Stage) inFlight,
      R none b { b with native := { b.native with inFlight } })
    (tokens : List Correlation) {body : Act Stage α} (h : Follows R body) :
    Follows R (holding tokens body) := by
  apply follows_bind hR
  · exact follows_modify fun b => hflight b _
  intro _
  exact follows_ensuring hR h (follows_modify fun b => hflight b _) (neverPanics_modify _)

section

variable {R : Course Stage} (hR : Parts R)

include hR

theorem Parts.arranges : Arranges fun a _ => Follows R a where
  toClosed := closed_follows hR.composes
  aside hf := follows_onNative fun b => hR.aside (hf b.native)
  arrange hf := follows_modify fun b => hR.aside (hf b.native)
  update hf := follows_onNative fun b => hR.update (hf b.native.ledger)
  revise hf := follows_modify fun b => hR.update (hf b.native.ledger)
  keeps tokens _ _ :=
    follows_holding hR.composes (fun _ _ => hR.aside ⟨rfl, rfl, rfl, rfl⟩) tokens
  checks := hR.observe

private theorem follows_stop (hlife : CarriesLifecycle R) : Follows R stop :=
  closed_stop hR.arranges.toServes (follows_modify fun b => hlife.started b false)

theorem Parts.carries (hlife : CarriesLifecycle R) : Carries R where
  toParts := hR
  leave s hs := by
    have hstop : Follows R s.client.stop := by
      rw [hs]
      exact follows_stop hR hlife
    exact Session.follows_leave hR.composes hlife.admits hstop

end

end Stage

/-! ## Programs -/

/-- Programs that use a session, set the host's health, and arrange what the client will do. They
catch no panics. Only some may start, stop and drop the session. -/
inductive Session.Program (s : Session Stage) (host : HostCode Stage) (lifecycle : Bool) :
    {α : Type} → Act Stage α → Prop where
  | done {α : Type} (x : α) : Program s host lifecycle (pure x)
  | andThen {α β : Type} {m : Act Stage α} {k : α → Act Stage β} :
      Program s host lifecycle m → (∀ x, Program s host lifecycle (k x)) →
        Program s host lifecycle (m >>= k)
  | operation {α : Type} {a : Act Stage α} : s.QueueOperation a → Program s host lifecycle a
  | isStarted : Program s host lifecycle Session.isStarted
  | setHealth (health : HealthState) : Program s host lifecycle (Stage.setHealth host health)
  | arrange {f : Stage → Stage} : (∀ n, Stage.Aside n (f n)) →
      (∀ n, (f n).inFlight = n.inFlight) → Program s host lifecycle (Act.modifyNative f)
  | giveUp {α : Type} (text : Option String) :
      Program s host lifecycle (Act.panic (.host text) : Act Stage α)
  | start (timeout : Option Duration) :
      lifecycle = true → Program s host lifecycle (s.start timeout).run
  | stop (warn : Bool) : lifecycle = true → Program s host lifecycle (s.stop warn).run
  | drop : lifecycle = true → Program s host lifecycle s.drop

/-- Host code whose callbacks are programs on a session, down to a depth that nobody looks into. -/
inductive HostCode.Layered (lifecycle : Bool) : HostCode Stage → Prop where
  | deepest : Layered lifecycle fun _ => throw .tooDeep
  | above {inner host : HostCode Stage} {s : Session Stage} : Layered lifecycle inner →
      s.client = Stage.client inner → (∀ d, s.Program inner lifecycle (host d)) →
        Layered lifecycle host

theorem HostCode.layered_ending {lifecycle : Bool} (outcome : DeliveryKind → HostOutcome) :
    HostCode.Layered lifecycle (.ending outcome) := by
  let s : Session Stage := ⟨Stage.client fun _ => throw .tooDeep, .ofSettings "" {}, .none, ""⟩
  have hs : s.client = Stage.client fun _ => throw .tooDeep := rfl
  exact .above .deepest hs fun d => .done (outcome d.kind)

/-- A property of the parts of a client, and of what its session does with its gate, is one of
every program on the session. -/
theorem Session.Program.closed {P : {α : Type} → Act Stage α → Prop}
    (hP : Stage.Arranges fun a _ => P a) {s : Session Stage} {host : HostCode Stage}
    {lifecycle : Bool} (hs : s.Passes (fun a _ => P a) (fun a _ => P a) s.client)
    (hhealth : ∀ health, P (Stage.setHealth host health))
    (hlife : lifecycle = true → (∀ timeout, P (s.start timeout).run) ∧
      (∀ warn, P (s.stop warn).run) ∧ P s.drop)
    {a : Act Stage α} (h : s.Program host lifecycle a) : P a := by
  induction h with
  | done x => exact hP.done x
  | @andThen _ _ m k _ _ ihm ihk => exact hP.andThen (n := m) (l := k) ihm ihk
  | operation h => exact Session.closed_queueOperation hP.toClosed hs h
  | isStarted => exact Session.paired_isStarted hP.toPaired
  | setHealth health => exact hhealth health
  | arrange hf _ => exact hP.arrange hf
  | giveUp text => exact hP.fails _
  | start timeout hl => exact (hlife hl).1 timeout
  | stop warn hl => exact (hlife hl).2.1 warn
  | drop hl => exact (hlife hl).2.2

section

open Act Stage

variable {R : Course Stage} (hR : Stage.Carries R) {lifecycle : Bool}
  (hlife : lifecycle = true → CarriesLifecycle R)

include hR hlife

private theorem Session.Program.follows {s : Session Stage} {host : HostCode Stage}
    (hs : s.client = Stage.client host) (hcall : ∀ d, Follows R (callHost host d))
    {a : Act Stage α}
    (h : s.Program host lifecycle a) : Follows R a := by
  have harranges := hR.toParts.arranges
  have hbuilds := harranges.toBuilds
  have hleave : Follows R s.leave := hR.leave s (by rw [hs]; rfl)
  have hstop (hl : lifecycle = true) : Follows R s.client.stop := by
    rw [hs]
    exact Stage.follows_stop hR.toParts (hlife hl)
  refine h.closed harranges (passes_client hbuilds hcall hs ?_) ?_ ?_
  · exact fun stopped _ hbody => Session.follows_whileStarted hR.composes hleave stopped hbody
  · exact @closed_setHealth _ harranges host host hcall
  · intro hl
    refine ⟨?_, ?_, ?_⟩
    · refine Session.follows_start hR.composes (hlife hl).admits fun timeout => ?_
      rw [hs]
      refine @Stage.closed_start _ hbuilds.toServes host host ?_ ?_ ?_ timeout
      · exact follows_modify fun b => (hlife hl).started b true
      · exact follows_modify fun b => (hlife hl).started b false
      · exact @closed_passOn _ hbuilds host host hcall _
    · exact Session.follows_stop hR.composes (hlife hl).admits (hstop hl)
    · exact Session.follows_drop hR.composes (hlife hl).admits (hstop hl) hR.notes

theorem HostCode.Layered.follows {host : HostCode Stage} (h : host.Layered lifecycle)
    (d : Delivery) : Follows R (host d) := by
  induction h generalizing d with
  | deepest => exact follows_throw hR.composes _
  | above _ hs hprogram ih =>
    -- the client of this layer calls the host code of the layer below
    have hcall d := follows_callHost hR.composes hR.notes (ih d)
    exact (hprogram d).follows hR hlife hs hcall

/-- A course of the parts of the client is one of every program on its session. -/
theorem Session.Program.follows_layered {s : Session Stage} {host : HostCode Stage}
    (hs : s.client = Stage.client host) (hhost : host.Layered lifecycle) {a : Act Stage α}
    (h : s.Program host lifecycle a) : Follows R a :=
  h.follows hR hlife hs fun d => follows_callHost hR.composes hR.notes (hhost.follows hR hlife d)

end

end BrokerBridge
