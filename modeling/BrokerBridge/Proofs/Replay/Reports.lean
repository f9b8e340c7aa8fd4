import BrokerBridge.Proofs.Replay.Hushed
import BrokerBridge.Proofs.Session.Outside

/-!
# Reports of suspension

The host is told that a queue is suspended or resumed when its own health changes, and only then:
in a run of calls, changes of health and arrangements, each turn tells it of the queues that are
concerned, and nothing else of suspensions.
-/

namespace BrokerBridge

open Act

namespace Stage

/-! ## Changes of health -/

def Hears (news : List Delivery) (b b' : Bridge Stage) : Prop :=
  b'.native.ledger = b.native.ledger ∧ b'.deliveries = b.deliveries ++ news

/-- What the host is to be told of suspensions when its health changes: each open queue whose
options ask for it, in the order they were opened in, if the client is started. -/
def announced (l : Ledger) (health : HealthState) : List (QueueHandle × Bool) :=
  if l.started ∧ l.health ≠ health then
    (l.openQueues.filter fun q => (l.table.options q).suspendsOnBadHostHealth).map
      fun q => (q, !health.isHealthy)
  else []

theorem announced_of_eq {l : Ledger} {health : HealthState} (h : l.health = health) :
    announced l health = [] :=
  if_neg fun hnew => hnew.2 h

private theorem announced_of_stopped {l : Ledger} (h : l.started = false) (health : HealthState) :
    announced l health = [] :=
  if_neg fun hnew => Bool.false_ne_true (h.symm.trans hnew.1)

private theorem announced_of_started {l : Ledger} (h : l.started = true) (health : HealthState) :
    announced l health = (l.setHealth health).1.map fun q => (q, !health.isHealthy) := by
  unfold announced Ledger.setHealth
  by_cases hnew : l.health = health
  · rw [if_neg fun h => h.2 hnew, if_pos hnew]
    rfl
  · rw [if_pos ⟨h, hnew⟩, if_neg hnew]

def addressed (reports : List (QueueHandle × Bool)) : List (String × Bool) :=
  reports.map fun r => (r.1.uri, r.2)

private theorem suspensions_healthReports (health : HealthState) (affected : List QueueHandle) :
    suspensions ((healthReports health affected).flatMap toldOf) =
      addressed (affected.map fun q => (q, !health.isHealthy)) := by
  have hqueues (kind : SessionEventKind) (flag : Bool)
      (htold : ∀ q, suspensions (toldOf (healthReport kind (some q))) = [(q.uri, flag)]) :
      suspensions ((affected.map fun q => healthReport kind (some q)).flatMap toldOf) =
        addressed (affected.map fun q => (q, flag)) := by
    induction affected with
    | nil => rfl
    | cons q rest ih =>
      rw [List.map_cons, List.flatMap_cons, suspensions_append, htold, ih]
      rfl
  cases health with
  | unhealthy => exact hqueues .queueSuspended true fun _ => rfl
  | healthy =>
    have htold := hqueues .queueResumed false fun _ => rfl
    rw [healthReports, List.flatMap_append, suspensions_append, htold]
    exact List.append_nil _

def NotesHealth (health : HealthState) (b b' : Bridge Stage) : Prop :=
  b'.native.ledger = (b.native.ledger.setHealth health).2 ∧
    ∃ new, b'.deliveries = b.deliveries ++ new ∧
      suspensions new = addressed (announced b.native.ledger health)

private theorem NotesHealth.again {health : HealthState} {b₁ b₂ b₃ : Bridge Stage}
    (h₁ : NotesHealth health b₁ b₂) (hhealth : b₂.native.ledger.health = health)
    (h₂ : NotesHealth health b₂ b₃) : NotesHealth health b₁ b₃ := by
  obtain ⟨hledger, new, hnew, hnews⟩ := h₁
  obtain ⟨hledger', new', hnew', hnews'⟩ := h₂
  rw [announced_of_eq hhealth] at hnews'
  rw [Ledger.setHealth, if_pos hhealth] at hledger'
  refine ⟨hledger'.trans hledger, new ++ new', ?_, ?_⟩
  · rw [hnew', hnew, List.append_assoc]
  · rw [suspensions_append, hnews, hnews']
    exact List.append_nil _

section

variable {host : HostCode Stage} (hhost : host.Detached)

include hhost

omit hhost in
/-- An event of the session that finds no other one waiting is told without fail. -/
theorem passOn_returns {e : SessionEvent} {b b' : Bridge Stage} {cause : Panic}
    (hpending : b.native.ledger.pending = []) :
    passOn host (.session e) b ≠ .error (.panic cause) b' := by
  rw [passOn_apply hpending]
  exact neverPanics_holding _ (neverPanics_tell host _) _ _ _

private theorem hears_passOn {e : SessionEvent} {b b' : Bridge Stage}
    (hpending : b.native.ledger.pending = []) {u : Unit}
    (h : passOn host (.session e) b = .ok u b') : Hears (toldOf (.session e)) b b' := by
  have htell : Within (Hears (toldOf (.session e))) (e.tell host) := by
    constructor
    · intro b x b' h
      obtain ⟨b₁, b₂, hin, hcall, hout⟩ := inHost_ok h
      have haloof := (callHost_detached hhost _).ok hcall
      refine ⟨?_, ?_⟩
      · rw [hout.native, haloof.ledger, hin.native]
      · rw [hout.deliveries, haloof.deliveries, hin.deliveries]
        rfl
    · intro b cause b' h
      exact absurd h (neverPanics_tell host (.session e) _ _ _)
  rw [passOn_apply hpending] at h
  exact (within_holding (fun _ _ h => h) htell).ok h

private theorem hears_passAll {l : List SessionEvent} {b b' : Bridge Stage}
    (hpending : b.native.ledger.pending = []) (h : (passAll host (l.map .session)).Ends b b') :
    Hears ((l.map .session).flatMap toldOf) b b' := by
  induction l generalizing b with
  | nil =>
    cases eq_of_ends_pure h
    exact ⟨rfl, (List.append_nil _).symm⟩
  | cons e rest ih =>
    rcases ends_of_bind h with ⟨_, b₁, hpass, hrest⟩ | ⟨cause, hpass⟩
    · obtain ⟨hledger, hnew⟩ := hears_passOn hhost hpending hpass
      obtain ⟨hledger', hnew'⟩ := ih (by rwa [hledger]) hrest
      refine ⟨hledger'.trans hledger, ?_⟩
      rw [hnew', hnew, List.append_assoc]
      rfl
    · exact absurd hpass (passOn_returns hpending)

/-- A client that is started tells the host of every queue concerned and of the change itself, in
order, and one that is not started tells nothing. -/
theorem healthChanged_hears {health : HealthState} {b b' : Bridge Stage}
    (hpending : b.native.ledger.pending = []) (h : (healthChanged host health).Ends b b') :
    b'.native.ledger = (b.native.ledger.setHealth health).2 ∧ b'.deliveries = b.deliveries ++
      if b.native.ledger.started then
        (healthReports health (b.native.ledger.setHealth health).1).flatMap toldOf
      else [] := by
  rw [Ends, healthChanged_apply] at h
  cases hstarted : b.native.ledger.started with
  | true =>
    rw [if_pos hstarted] at h
    obtain ⟨b₁, b₂, hin, hpass, hout⟩ := ends_of_inHost h
    obtain ⟨events, hevents⟩ := healthReports_eq health (b.native.ledger.setHealth health).1
    have hpending₁ : b₁.native.ledger.pending = [] := by
      rw [hin.native]
      exact (congrArg Prod.snd (b.native.ledger.buffers_setHealth health)).trans hpending
    rw [hevents] at hpass
    obtain ⟨hledger, hnew⟩ := hears_passAll hhost hpending₁ hpass
    constructor
    · rw [hout.native, hledger, hin.native]
    · rw [hout.deliveries, hnew, hin.deliveries, hevents, if_pos rfl]
  | false =>
    rw [if_neg (hstarted ▸ Bool.false_ne_true)] at h
    cases eq_of_ends_pure h
    exact ⟨rfl, (List.append_nil _).symm⟩

private theorem healthChanged_ends {health : HealthState} {b b' : Bridge Stage}
    (hpending : b.native.ledger.pending = []) (h : (healthChanged host health).Ends b b') :
    NotesHealth health b b' := by
  obtain ⟨hledger, hnew⟩ := healthChanged_hears hhost hpending h
  refine ⟨hledger, _, hnew, ?_⟩
  cases hstarted : b.native.ledger.started with
  | true =>
    rw [if_pos rfl, announced_of_started hstarted]
    exact suspensions_healthReports health _
  | false =>
    rw [if_neg Bool.false_ne_true, announced_of_stopped hstarted]
    rfl

private theorem healthChanged_all {health : HealthState} {listener : Nat × Unit}
    {rest : List (Nat × Unit)} {b b' : Bridge Stage} (hpending : b.native.ledger.pending = [])
    (h : ((listener :: rest).forM fun _ => healthChanged host health : Act Stage Unit).Ends b b') :
    NotesHealth health b b' := by
  induction rest generalizing listener b with
  | nil =>
    rcases ends_of_bind h with ⟨_, b₁, hfirst, hrest⟩ | ⟨cause, hfirst⟩
    · cases eq_of_ends_pure hrest
      exact healthChanged_ends hhost hpending (.inl ⟨_, hfirst⟩)
    · exact healthChanged_ends hhost hpending (.inr ⟨cause, hfirst⟩)
  | cons second rest ih =>
    rcases ends_of_bind h with ⟨_, b₁, hfirst, hrest⟩ | ⟨cause, hfirst⟩
    · have hnoted := healthChanged_ends hhost hpending (.inl ⟨_, hfirst⟩)
      have hhealth : b₁.native.ledger.health = health := by
        rw [hnoted.1]
        exact Ledger.health_setHealth _ health
      have hpending₁ : b₁.native.ledger.pending = [] := by
        rw [hnoted.1]
        exact (congrArg Prod.snd (b.native.ledger.buffers_setHealth health)).trans hpending
      exact hnoted.again hhealth (ih hpending₁ hrest)
    · exact healthChanged_ends hhost hpending (.inr ⟨cause, hfirst⟩)

/-- A change of the host's health is noted by the client that listens, once. -/
theorem setHealth_ends {health : HealthState} {b b' : Bridge Stage}
    (hpending : b.native.ledger.pending = []) (h : (setHealth host health).Ends b b') :
    b'.native.monitor = (b.native.monitor.transition health).2 ∧
      if (b.native.monitor.transition health).1 = [] then
        b'.native.ledger = b.native.ledger ∧ b'.deliveries = b.deliveries
      else NotesHealth health b b' := by
  let b₁ : Bridge Stage := { b with native :=
    { b.native with monitor := (b.native.monitor.transition health).2 } }
  have hlisteners : Ends ((b.native.monitor.transition health).1.forM fun _ =>
      healthChanged host health) b₁ b' := h
  have hmonitor : Unmoved b₁ b' :=
    (within_forM unmoved_frame fun _ _ => unmoved_healthChanged hhost health).ends hlisteners
  refine ⟨hmonitor, ?_⟩
  cases hcalled : (b.native.monitor.transition health).1 with
  | nil =>
    rw [hcalled] at hlisteners
    have hsame : b' = b₁ := eq_of_ends_pure hlisteners
    rw [if_pos rfl, hsame]
    exact ⟨rfl, rfl⟩
  | cons listener rest =>
    rw [hcalled] at hlisteners
    have hpending₁ : b₁.native.ledger.pending = [] := hpending
    rw [if_neg (List.cons_ne_nil listener rest)]
    have hnoted : NotesHealth health b₁ b' := healthChanged_all hhost hpending₁ hlisteners
    exact hnoted

end

end Stage

/-! ## Runs -/

namespace Session

def Call.configured? : {α : Type} → Call α → Option String
  | _, configureQueue uri .. => some uri
  | _, _ => none

inductive Deed where
  | call {α : Type} (call : Call α)
  | setHealth (health : HealthState)
  /-- What the client will do is arranged. -/
  | arrange

namespace Deed

def configured? : Deed → Option String
  | call c => c.configured?
  | _ => none

def health? : Deed → Option HealthState
  | setHealth health => some health
  | _ => none

def Ends (s : Session Stage) (host : HostCode Stage) (b b' : Bridge Stage) : Deed → Prop
  | call c => (c.run s).Ends b b'
  | setHealth health => (Stage.setHealth host health).Ends b b'
  | arrange => Stage.Apart b.native b'.native ∧ b'.deliveries = b.deliveries

end Deed

end Session

structure BooksTurn where
  deed : Session.Deed
  before : Ledger
  after : Ledger

namespace BooksTurn

/-- What the host is to be told of suspensions in a turn, by queue. -/
def reports (t : BooksTurn) : List (QueueHandle × Bool) :=
  Stage.announced t.before t.after.health

end BooksTurn

namespace Session

inductive Turns (s : Session Stage) (host : HostCode Stage) (b₀ : Bridge Stage) :
    List BooksTurn → Bridge Stage → Prop where
  | none : Turns s host b₀ [] b₀
  | next {turns : List BooksTurn} {b b' : Bridge Stage} {deed : Deed} :
      Turns s host b₀ turns b → deed.Ends s host b b' →
        Turns s host b₀ (turns ++ [⟨deed, b.native.ledger, b'.native.ledger⟩]) b'

end Session

def BooksTurn.Regular (t : BooksTurn) : Prop :=
  t.before.Grows t.after ∨
    (∃ uri, t.deed.configured? = some uri ∧ t.before.Configures uri t.after) ∨
    ∃ health, t.deed.health? = some health ∧ t.before.health ≠ health ∧
      t.after = (t.before.setHealth health).2

structure Session.Turned (deed : Deed) (b b' : Bridge Stage) : Prop where
  pending : b'.native.ledger.pending = []
  regular : BooksTurn.Regular ⟨deed, b.native.ledger, b'.native.ledger⟩
  told : ∃ new, b'.deliveries = b.deliveries ++ new ∧ suspensions new =
    Stage.addressed (BooksTurn.mk deed b.native.ledger b'.native.ledger).reports

namespace Session

private theorem Turned.of_grows {deed : Deed} {b b' : Bridge Stage}
    (hpending : b.native.ledger.pending = []) (h : Hushed Ledger.Grows b b') :
    Turned deed b b' := by
  obtain ⟨hpending', hledger, new, hnew, hquiet⟩ := h hpending
  refine ⟨hpending', .inl hledger, new, hnew, ?_⟩
  rw [hquiet, BooksTurn.reports, Stage.announced_of_eq hledger.health.symm]
  rfl

private theorem Turned.of_configures {deed : Deed} {uri : String} {b b' : Bridge Stage}
    (hpending : b.native.ledger.pending = []) (hdeed : deed.configured? = some uri)
    (h : Hushed (Ledger.Configures uri) b b') : Turned deed b b' := by
  obtain ⟨hpending', hledger, new, hnew, hquiet⟩ := h hpending
  refine ⟨hpending', .inr (.inl ⟨uri, hdeed, hledger⟩), new, hnew, ?_⟩
  rw [hquiet, BooksTurn.reports, Stage.announced_of_eq hledger.health.symm]
  rfl

section

variable {s : Session Stage} {host : HostCode Stage} (hs : s.client = Stage.client host)

include hs

private theorem hushed_stop {R : Ledger → Ledger → Prop} (hR : Ledger.Lenient R) :
    Follows (fun _ => Hushed R) s.client.stop := by
  rw [hs]
  exact Stage.hushed_stop hR

private theorem hushed_configureQueue (uri : String) (options : QueueOptions)
    (timeout : Option Duration) :
    Within (Hushed (Ledger.Configures uri)) (s.configureQueue uri options timeout).run := by
  have hthins := Ledger.lenient_thins
  have hqueue : Within (Hushed Ledger.Thins) (s.client.queue? uri) := by
    rw [hs]
    exact (Stage.closed_queue? (Stage.hushed_serves hthins) uri).within
  have haddress (q : QueueHandle) (b b' : Bridge Stage)
      (h : s.client.queue? uri b = .ok (some q) b') : q.uri = uri := by
    rw [hs] at h
    exact Stage.address_of_queue? h
  have hconfigure (q : QueueHandle) (options : QueueOptions) (timeout : Duration)
      (huri : q.uri = uri) :
      Within (Hushed (Ledger.Configures uri)) (s.client.configureQueue q options timeout) := by
    rw [hs, ← huri]
    exact Stage.hushed_configureQueue q options timeout
  exact within_configureQueue (hushed_frame hthins) (Stage.hushed_absorbs uri)
    (hushed_stop hs hthins).within hqueue haddress hconfigure options timeout

variable (hhost : host.Detached)

include hhost

private theorem hushed_call {α : Type} {call : Call α} (h : call.configured? = none) :
    Within (Hushed Ledger.Grows) (call.run s) := by
  have hgrows := Stage.hushed_grows
  have hstop := hushed_stop hs Ledger.lenient_grows
  have hleave := follows_leave hgrows.composes hgrows.admits hstop
  have hplain : s.PassesPlain (fun a _ => Follows (fun _ => Hushed Ledger.Grows) a)
      (fun a _ => Follows (fun _ => Hushed Ledger.Grows) a) s.client :=
    { toPlainCalls := by
        rw [hs]
        exact @Stage.closed_plainCalls _ Stage.hushed_assembles host host
          (Stage.hushed_passMessage hhost) (Stage.hushed_post hhost)
      whileStarted := fun stopped _ _ => follows_whileStarted hgrows.composes hleave stopped }
  have hparts := (closed_follows hgrows.composes).operates
  cases call with
  | start timeout =>
    refine (follows_start hgrows.composes hgrows.admits (fun timeout => ?_) timeout).within
    rw [hs]
    exact @Stage.closed_start _ (Stage.hushed_serves Ledger.lenient_grows) host host
      (Stage.hushed_marks Ledger.lenient_grows true) (Stage.hushed_marks Ledger.lenient_grows false)
      (Stage.hushed_passUnhealthy hhost) timeout
  | stop warn => exact within_stop hgrows hstop.within warn
  | openQueue => exact Follows.within (paired_openQueue hparts hplain ..)
  | configureQueue => cases h
  | closeQueue => exact Follows.within (paired_closeQueue hparts hplain ..)
  | queueOptions => exact Follows.within (paired_queueOptions hparts hplain ..)
  | post => exact Follows.within (paired_post hparts hplain ..)
  | confirm => exact Follows.within (paired_confirm hparts hplain ..)
  | drop => exact within_drop hgrows hstop.within

theorem Deed.turned {deed : Deed} {b b' : Bridge Stage} (hpending : b.native.ledger.pending = [])
    (h : deed.Ends s host b b') : Turned deed b b' := by
  have hsame (hledger : b'.native.ledger = b.native.ledger)
      (hdeliveries : b'.deliveries = b.deliveries) : Turned deed b b' := by
    refine .of_grows hpending (hushed_of_books hdeliveries (congrArg Ledger.pending hledger) ?_)
    rw [hledger]
    exact b.native.ledger.thins_refl.grows
  cases deed with
  | call call =>
    cases hconfigured : call.configured? with
    | none => exact .of_grows hpending ((hushed_call hs hhost hconfigured).ends h)
    | some uri =>
      refine .of_configures hpending hconfigured ?_
      cases call with
      | configureQueue _ options timeout =>
        cases hconfigured
        exact (hushed_configureQueue hs uri options timeout).ends h
      | _ => cases hconfigured
  | setHealth health =>
    obtain ⟨_, hnoted⟩ := Stage.setHealth_ends hhost hpending h
    split at hnoted
    · exact hsame hnoted.1 hnoted.2
    obtain ⟨hledger, new, hnew, htold⟩ := hnoted
    by_cases hhealth : b.native.ledger.health = health
    · rw [Stage.announced_of_eq hhealth] at htold
      rw [Ledger.setHealth, if_pos hhealth] at hledger
      refine .of_grows hpending fun hnone => ⟨?_, ?_, new, hnew, htold⟩
      · rw [hledger]
        exact hnone
      · rw [hledger]
        exact b.native.ledger.thins_refl.grows
    refine ⟨?_, .inr (.inr ⟨health, rfl, hhealth, hledger⟩), new, hnew, ?_⟩
    · rw [hledger]
      exact (congrArg Prod.snd (b.native.ledger.buffers_setHealth health)).trans hpending
    · rw [htold, BooksTurn.reports, hledger, Ledger.health_setHealth]
  | arrange => exact hsame h.1.ledger h.2

end

/-! ## Following the host's health -/

theorem unmoved_call {s : Session Stage} {host : HostCode Stage}
    (hs : s.client = Stage.client host) (hhost : host.Detached) {α : Type} (call : Call α) :
    Within Unmoved (call.run s) := by
  have hclient : NativeClient.Within Unmoved s.client := by
    rw [hs]
    exact Stage.unmoved_client hhost
  have hoperation {a : Act Stage α} (h : s.QueueOperation a) : Within Unmoved a :=
    within_queueOperation unmoved_frame hclient h
  cases call with
  | start timeout => exact within_start unmoved_frame hclient timeout
  | stop warn => exact within_stop unmoved_frame hclient.stop warn
  | openQueue => exact hoperation (.openQueue ..)
  | configureQueue => exact hoperation (.configureQueue ..)
  | closeQueue => exact hoperation (.closeQueue ..)
  | queueOptions => exact hoperation (.queueOptions ..)
  | post => exact hoperation (.post ..)
  | confirm => exact hoperation (.confirm ..)
  | drop => exact within_drop unmoved_frame hclient.stop

/-- The client listens to the host's health, and its books say what that is. -/
structure Attentive (b : Bridge Stage) : Prop where
  listens : b.native.monitor.listeners ≠ []
  health : b.native.ledger.health = b.native.monitor.state

/-- A turn that is no change of the host's health leaves what is known of it. -/
theorem health_of_regular {t : BooksTurn} (h : t.Regular) (hdeed : t.deed.health? = none) :
    t.after.health = t.before.health := by
  rcases h with hgrows | ⟨_, _, hconfigures⟩ | ⟨_, hset, _⟩
  · exact hgrows.health
  · exact hconfigures.health
  · rw [hdeed] at hset
    cases hset

section

variable {s : Session Stage} {host : HostCode Stage} (hs : s.client = Stage.client host)
  (hhost : host.Detached)

include hs hhost

private theorem Attentive.turned {deed : Deed} {b b' : Bridge Stage} (hb : Attentive b)
    (hpending : b.native.ledger.pending = []) (h : deed.Ends s host b b') :
    Attentive b' ∧ b'.native.ledger.health = deed.health?.getD b.native.ledger.health := by
  have hregular := (Deed.turned hs hhost hpending h).regular
  have hsame (hmonitor : Unmoved b b') (hdeed : deed.health? = none) :
      Attentive b' ∧ b'.native.ledger.health = deed.health?.getD b.native.ledger.health := by
    have hhealth : b'.native.ledger.health = b.native.ledger.health :=
      health_of_regular hregular hdeed
    rw [hdeed]
    refine ⟨⟨?_, ?_⟩, hhealth⟩
    · rw [hmonitor]
      exact hb.listens
    · rw [hmonitor, hhealth]
      exact hb.health
  cases deed with
  | call call => exact hsame ((unmoved_call hs hhost call).ends h) rfl
  | arrange => exact hsame h.1.monitor rfl
  | setHealth health =>
    obtain ⟨hmonitor, hnoted⟩ := Stage.setHealth_ends hhost hpending h
    have hhealth : b'.native.ledger.health = health := by
      split at hnoted
      · next hcalled =>
        -- the change was none, since somebody listens
        rw [hnoted.1, hb.health]
        unfold HealthMonitor.transition at hcalled
        split at hcalled
        · assumption
        · exact absurd hcalled hb.listens
      · rw [hnoted.1, Ledger.health_setHealth]
    refine ⟨⟨?_, ?_⟩, hhealth⟩
    · rw [hmonitor, HealthMonitor.listeners_transition]
      exact hb.listens
    · rw [hmonitor, HealthMonitor.state_transition, hhealth]

end

/-! ## Reports by turns -/

/-- What the reports rest on: no event waits, and every open queue has a place of its own in the
table. -/
structure Orderly (b : Bridge Stage) : Prop where
  pending : b.native.ledger.pending = []
  known : b.native.ledger.Known
  distinct : b.native.ledger.Distinct

theorem Orderly.of_empty {b : Bridge Stage} (hpending : b.native.ledger.pending = [])
    (hqueues : b.native.ledger.openQueues = []) : Orderly b := by
  refine ⟨hpending, ?_, ?_⟩
  · rw [Ledger.Known, hqueues]
    exact nofun
  · rw [Ledger.Distinct, hqueues]
    exact .nil

/-- A new client has empty books, and follows the host's health if there is a monitor of it. -/
theorem create_ok {options : ClientOptions} {b b' : Bridge Stage} {u : Unit}
    (h : Stage.create options b = .ok u b') : Orderly b' ∧ b'.native.ledger.openQueues = [] ∧
      (options.hasMonitor = true → Attentive b') := by
  obtain ⟨_, b₁, _, h⟩ := bind_eq_ok.mp h
  obtain ⟨_, b₂, hempty, h⟩ := bind_eq_ok.mp h
  cases hempty
  cases hmonitor : options.hasMonitor with
  | false =>
    rw [hmonitor] at h
    cases h
    exact ⟨.of_empty rfl rfl, rfl, fun h => absurd h Bool.false_ne_true⟩
  | true =>
    rw [hmonitor] at h
    have hledger : b'.native.ledger = (({} : Ledger).setHealth b₁.native.monitor.state).2 := by
      cases h
      rfl
    have hwatched : b'.native.monitor = (b₁.native.monitor.subscribe ()).2 := by
      cases h
      rfl
    have hqueues : b'.native.ledger.openQueues = [] := by
      rw [hledger, Ledger.openQueues_setHealth]
    have hpending : b'.native.ledger.pending = [] := by
      rw [hledger]
      exact congrArg Prod.snd (Ledger.buffers_setHealth ..)
    refine ⟨.of_empty hpending hqueues, hqueues, fun _ => ⟨?_, ?_⟩⟩
    · rw [hwatched]
      exact List.concat_ne_nil _ _
    · rw [hledger, hwatched, Ledger.health_setHealth]
      rfl

private theorem Orderly.turned {deed : Deed} {b b' : Bridge Stage} (hb : Orderly b)
    (h : Turned deed b b') : Orderly b' := by
  have hproceeds (hl : b.native.ledger.Proceeds b'.native.ledger) : Orderly b' := by
    refine ⟨h.pending, fun q hq => ?_, hl.distinct hb.known hb.distinct⟩
    rcases hl.openQueues q hq with hopen | ⟨_, hlt, _⟩
    · exact Nat.lt_of_lt_of_le (hb.known q hopen) hl.length
    · exact hlt
  rcases h.regular with hgrows | ⟨_, _, hconfigures⟩ | ⟨health, _, _, hledger⟩
  · exact hproceeds hgrows.proceeds
  · exact hproceeds hconfigures.proceeds
  · have hledger : b'.native.ledger = (b.native.ledger.setHealth health).2 := hledger
    refine ⟨h.pending, ?_, ?_⟩
    · rw [hledger]
      exact hb.known.update (.setHealth health)
    · rw [Ledger.Distinct, hledger, Ledger.openQueues_setHealth]
      exact hb.distinct

section

variable {s : Session Stage} {host : HostCode Stage} (hs : s.client = Stage.client host)
  (hhost : host.Detached)

include hs hhost

theorem Turns.orderly {b₀ b : Bridge Stage} {turns : List BooksTurn} (hb₀ : Orderly b₀)
    (h : s.Turns host b₀ turns b) : Orderly b := by
  induction h with
  | none => exact hb₀
  | next _ hdeed ih => exact ih.turned (Deed.turned hs hhost ih.pending hdeed)

theorem Turns.regular {b₀ b : Bridge Stage} {turns : List BooksTurn} (hb₀ : Orderly b₀)
    (h : s.Turns host b₀ turns b) :
    ∀ t ∈ turns, t.Regular ∧ t.before.Known ∧ t.before.Distinct := by
  induction h with
  | none => exact fun _ ht => absurd ht List.not_mem_nil
  | next hrun hdeed ih =>
    have hb := hrun.orderly hs hhost hb₀
    intro t ht
    rcases List.mem_append.mp ht with ht | ht
    · exact ih t ht
    · rw [List.mem_singleton.mp ht]
      exact ⟨(Deed.turned hs hhost hb.pending hdeed).regular, hb.known, hb.distinct⟩

/-- The books keep up with the host's health in every turn. -/
theorem Turns.attentive {b₀ b : Bridge Stage} {turns : List BooksTurn} (hb₀ : Orderly b₀)
    (hattentive : Attentive b₀) (h : s.Turns host b₀ turns b) :
    Attentive b ∧ ∀ t ∈ turns, t.after.health = t.deed.health?.getD t.before.health := by
  induction h with
  | none => exact ⟨hattentive, fun _ ht => absurd ht List.not_mem_nil⟩
  | next hrun hdeed ih =>
    obtain ⟨hb, hkept⟩ := ih
    have hpending := (hrun.orderly hs hhost hb₀).pending
    obtain ⟨hb', hhealth⟩ := hb.turned hs hhost hpending hdeed
    refine ⟨hb', fun t ht => ?_⟩
    rcases List.mem_append.mp ht with ht | ht
    · exact hkept t ht
    · rw [List.mem_singleton.mp ht]
      exact hhealth

/-- What the host was told in a run is what it was to be told in each turn. -/
theorem Turns.told {b₀ b : Bridge Stage} {turns : List BooksTurn} (hb₀ : Orderly b₀)
    (h : s.Turns host b₀ turns b) : ∃ new, b.deliveries = b₀.deliveries ++ new ∧
      suspensions new = Stage.addressed (turns.flatMap (·.reports)) := by
  induction h with
  | none => exact ⟨[], (List.append_nil _).symm, rfl⟩
  | next hrun hdeed ih =>
    obtain ⟨new, hnew, htold⟩ := ih
    obtain ⟨more, hmore, hsaid⟩ :=
      (Deed.turned hs hhost (hrun.orderly hs hhost hb₀).pending hdeed).told
    refine ⟨new ++ more, ?_, ?_⟩
    · rw [hmore, hnew, List.append_assoc]
    · rw [suspensions_append, htold, hsaid, List.flatMap_append, Stage.addressed,
        Stage.addressed, Stage.addressed, ← List.map_append, List.flatMap_singleton]

end

end Session

end BrokerBridge
