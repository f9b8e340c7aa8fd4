import BrokerBridge.Proofs.Replay.AfterStop

/-!
# Reports of the host's health

A client that follows the host's health knows it after every call. The host is told of each change
while the client is started, with the queues that are concerned in the order they were opened in,
and of bad health when a start is accepted. Of no other call does it hear any event of the session.
-/

namespace BrokerBridge

open Act

namespace Ledger

/-! ## The order of open queues -/

structure Listed (l : Ledger) : Prop where
  pending : l.pending = []
  known : l.Known
  opened : (l.openQueues.map (·.id)).Pairwise (· < ·)

namespace Listed

variable {l l' : Ledger}

theorem of_empty (hpending : l.pending = []) (hqueues : l.openQueues = []) : l.Listed := by
  refine ⟨hpending, ?_, ?_⟩
  · rw [Known, hqueues]
    exact fun _ hq => absurd hq List.not_mem_nil
  · rw [hqueues]
    exact .nil

private theorem of_sublist (h : l.Listed) (hpending : l'.pending = l.pending)
    (hqueues : l'.openQueues.Sublist l.openQueues)
    (hlength : l.table.states.length ≤ l'.table.states.length) : l'.Listed where
  pending := hpending.trans h.pending
  known := h.known.of_length (fun _ hq => hqueues.subset hq) hlength
  opened := h.opened.sublist (hqueues.map _)

private theorem of_thins (h : l.Listed) (hbuffers : l'.buffers = l.buffers) (hthins : l.Thins l') :
    l'.Listed :=
  h.of_sublist (congrArg Prod.snd hbuffers) hthins.openQueues hthins.length

private theorem openQueue (h : l.Listed) (uri : String) (flags : QueueFlags)
    (options : QueueOptions) :
    (l.openQueue uri flags options).2.Listed := by
  refine ⟨(congrArg Prod.snd (buffers_openQueue ..)).trans h.pending,
    h.known.update (.openQueue uri flags options), ?_⟩
  unfold Ledger.openQueue
  split
  · exact h.opened
  · show ((l.openQueues ++ [(l.table.create uri flags options).1]).map (·.id)).Pairwise _
    rw [List.map_append]
    refine List.pairwise_append.mpr ⟨h.opened, List.pairwise_singleton .., ?_⟩
    intro i hi j hj
    obtain ⟨q, hq, rfl⟩ := List.mem_map.mp hi
    rw [List.mem_singleton.mp hj]
    exact h.known q hq

private theorem configureQueue (h : l.Listed) (q : QueueHandle) (options : QueueOptions) :
    (l.configureQueue q options).2.Listed := by
  refine h.of_sublist (congrArg Prod.snd (buffers_configureQueue ..)) ?_ ?_
  · rw [openQueues_configureQueue]
  · rw [length_configureQueue]

private theorem resetOptions (h : l.Listed) (q : QueueHandle) (options : QueueOptions) :
    (l.resetOptions q options).Listed :=
  h.of_sublist rfl (.refl _) (Nat.le_of_eq (QueueTable.length_modify ..).symm)

private theorem setHealth (h : l.Listed) (health : HealthState) :
    (l.setHealth health).2.Listed := by
  refine h.of_sublist (congrArg Prod.snd (buffers_setHealth ..)) ?_ ?_
  · rw [openQueues_setHealth]
  · rw [length_setHealth]

end Listed

end Ledger

/-! ## What calls tell of the session -/

/-- Where no event waits and the queues are in order, they stay so, and the host is told this of
the session and nothing else. -/
def Tells (news : List Delivery) (b b' : Bridge Stage) : Prop :=
  b.native.ledger.Listed → b'.native.ledger.Listed ∧
    sessionNews b'.deliveries = sessionNews b.deliveries ++ news

namespace Tells

private theorem of_books {b b' : Bridge Stage} (hdeliveries : b'.deliveries = b.deliveries)
    (hledger : b.native.ledger.Listed → b'.native.ledger.Listed) : Tells [] b b' :=
  fun h => ⟨hledger h, by rw [hdeliveries, List.append_nil]⟩

private theorem comp {news more : List Delivery} {b₁ b₂ b₃ : Bridge Stage} (h₁ : Tells news b₁ b₂)
    (h₂ : Tells more b₂ b₃) : Tells (news ++ more) b₁ b₃ := by
  intro h
  obtain ⟨hlisted₂, hnews₂⟩ := h₁ h
  obtain ⟨hlisted₃, hnews₃⟩ := h₂ hlisted₂
  exact ⟨hlisted₃, by rw [hnews₃, hnews₂, List.append_assoc]⟩

private theorem between {news : List Delivery} {b₁ b₂ b₃ b₄ : Bridge Stage}
    (hbefore : Tells [] b₁ b₂)
    (h : Tells news b₂ b₃) (hafter : Tells [] b₃ b₄) : Tells news b₁ b₄ := by
  have hall := (hbefore.comp h).comp hafter
  rwa [List.nil_append, List.append_nil] at hall

end Tells

private theorem Aloof.tells {b b' : Bridge Stage} (h : Aloof b b') : Tells [] b b' := by
  refine .of_books h.deliveries ?_
  rw [h.ledger]
  exact id

private theorem tells_frame : Frame (Tells []) where
  same hn hd := (aloof_frame.same hn hd).tells
  trans := Tells.comp

private theorem Alike.tells {b b' : Bridge Stage} (h : Alike b b') : Tells [] b b' :=
  tells_frame.same h.native h.deliveries

namespace Stage

private theorem tells_assembles : Assembles fun a _ => Follows (fun _ => Tells []) a where
  toClosed := closed_follows tells_frame.composes
  checks _ := follows_observe fun _ _ _ => .of_books rfl id
  closes q := follows_onNative fun _ => .of_books rfl fun h =>
    h.of_thins (Ledger.buffers_closeQueue ..) (Ledger.thins_closeQueue _ q)
  apart hf := follows_onNative fun b =>
    Aloof.tells ⟨(hf b.native).ledger, (hf b.native).monitor, rfl⟩
  opens uri flags options := follows_onNative fun _ =>
    .of_books rfl fun h => h.openQueue uri flags options
  drops uri := follows_modify fun _ => .of_books rfl fun h =>
    h.of_thins (Ledger.buffers_dropQueue ..) (Ledger.thins_dropQueue _ uri)
  keeps tokens _ _ h :=
    follows_holding tells_frame.composes (fun _ _ => Aloof.tells ⟨rfl, rfl, rfl⟩) tokens h

private theorem tells_marks (started : Bool) :
    Follows (fun _ => Tells []) (modifyLedger ({ · with started })) :=
  follows_modify fun _ => .of_books rfl fun h => ⟨h.pending, h.known, h.opened⟩

private theorem tells_stop : Follows (fun _ => Tells []) stop :=
  closed_stop tells_assembles.toServes (tells_marks false)

private theorem tells_configureQueue (q : QueueHandle) (options : QueueOptions)
    (timeout : Duration) :
    Within (Tells []) (configureQueue q options timeout) := by
  refine Follows.within (closed_configureQueue tells_assembles.toServes ?_ ?_ q options timeout)
  · exact fun q options => follows_onNative fun _ =>
      .of_books rfl fun h => h.configureQueue q options
  · exact fun q options => follows_modify fun _ => .of_books rfl fun h => h.resetOptions q options

private theorem tells_passOn {host : HostCode Stage} {news : List Delivery} {e : NativeEvent}
    (htell : Within (Tells news) (e.tell host)) : Within (Tells news) (passOn host e) := by
  have hheld : Within (Tells news) (holding (tokensOf e) (e.tell host)) := by
    refine within_holding (fun b b₁ h => ?_) htell
    have hbefore : Tells [] b { b with native :=
        { b.native with inFlight := tokensOf e ++ b.native.inFlight } } :=
      Aloof.tells ⟨rfl, rfl, rfl⟩
    exact hbefore.between h (Aloof.tells ⟨rfl, rfl, rfl⟩)
  constructor
  · intro b x b' h hlisted
    rw [passOn_apply hlisted.pending] at h
    exact hheld.ok h hlisted
  · intro b cause b' h hlisted
    rw [passOn_apply hlisted.pending] at h
    exact hheld.panic h hlisted

section

variable {host : HostCode Stage} (hhost : host.Detached)

include hhost

private theorem tells_callHost (d : Delivery) : Within (Tells (sessionNews [d]))
    (callHost host d) := by
  refine (callHost_detached hhost d).mono fun b b' h hlisted => ⟨?_, ?_⟩
  · rw [h.ledger]
    exact hlisted
  · rw [h.deliveries]
    exact sessionNews_append ..

private theorem tells_passMessage (e : MessageEvent) :
    Follows (fun _ => Tells []) (passOn host (.message e)) := by
  refine (tells_passOn (Follows.within ?_)).follows
  refine @closed_tellMessage _ _ (closed_follows tells_frame.composes) host host
    (fun d hd => ?_) e
  have hcall := tells_callHost hhost d
  have hnone : sessionNews [d] = [] := List.filter_cons_of_neg (ne_true_of_eq_false hd)
  rw [hnone] at hcall
  exact hcall.follows

private theorem tells_report (e : SessionEvent) :
    Within (Tells (toldOf (.session e))) (passOn host (.session e)) := by
  have hcall := tells_callHost hhost (.notification (.event (.ofEvent e)))
  exact tells_passOn (within_inHost_between tells_frame Tells.between hcall)

private theorem tells_post (e : MessageEvent) : Follows (fun _ => Tells []) (post host e) := by
  refine @closed_post _ tells_assembles host host (tells_passMessage hhost) ?_ ?_ e
  · exact fun e => follows_modify fun _ => .of_books rfl fun h => ⟨h.pending, h.known, h.opened⟩
  · exact follows_onNative fun _ => .of_books rfl fun h => ⟨h.pending, h.known, h.opened⟩

/-! ### Starting -/

def startNews (health : HealthState) : Except Panic Int → List Delivery
  | .ok code =>
      if code = Code.success ∧ health = .unhealthy then toldOf (healthReport .hostUnhealthy none)
      else []
  | .error _ => []

omit hhost in
private theorem startNews_of_rejected {code : Int} (h : code ≠ Code.success)
    (health : HealthState) :
    startNews health (.ok code) = [] :=
  if_neg fun haccepted => h haccepted.1

private theorem startChecked_tells {timeout : Duration} {r : Except Panic Int} {b b' : Bridge Stage}
    (hlisted : b.native.ledger.Listed) (h : (startChecked host timeout).EndsIn r b b') :
    Tells (startNews b.native.ledger.health r) b b' := by
  obtain ⟨_, b₁, hmark, h⟩ := endsIn_of_bind_quiet (neverPanics_modify _) h
  have hmarked := (tells_marks true).ok hmark
  obtain ⟨b₂, b₃, hin, h, hout⟩ := endsIn_of_inHost h
  obtain ⟨code, b₄, hsettle, h⟩ := endsIn_of_bind_quiet (neverPanics_onNative _) h
  have hsettled := (tells_assembles.settles (.start timeout) (·.start)).ok hsettle
  have hbefore : Tells [] b b₄ := tells_frame.trans (tells_frame.trans hmarked hin.tells) hsettled
  have hhealth : b₄.native.ledger.health = b.native.ledger.health := by
    rw [(settle_ok hsettle).2, hin.native]
    cases hmark
    rfl
  refine hbefore.between ?_ hout.tells
  split at h
  · next hrejected =>
    obtain ⟨_, b₅, hstop, h⟩ := endsIn_of_bind_quiet (neverPanics_modify _) h
    obtain ⟨rfl, rfl⟩ := endsIn_pure h
    rw [startNews_of_rejected hrejected]
    exact (tells_marks false).ok hstop
  · next haccepted =>
    have haccepted : code = Code.success := not_not.mp haccepted
    have hpending : b₄.native.ledger.pending = [] := (hbefore hlisted).1.pending
    obtain ⟨n, b₅, hnative, h⟩ :=
      endsIn_of_bind_quiet (neverPanics_bind neverPanics_get fun _ => neverPanics_pure _) h
    cases hnative
    rw [hhealth] at h
    cases hknown : b.native.ledger.health with
    | healthy =>
      rw [hknown] at h
      obtain ⟨rfl, rfl⟩ := endsIn_pure h
      exact tells_frame.same rfl rfl
    | unhealthy =>
      rw [hknown] at h
      rcases endsIn_of_bind h with ⟨_, b₆, hpass, h⟩ | ⟨cause, _, hpass⟩
      · obtain ⟨rfl, rfl⟩ := endsIn_pure h
        exact (tells_report hhost _).ok hpass
      · exact absurd hpass (passOn_returns hpending)

private theorem start_tells {timeout : Duration} {r : Except Panic Int} {b b' : Bridge Stage}
    (h : (start host timeout).EndsIn r b b') : Tells (startNews b.native.ledger.health r) b b' := by
  have hobserved {r : Except Panic Unit} {b₁ : Bridge Stage}
      (h : (observe (.start timeout)).EndsIn r b b₁) :
      Tells [] b b₁ ∧ b₁.native.ledger = b.native.ledger :=
    ⟨(tells_assembles.checks _).within.ends h.ends, (starts_of_observe h.ends).1⟩
  intro hlisted
  rw [start_eq] at h
  rcases endsIn_of_bind h with ⟨_, b₁, hobserve, h⟩ | ⟨cause, rfl, hobserve⟩
  · obtain ⟨hbefore, hledger⟩ := hobserved (r := .ok _) hobserve
    have hchecked := startChecked_tells hhost (hbefore hlisted).1 h
    rw [hledger] at hchecked
    exact (hbefore.comp hchecked) hlisted
  · exact (hobserved (r := .error cause) hobserve).1 hlisted

end

end Stage

namespace Session

/-! ### Calls of a session -/

/-- What a call tells the host of the session, by the host's health and the way it ends: only a
start that is accepted tells it anything, and that of bad health. -/
def Call.news : {α : Type} → Call α → HealthState → Except Panic α → List Delivery
  | _, start _, .unhealthy, .ok (.ok ()) => Stage.toldOf (Stage.healthReport .hostUnhealthy none)
  | _, _, _, _ => []

section

variable {s : Session Stage} {host : HostCode Stage} (hs : s.client = Stage.client host)

include hs

private theorem tells_stop : Follows (fun _ => Tells []) s.client.stop := by
  rw [hs]
  exact Stage.tells_stop

private theorem tells_configureQueue (uri : String) (options : QueueOptions)
    (timeout : Option Duration) :
    Within (Tells []) (s.configureQueue uri options timeout).run := by
  have hqueue : Within (Tells []) (s.client.queue? uri) := by
    rw [hs]
    exact (Stage.closed_queue? Stage.tells_assembles.toServes uri).within
  have haddress (q : QueueHandle) (b b' : Bridge Stage)
      (h : s.client.queue? uri b = .ok (some q) b') : q.uri = uri := by
    rw [hs] at h
    exact Stage.address_of_queue? h
  have hconfigure (q : QueueHandle) (options : QueueOptions) (timeout : Duration)
      (_ : q.uri = uri) : Within (Tells []) (s.client.configureQueue q options timeout) := by
    rw [hs]
    exact Stage.tells_configureQueue q options timeout
  exact within_configureQueue tells_frame tells_frame.absorbs (tells_stop hs).within hqueue
    haddress hconfigure options timeout

variable (hhost : host.Detached)

include hhost

private theorem start_tells {timeout : Option Duration}
    {r : Except Panic (Except SessionError Unit)}
    {b b' : Bridge Stage} (h : (s.start timeout).run.EndsIn r b b') :
    Tells ((Call.start timeout).news b.native.ledger.health r) b b' := by
  have hclient {r : Except Panic Int} {b b' : Bridge Stage}
      (h : (s.client.start (timeout.getD s.options.timeouts.connect)).EndsIn r b b') :
      Tells (Stage.startNews b.native.ledger.health r) b b' := by
    rw [hs] at h
    exact Stage.start_tells hhost h
  have hnews (e : SessionError) (health : HealthState) :
      (Call.start timeout).news health (.ok (.error e)) = [] := by cases health <;> rfl
  have hpanic (cause : Panic) (health : HealthState) :
      (Call.start timeout).news health (.error cause) = [] := by cases health <;> rfl
  rcases endsIn_of_opBind_op h with ⟨code, b₁, hrun, hdecided⟩ | ⟨cause, rfl, hrun⟩
  · obtain ⟨b₂, b₃, hin, hrun, hout⟩ := outsideHost_ok hrun
    obtain ⟨code', b₄, hstart, hrun⟩ := bind_eq_ok.mp hrun
    have htold := hclient (r := .ok code') hstart
    rw [hin.native] at htold
    split at hrun
    · next haccepted =>
      obtain ⟨_, b₅, hchange, hrun⟩ := bind_eq_ok.mp hrun
      cases hrun
      obtain ⟨_, _, rfl⟩ := eq_of_changeStarted hchange
      rw [if_neg (not_not_intro haccepted)] at hdecided
      obtain ⟨rfl, rfl⟩ := endsIn_pure hdecided
      have hnews : Stage.startNews b.native.ledger.health (.ok code) =
          (Call.start timeout).news b.native.ledger.health (.ok (.ok ())) := by
        cases b.native.ledger.health
        · exact if_neg nofun
        · exact if_pos ⟨haccepted, rfl⟩
      rw [← hnews]
      exact hin.tells.between htold (tells_frame.trans (tells_frame.same rfl rfl) hout.tells)
    · next hrejected =>
      cases hrun
      rw [if_pos hrejected] at hdecided
      obtain ⟨rfl, rfl⟩ := endsIn_pure hdecided
      rw [Stage.startNews_of_rejected hrejected] at htold
      rw [hnews]
      exact hin.tells.between htold hout.tells
  · obtain ⟨b₂, b₃, hin, hrun, hout⟩ := endsIn_of_outsideHost (r := .error cause) hrun
    rw [hpanic]
    rcases endsIn_of_bind hrun with ⟨code', b₄, hstart, hrun⟩ | ⟨cause, _, hstart⟩
    · split at hrun
      · rcases endsIn_of_bind hrun with ⟨_, _, _, hrun⟩ | ⟨cause, _, hchange⟩
        · cases (endsIn_pure hrun).1
        · exact absurd hchange (neverPanics_changeStarted _ _ _ _)
      · cases (endsIn_pure hrun).1
    · exact hin.tells.between (hclient (r := .error cause) hstart) hout.tells

private theorem call_tells {α : Type} {call : Call α} {r : Except Panic α} {b b' : Bridge Stage}
    (h : (call.run s).EndsIn r b b') : Tells (call.news b.native.ledger.health r) b b' := by
  have hleave := follows_leave tells_frame.composes tells_frame.admits (tells_stop hs)
  have hplain : s.PassesPlain (fun a _ => Follows (fun _ => Tells []) a)
      (fun a _ => Follows (fun _ => Tells []) a) s.client :=
    { toPlainCalls := by
        rw [hs]
        exact @Stage.closed_plainCalls _ Stage.tells_assembles host host
          (Stage.tells_passMessage hhost) (Stage.tells_post hhost)
      whileStarted := fun stopped _ _ => follows_whileStarted tells_frame.composes hleave stopped }
  have hparts := (closed_follows tells_frame.composes).operates
  have hquiet (hcall : Within (Tells []) (call.run s)) : Tells [] b b' := hcall.ends h.ends
  cases call with
  | start timeout => exact start_tells hs hhost h
  | stop warn => exact hquiet (within_stop tells_frame (tells_stop hs).within warn)
  | openQueue => exact hquiet (Follows.within (paired_openQueue hparts hplain ..))
  | configureQueue => exact hquiet (tells_configureQueue hs ..)
  | closeQueue => exact hquiet (Follows.within (paired_closeQueue hparts hplain ..))
  | queueOptions => exact hquiet (Follows.within (paired_queueOptions hparts hplain ..))
  | post => exact hquiet (Follows.within (paired_post hparts hplain ..))
  | confirm => exact hquiet (Follows.within (paired_confirm hparts hplain ..))
  | drop => exact hquiet (within_drop tells_frame (tells_stop hs).within)

end

end Session

/-! ## Changes of health -/

/-- Something else that listens to the host's health and does not use the session or the monitor. -/
structure Onlooker where
  hear : HealthState → Act Stage Unit
  aloof : ∀ health, Within Aloof (hear health)

namespace Stage

/-- Set the host's health; the client is told of a change after some other listeners and before the
rest. -/
def setHealthAmong (host : HostCode Stage) (ahead behind : List Onlooker) (health : HealthState) :
    Act Stage Unit := do
  let monitor := (← Act.native).monitor
  if monitor.state ≠ health then
    modifyNative fun n => { n with monitor := (monitor.transition health).2 }
    ahead.forM (·.hear health)
    monitor.listeners.forM fun _ => healthChanged host health
    behind.forM (·.hear health)

private theorem setHealthAmong_of_same (host : HostCode Stage) (ahead behind : List Onlooker)
    {health : HealthState} {b : Bridge Stage} (h : b.native.monitor.state = health) :
    setHealthAmong host ahead behind health b = .ok () b := by
  show (if b.native.monitor.state ≠ health then _ else _ : Act Stage Unit) b = _
  rw [if_neg (not_not_intro h)]
  rfl

private theorem setHealthAmong_of_ne (host : HostCode Stage) (ahead behind : List Onlooker)
    {health : HealthState} {b : Bridge Stage} (h : b.native.monitor.state ≠ health) :
    setHealthAmong host ahead behind health b =
      (do
        ahead.forM (·.hear health)
        b.native.monitor.listeners.forM fun _ => healthChanged host health
        behind.forM (·.hear health))
      { b with native := { b.native with monitor := (b.native.monitor.transition health).2 } } := by
  show (if b.native.monitor.state ≠ health then _ else _ : Act Stage Unit) b = _
  rw [if_pos h]
  rfl

/-- Where nothing else listens, it is the client alone that is told. -/
theorem setHealthAmong_nil (host : HostCode Stage) (health : HealthState) :
    setHealthAmong host [] [] health = setHealth host health := by
  funext b
  rw [setHealth_apply]
  by_cases h : b.native.monitor.state = health
  · rw [setHealthAmong_of_same _ _ _ h, ← h, HealthMonitor.transition_same]
    rfl
  · rw [setHealthAmong_of_ne _ _ _ h, HealthMonitor.transition, if_neg h]
    exact congrFun (bind_pure_unit (m := Act Stage)) _

/-- The one client that listens is told of a change, with nothing said or noted around it, unless a
listener ahead of it panics. -/
theorem setHealthAmong_ends {host : HostCode Stage} {ahead behind : List Onlooker}
    {health : HealthState} {listener : Nat × Unit} {r : Except Panic Unit} {b b' : Bridge Stage}
    (hnew : b.native.monitor.state ≠ health) (hlistens : b.native.monitor.listeners = [listener])
    (hahead : r = .ok () ∨ ∀ o ∈ ahead, NeverPanics (o.hear health))
    (h : (setHealthAmong host ahead behind health).EndsIn r b b') : ∃ b₁ b₂,
      Aloof { b with native := { b.native with monitor := (b.native.monitor.transition health).2 } }
        b₁ ∧ (healthChanged host health).Ends b₁ b₂ ∧ Aloof b₂ b' := by
  have haloof (l : List Onlooker) : Within Aloof (l.forM (·.hear health)) :=
    within_forM aloof_frame fun o _ => o.aloof health
  have hone : [listener].forM (fun _ => healthChanged host health) = healthChanged host health :=
    bind_pure_unit
  have hsteps : (do
      ahead.forM (·.hear health)
      healthChanged host health
      behind.forM (·.hear health) : Act Stage Unit).EndsIn r
        { b with native := { b.native with monitor := (b.native.monitor.transition health).2 } }
        b' := by
    cases r <;> rwa [EndsIn, setHealthAmong_of_ne _ _ _ hnew, hlistens, hone] at h
  obtain ⟨b₁, hbefore, h⟩ : ∃ b₁, ahead.forM (·.hear health)
      { b with native := { b.native with monitor := (b.native.monitor.transition health).2 } } =
        .ok () b₁ ∧ (do
          healthChanged host health
          behind.forM (·.hear health) : Act Stage Unit).EndsIn r b₁ b' := by
    rcases endsIn_of_bind hsteps with ⟨_, b₁, hbefore, h⟩ | ⟨cause, hr, hpanics⟩
    · exact ⟨b₁, hbefore, h⟩
    · rcases hahead with hok | hquiet
      · rw [hok] at hr
        cases hr
      · exact absurd hpanics (neverPanics_forM hquiet _ _ _)
  have hbefore := (haloof ahead).ok hbefore
  rcases endsIn_of_bind h with ⟨_, b₂, hchange, h⟩ | ⟨cause, _, hchange⟩
  · exact ⟨b₁, b₂, hbefore, .inl ⟨_, hchange⟩, (haloof behind).ends h.ends⟩
  · exact ⟨b₁, b', hbefore, .inr ⟨_, hchange⟩, aloof_frame.same rfl rfl⟩

/-- What a started client tells the host of a change of its health: of the change itself and of
each open queue whose options ask for it, in order. -/
def healthNews (l : Ledger) (health : HealthState) : List Delivery :=
  let concerned := l.openQueues.filter fun q => (l.table.options q).suspendsOnBadHostHealth
  let note (kind : SessionEventKind) (queue : Option QueueHandle) : Delivery :=
    .notification (.event (.ofEvent ⟨kind.code, Code.success, "", queue⟩))
  match health with
  | .unhealthy => note .hostUnhealthy none :: concerned.map fun q => note .queueSuspended (some q)
  | .healthy =>
      (concerned.map fun q => note .queueResumed (some q)) ++ [note .hostHealthRestored none]

private theorem healthNews_eq {l : Ledger} {health : HealthState} (h : l.health ≠ health) :
    (healthReports health (l.setHealth health).1).flatMap toldOf = healthNews l health := by
  have hqueues (kind : SessionEventKind) (affected : List QueueHandle) :
      (affected.map fun q => healthReport kind (some q)).flatMap toldOf = affected.map fun q =>
        .notification (.event (.ofEvent ⟨kind.code, Code.success, "", some q⟩)) := by
    rw [List.flatMap_map]
    exact List.flatMap_pure_eq_map ..
  rw [Ledger.setHealth, if_neg h]
  cases health with
  | unhealthy =>
    rw [healthReports, List.flatMap_cons, hqueues]
    rfl
  | healthy =>
    rw [healthReports, List.flatMap_append, hqueues]
    rfl

end Stage

namespace Session

/-- The client follows the host's health: it listens to it once, and its books, which are in order,
say what it is. -/
structure Watching (b : Bridge Stage) : Prop where
  listed : b.native.ledger.Listed
  listens : ∃ id, b.native.monitor.listeners = [(id, ())]
  health : b.native.ledger.health = b.native.monitor.state

def changeNews (n : Stage) (health : HealthState) : List Delivery :=
  if n.monitor.state ≠ health ∧ n.ledger.started = true then Stage.healthNews n.ledger health
  else []

section

variable {host : HostCode Stage} (hhost : host.Detached)

include hhost

private theorem Watching.setHealthAmong {ahead behind : List Onlooker} {health : HealthState}
    {r : Except Panic Unit} {b b' : Bridge Stage} (hb : Watching b)
    (hahead : r = .ok () ∨ ∀ o ∈ ahead, NeverPanics (o.hear health))
    (h : (Stage.setHealthAmong host ahead behind health).EndsIn r b b') :
    Watching b' ∧ b'.native.monitor.state = health ∧
      b'.deliveries = b.deliveries ++ changeNews b.native health := by
  by_cases hsame : b.native.monitor.state = health
  · have hends := h.ends
    rw [Ends, Stage.setHealthAmong_of_same _ _ _ hsame] at hends
    cases eq_of_ends_pure hends
    rw [changeNews, if_neg fun hnew => hnew.1 hsame, List.append_nil]
    exact ⟨hb, hsame, rfl⟩
  obtain ⟨id, hlistens⟩ := hb.listens
  obtain ⟨b₁, b₂, hbefore, hchange, hafter⟩ :=
    Stage.setHealthAmong_ends hsame hlistens hahead h
  have hledger₁ : b₁.native.ledger = b.native.ledger := hbefore.ledger
  have hmonitor : b'.native.monitor = (b.native.monitor.transition health).2 := by
    rw [hafter.monitor, (Stage.unmoved_healthChanged hhost health).ends hchange, hbefore.monitor]
  obtain ⟨hledger₂, hnew⟩ := Stage.healthChanged_hears hhost
    (by rw [hledger₁]; exact hb.listed.pending) hchange
  have hledger : b'.native.ledger = (b.native.ledger.setHealth health).2 := by
    rw [hafter.ledger, hledger₂, hledger₁]
  have hknown : b.native.ledger.health ≠ health := by rwa [hb.health]
  refine ⟨⟨?_, ⟨id, ?_⟩, ?_⟩, ?_, ?_⟩
  · rw [hledger]
    exact hb.listed.setHealth health
  · rw [hmonitor, HealthMonitor.listeners_transition, hlistens]
  · rw [hledger, hmonitor, Ledger.health_setHealth, HealthMonitor.state_transition]
  · rw [hmonitor, HealthMonitor.state_transition]
  · rw [hafter.deliveries, hnew, hbefore.deliveries, hledger₁, Stage.healthNews_eq hknown,
      changeNews]
    simp only [ne_eq, hsame, not_false_eq_true, true_and]

private theorem Watching.call {s : Session Stage} (hs : s.client = Stage.client host) {α : Type}
    {call : Call α} {r : Except Panic α} {b b' : Bridge Stage} (hb : Watching b)
    (h : (call.run s).EndsIn r b b') : Watching b' ∧
      b'.native.monitor.state = b.native.monitor.state ∧
      sessionNews b'.deliveries =
        sessionNews b.deliveries ++ call.news b.native.monitor.state r := by
  obtain ⟨hlisted, hnews⟩ := call_tells hs hhost h hb.listed
  have hmonitor : b'.native.monitor = b.native.monitor := (unmoved_call hs hhost call).ends h.ends
  have hdeed : (Deed.call call).Ends s host b b' := h.ends
  have hhealth : b'.native.ledger.health = b.native.ledger.health :=
    health_of_regular (Deed.turned hs hhost hb.listed.pending hdeed).regular rfl
  refine ⟨⟨hlisted, ?_, ?_⟩, congrArg HealthMonitor.state hmonitor, ?_⟩
  · rw [hmonitor]
    exact hb.listens
  · rw [hhealth, hmonitor, hb.health]
  · rw [hnews, hb.health]

end

inductive Doing where
  | call {α : Type} (call : Call α) (result : Except Panic α)
  /-- The host's health is set; some listen ahead of the client, and some behind it. -/
  | setHealth (ahead behind : List Onlooker) (health : HealthState) (result : Except Panic Unit)
  /-- What the client will do is arranged. -/
  | arrange

namespace Doing

/-- A turn leads from one state to another. If setting the host's health panics, it is not for a
listener ahead of the client, which would keep the client from being told. -/
def Ends (s : Session Stage) (host : HostCode Stage) (b b' : Bridge Stage) : Doing → Prop
  | call c result => (c.run s).EndsIn result b b'
  | setHealth ahead behind health result =>
      (result = .ok () ∨ ∀ o ∈ ahead, NeverPanics (o.hear health)) ∧
        (Stage.setHealthAmong host ahead behind health).EndsIn result b b'
  | arrange => Stage.Apart b.native b'.native ∧ b'.deliveries = b.deliveries

/-- The host's health is what a turn sets it to, and the host hears what the turn is to tell it of
its health and of the session, and nothing else. -/
def Reports (b b' : Bridge Stage) : Doing → Prop
  | call c result => b'.native.monitor.state = b.native.monitor.state ∧
      sessionNews b'.deliveries =
        sessionNews b.deliveries ++ c.news b.native.monitor.state result
  | setHealth _ _ health _ => b'.native.monitor.state = health ∧
      b'.deliveries = b.deliveries ++ changeNews b.native health
  | arrange => b'.native.monitor.state = b.native.monitor.state ∧ b'.deliveries = b.deliveries

end Doing

structure WatchedTurn where
  doing : Doing
  before : Bridge Stage
  after : Bridge Stage

inductive Watches (s : Session Stage) (host : HostCode Stage) (b₀ : Bridge Stage) :
    List WatchedTurn → Bridge Stage → Prop where
  | none : Watches s host b₀ [] b₀
  | next {turns : List WatchedTurn} {b b' : Bridge Stage} {doing : Doing} :
      Watches s host b₀ turns b → doing.Ends s host b b' →
        Watches s host b₀ (turns ++ [⟨doing, b, b'⟩]) b'

section

variable {s : Session Stage} {host : HostCode Stage} (hs : s.client = Stage.client host)
  (hhost : host.Detached)

include hs hhost

private theorem Watching.turn {doing : Doing} {b b' : Bridge Stage} (hb : Watching b)
    (h : doing.Ends s host b b') : Watching b' ∧ doing.Reports b b' := by
  cases doing with
  | call c result =>
    obtain ⟨hb', hreports⟩ := hb.call hhost hs h
    exact ⟨hb', hreports⟩
  | setHealth ahead behind health result =>
    obtain ⟨hb', hreports⟩ := hb.setHealthAmong hhost h.1 h.2
    exact ⟨hb', hreports⟩
  | arrange =>
    obtain ⟨hapart, hdeliveries⟩ := h
    refine ⟨⟨?_, ?_, ?_⟩, congrArg HealthMonitor.state hapart.monitor, hdeliveries⟩
    · rw [hapart.ledger]
      exact hb.listed
    · rw [hapart.monitor]
      exact hb.listens
    · rw [hapart.ledger, hapart.monitor]
      exact hb.health

private theorem Watches.watching {b₀ b : Bridge Stage} {turns : List WatchedTurn}
    (hb₀ : Watching b₀)
    (h : s.Watches host b₀ turns b) : Watching b ∧
      ∀ t ∈ turns, Watching t.before ∧ Watching t.after ∧ t.doing.Reports t.before t.after := by
  induction h with
  | none => exact ⟨hb₀, fun _ ht => absurd ht List.not_mem_nil⟩
  | next _ hdoing ih =>
    obtain ⟨hb, hturns⟩ := ih
    obtain ⟨hb', hreports⟩ := hb.turn hs hhost hdoing
    refine ⟨hb', fun t ht => ?_⟩
    rcases List.mem_append.mp ht with ht | ht
    · exact hturns t ht
    · rw [List.mem_singleton.mp ht]
      exact ⟨hb, hb', hreports⟩

end

def bystander : Onlooker where
  hear _ := pure ()
  aloof _ := within_pure aloof_frame ()

/-- The turn in which a deed is done, unless it panics; a bystander listens ahead of the client, and
another behind it. -/
def Deed.watched? (s : Session Stage) (host : HostCode Stage) (b : Bridge Stage) :
    Deed → Option WatchedTurn
  | .call c => match c.run s b with
    | .ok x b' => some ⟨.call c (.ok x), b, b'⟩
    | .error .. => none
  | .setHealth health => match Stage.setHealthAmong host [bystander] [bystander] health b with
    | .ok _ b' => some ⟨.setHealth [bystander] [bystander] health (.ok ()), b, b'⟩
    | .error .. => none
  | .arrange => some ⟨.arrange, b, b⟩

private theorem Watches.watched {s : Session Stage} {host : HostCode Stage} {b₀ b : Bridge Stage}
    {turns : List WatchedTurn} {deed : Deed} {t : WatchedTurn} (h : s.Watches host b₀ turns b)
    (hdeed : deed.watched? s host b = some t) : s.Watches host b₀ (turns ++ [t]) t.after := by
  cases deed with
  | call c =>
    rw [Deed.watched?] at hdeed
    split at hdeed
    · next hrun =>
      cases hdeed
      exact h.next hrun
    · cases hdeed
  | setHealth health =>
    rw [Deed.watched?] at hdeed
    split at hdeed
    · next hrun =>
      cases hdeed
      exact h.next ⟨.inl rfl, hrun⟩
    · cases hdeed
  | arrange =>
    cases hdeed
    have hends : Doing.arrange.Ends s host b b := ⟨⟨rfl, rfl, rfl, rfl, rfl⟩, rfl⟩
    exact h.next hends

end Session

end BrokerBridge
