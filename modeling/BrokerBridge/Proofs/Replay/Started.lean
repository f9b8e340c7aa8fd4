import BrokerBridge.Proofs.Replay.PostedToken
import BrokerBridge.Proofs.Replay.Programs

/-!
# Who takes a session for started

The session and the books of the scripted client each note whether they are started. They agree
until a start is rejected while the session is started: the client stops, the session goes on. A
change of the host's health is told to the host exactly as long as the books say started.
-/

namespace BrokerBridge

open Act

/-! ## Where a program leaves no token behind -/

/-- What frames the calls of a client, changes of health and arrangements frames every program on
its session. -/
theorem Session.Program.within {α : Type} {R : Bridge Stage → Bridge Stage → Prop} (hR : Frame R)
    {s : Session Stage} {host : HostCode Stage} {lifecycle : Bool} (hclient : s.client.Within R)
    (hhealth : ∀ health, Within R (Stage.setHealth host health))
    (harrange : ∀ {f : Stage → Stage}, (∀ n, Stage.Aside n (f n)) →
      (∀ n, (f n).inFlight = n.inFlight) → Within R (modifyNative f))
    {a : Act Stage α} (h : s.Program host lifecycle a) : Within R a := by
  induction h with
  | done x => exact within_pure hR x
  | andThen _ _ ihm ihk => exact within_bind hR ihm ihk
  | operation h => exact Session.within_queueOperation hR hclient h
  | isStarted => exact within_bind hR (within_get hR) fun _ => within_pure hR _
  | setHealth health => exact hhealth health
  | arrange haside hflight => exact harrange haside hflight
  | giveUp text => exact within_throw hR _
  | start timeout _ => exact Session.within_start hR hclient timeout
  | stop warn _ => exact Session.within_stop hR hclient.stop warn
  | drop _ => exact Session.within_drop hR hclient.stop

/-- What frames the programs of one layer, if it frames those of the layer below, frames the host
code of every layer. -/
theorem HostCode.Layered.within {R : Bridge Stage → Bridge Stage → Prop} (hR : Frame R)
    {lifecycle : Bool} {host : HostCode Stage}
    (hlayer : ∀ {inner : HostCode Stage} {s : Session Stage}, (∀ d, Within R (inner d)) →
      s.client = Stage.client inner → ∀ {a : Act Stage HostOutcome},
        s.Program inner lifecycle a → Within R a)
    (h : host.Layered lifecycle) (d : Delivery) : Within R (host d) := by
  induction h generalizing d with
  | deepest => exact within_throw hR _
  | above _ hs hprogram ih => exact hlayer ih hs (hprogram d)

private theorem Session.Program.custody {α : Type} {s : Session Stage} {host : HostCode Stage}
    (hs : s.client = Stage.client host) (hhost : host.KeepsCustody) {lifecycle : Bool}
    {a : Act Stage α} (h : s.Program host lifecycle a) : Within Custody a := by
  have hclient : s.client.Within Custody := by
    rw [hs]
    exact Stage.custody_client hhost
  refine h.within custody_frame hclient (Stage.custody_setHealth hhost) ?_
  exact fun haside hflight =>
    RehearsalPlan.custody_modifyNative (fun n => (haside n).ledger) hflight

private theorem HostCode.Layered.custody {lifecycle : Bool} {host : HostCode Stage}
    (h : host.Layered lifecycle) : host.KeepsCustody :=
  h.within custody_frame fun hinner hs _ hprogram => hprogram.custody hs hinner

/-! ## What leaves both flags alone -/

theorem Ledger.Update.started_eq {l l' : Ledger} (h : l.Update l') : l'.started = l.started := by
  cases h with
  | openQueue =>
    unfold Ledger.openQueue
    split <;> rfl
  | configureQueue =>
    unfold Ledger.configureQueue
    split <;> rfl
  | closeQueue =>
    unfold Ledger.closeQueue
    split <;> rfl
  | dropQueue =>
    unfold Ledger.dropQueue
    split <;> rfl
  | setHealth =>
    unfold Ledger.setHealth
    split <;> rfl
  | foreignQueue | resetOptions | post | takePosted | enqueue | takePending => rfl

def Steady (b b' : Bridge Stage) : Prop :=
  b.gate.waiting = [] → b'.gate.waiting = [] ∧ b'.gate.started = b.gate.started ∧
    b'.native.ledger.started = b.native.ledger.started

namespace Steady

private theorem of_eq {b b' : Bridge Stage} (hgate : b'.gate = b.gate)
    (hstarted : b'.native.ledger.started = b.native.ledger.started) : Steady b b' := by
  intro hwaiting
  rw [hgate]
  exact ⟨hwaiting, rfl, hstarted⟩

theorem trans {b₁ b₂ b₃ : Bridge Stage} (h₁ : Steady b₁ b₂) (h₂ : Steady b₂ b₃) :
    Steady b₁ b₃ := by
  intro hwaiting
  obtain ⟨hwaiting₂, hgate₂, hledger₂⟩ := h₁ hwaiting
  obtain ⟨hwaiting₃, hgate₃, hledger₃⟩ := h₂ hwaiting₂
  exact ⟨hwaiting₃, hgate₃.trans hgate₂, hledger₃.trans hledger₂⟩

private theorem of_alike {b b' : Bridge Stage} (h : Alike b b') : Steady b b' := by
  intro hwaiting
  have hledger : b'.native.ledger.started = b.native.ledger.started := by rw [h.native]
  exact ⟨h.waiting.trans hwaiting, h.started, hledger⟩

private theorem parts : Stage.Parts fun _ => Steady where
  composes :=
    { alike := of_alike
      raise := fun _ _ => of_eq rfl rfl
      before := trans
      after := trans }
  notes :=
    { deliver := fun _ _ => of_eq rfl rfl
      report := fun _ _ _ => of_eq rfl rfl
      caught := fun _ h => h.trans (of_eq rfl rfl) }
  aside h := of_eq rfl (congrArg Ledger.started h.ledger)
  update h := of_eq rfl h.started_eq
  observe _ := Stage.follows_observe fun _ _ _ => of_eq rfl rfl

private theorem leave (s : Session Stage) : Follows (fun _ => Steady) s.leave where
  ok h hwaiting := of_alike (Session.alike_of_leave hwaiting h) hwaiting
  panic h := absurd h (Session.neverPanics_leave _ _ _)

private theorem carries : Stage.Carries fun _ => Steady where
  toParts := parts
  leave s _ := leave s

end Steady

/-! ## Starting and stopping -/

namespace Stage

section

variable {host : HostCode Stage} (hhost : host.Layered false)

include hhost

private theorem steady_callHost (d : Delivery) : Follows (fun _ => Steady) (callHost host d) := by
  have hlife : false = true → CarriesLifecycle fun _ => Steady := nofun
  have hhost := hhost.follows Steady.carries hlife d
  exact follows_callHost Steady.parts.composes Steady.parts.notes hhost

private theorem started_of_start {timeout : Duration} {b b' : Bridge Stage} {code : Int}
    (hwaiting : b.gate.waiting = []) (h : start host timeout b = .ok code b') :
    b'.gate.waiting = [] ∧ b'.gate.started = b.gate.started ∧
      b'.native.ledger.started = decide (code = Code.success) := by
  obtain ⟨_, b₁, hobserve, h⟩ := bind_eq_ok.mp h
  have hsteady₁ := (Steady.parts.observe _).ok hobserve
  obtain ⟨_, b₂, hstart, h⟩ := bind_eq_ok.mp h
  cases hstart
  obtain ⟨hwaiting₁, hgate₁, _⟩ := hsteady₁ hwaiting
  obtain ⟨b₃, b₄, hbefore, h, hafter⟩ := inHost_ok h
  obtain ⟨verdict, b₅, hsettle, h⟩ := bind_eq_ok.mp h
  have hsettle := (Steady.parts.arranges.settles ..).ok hsettle
  obtain ⟨hwaiting₅, hgate₅, hledger₅⟩ := (Steady.of_alike hbefore).trans hsettle hwaiting₁
  simp only at h
  split at h
  · next hrejected =>
    obtain ⟨_, b₆, hstop, h⟩ := bind_eq_ok.mp h
    cases hstop
    cases h
    obtain ⟨hwaiting', hgate', hledger'⟩ := Steady.of_alike hafter hwaiting₅
    refine ⟨hwaiting', hgate'.trans (hgate₅.trans hgate₁), ?_⟩
    rw [hledger']
    exact (decide_eq_false hrejected).symm
  · obtain ⟨n, b₆, hnative, h⟩ := bind_eq_ok.mp h
    cases hnative
    have hreport : Steady b₅ b₄ ∧ code = Code.success := by
      split at h
      · obtain ⟨_, b₇, hpass, h⟩ := bind_eq_ok.mp h
        cases h
        have hpassed :=
          @closed_passOn _ Steady.parts.arranges.toBuilds host host (steady_callHost hhost)
        exact ⟨(hpassed _).ok hpass, rfl⟩
      · cases h
        exact ⟨Steady.of_eq rfl rfl, rfl⟩
    obtain ⟨hreport, rfl⟩ := hreport
    obtain ⟨hwaiting', hgate', hledger'⟩ := hreport.trans (Steady.of_alike hafter) hwaiting₅
    exact ⟨hwaiting', hgate'.trans (hgate₅.trans hgate₁), hledger'.trans hledger₅⟩

end

private theorem stop_ok {b b' : Bridge Stage} {u : Unit} (h : stop b = .ok u b') :
    b'.native.ledger.started = false ∧
      (b.gate.waiting = [] → b'.gate.waiting = [] ∧ b'.gate.started = b.gate.started) := by
  obtain ⟨_, b₁, hobserve, h⟩ := bind_eq_ok.mp h
  have hsteady₁ := (Steady.parts.observe _).ok hobserve
  obtain ⟨_, b₂, hstop, h⟩ := bind_eq_ok.mp h
  cases hstop
  obtain ⟨b₃, b₄, hbefore, h, hafter⟩ := inHost_ok h
  obtain ⟨code, b₅, hsettle, h⟩ := bind_eq_ok.mp h
  cases h
  constructor
  · rw [hafter.native, (settle_ok hsettle).2, hbefore.native]
    rfl
  · intro hwaiting
    obtain ⟨hwaiting₁, hgate₁, _⟩ := hsteady₁ hwaiting
    have hsettle := (Steady.parts.arranges.settles ..).ok hsettle
    have hend := (Steady.of_alike hbefore).trans (hsettle.trans (Steady.of_alike hafter))
    obtain ⟨hwaiting', hgate', _⟩ := hend hwaiting₁
    exact ⟨hwaiting', hgate'.trans hgate₁⟩

end Stage

namespace Session

variable {s : Session Stage} {host : HostCode Stage} (hs : s.client = Stage.client host)

include hs

/-- An accepted start leaves both flags set; a rejected one clears the client's and leaves the
session's as it was. -/
theorem started_of_start (hhost : host.Layered false) {timeout : Option Duration}
    {b b' : Bridge Stage} {r : Except SessionError Unit} (hwaiting : b.gate.waiting = [])
    (h : (s.start timeout).run b = .ok r b') :
    b'.gate.waiting = [] ∧
      match r with
      | .ok () => b'.gate.started = true ∧ b'.native.ledger.started = true
      | .error _ => b'.gate.started = b.gate.started ∧ b'.native.ledger.started = false := by
  obtain ⟨answer, b₁, b₂, hbefore, hstart, hafter, hanswer⟩ := endsIn_of_start (r := .ok r) h
  cases answer with
  | error => cases hanswer
  | ok code =>
    rw [hs] at hstart
    have hwaiting₁ : b₁.gate.waiting = [] := hbefore.waiting.trans hwaiting
    obtain ⟨hwaiting₂, hgate, hledger⟩ := Stage.started_of_start hhost hwaiting₁ hstart
    by_cases haccepted : code = Code.success
    · obtain rfl : r = .ok () := (Except.ok.inj hanswer).trans (if_pos haccepted)
      simp only [haccepted, if_true] at hafter
      refine ⟨hafter.waiting.trans hwaiting₂, hafter.started, ?_⟩
      rw [hafter.native]
      exact hledger.trans (decide_eq_true haccepted)
    · obtain rfl : r = .error _ := (Except.ok.inj hanswer).trans (if_neg haccepted)
      simp only [haccepted, if_false] at hafter
      refine ⟨hafter.waiting.trans hwaiting₂, ?_, ?_⟩
      · exact hafter.started.trans (hgate.trans hbefore.started)
      · rw [hafter.native]
        exact hledger.trans (decide_eq_false haccepted)

omit hs in
/-- A stop clears the session's flag, and then stops the client if the session was started. -/
theorem stop_ok {warn : Bool} {b b' : Bridge Stage} {r : Except SessionError Unit}
    (h : (s.stop warn).run b = .ok r b') : ∃ b₁ b₂, Alike b b₁ ∧ Alike b₂ b' ∧
      if b.gate.started then
        s.client.stop { b₁ with gate := b₁.gate.setStarted false } = .ok () b₂
      else b₂ = { b₁ with gate := b₁.gate.setStarted false } := by
  obtain ⟨answer, b₁, b₂, hbefore, hafter, hstop, hanswer⟩ := endsIn_of_stop (r := .ok r) h
  refine ⟨b₁, b₂, hbefore, hafter, ?_⟩
  cases answer with
  | error => cases hanswer
  | ok =>
    by_cases hstarted : b.gate.started
    · rw [if_pos hstarted] at hstop ⊢
      exact hstop
    · rw [if_neg hstarted] at hstop ⊢
      exact hstop.2

/-- The client's flag is clear after a stop, unless the session was not started. -/
theorem ledger_started_of_stop {warn : Bool} {b b' : Bridge Stage} {r : Except SessionError Unit}
    (h : (s.stop warn).run b = .ok r b') :
    b'.native.ledger.started = (b.native.ledger.started && !b.gate.started) := by
  obtain ⟨b₁, b₂, hbefore, hafter, hstop⟩ := stop_ok h
  rw [hafter.native, ← hbefore.native]
  cases hgate : b.gate.started with
  | true =>
    rw [if_pos hgate, hs] at hstop
    rw [(Stage.stop_ok hstop).1, Bool.not_true, Bool.and_false]
  | false =>
    rw [if_neg (hgate ▸ Bool.false_ne_true)] at hstop
    rw [hstop, Bool.not_false, Bool.and_true]

/-- A stop clears both flags, unless the session is not started; then it does nothing. -/
theorem started_of_stop {warn : Bool} {b b' : Bridge Stage} {r : Except SessionError Unit}
    (hwaiting : b.gate.waiting = []) (h : (s.stop warn).run b = .ok r b') :
    b'.gate.waiting = [] ∧ b'.gate.started = false ∧
      b'.native.ledger.started = (b.native.ledger.started && !b.gate.started) := by
  have hledger := ledger_started_of_stop hs h
  obtain ⟨b₁, b₂, hbefore, hafter, hstop⟩ := stop_ok h
  have hwaiting₁ : b₁.gate.waiting = [] := hbefore.waiting.trans hwaiting
  split at hstop
  · rw [hs] at hstop
    obtain ⟨hwaiting₂, hgate₂⟩ := (Stage.stop_ok hstop).2 hwaiting₁
    exact ⟨hafter.waiting.trans hwaiting₂, hafter.started.trans hgate₂, hledger⟩
  · rw [hstop] at hafter
    exact ⟨hafter.waiting.trans hwaiting₁, hafter.started, hledger⟩

end Session

/-! ## What the host hears of its health -/

namespace Stage

def toldOf : NativeEvent → List Delivery
  | .session e => [.notification (.event (.ofEvent e))]
  | .message _ => []

section

variable {host : HostCode Stage} (hhost : host.KeepsCustody) {b b' : Bridge Stage}
  (hcalm : b.native.Calm)

include hhost hcalm

private theorem callHost_first {d : Delivery} {u : Unit} (h : callHost host d b = .ok u b') :
    ∃ more, b'.deliveries = b.deliveries ++ d :: more := by
  obtain ⟨_, b₁, hdeliver, h⟩ := bind_eq_ok.mp h
  cases hdeliver
  obtain ⟨outcome, b₂, hended, hreturned⟩ := bind_eq_ok.mp h
  obtain ⟨_, _, more, hmore⟩ := (within_attempt (hhost d)).ok hended hcalm
  have hsame : b'.deliveries = b₂.deliveries :=
    (within_hostReturned unheard_frame d outcome).ok hreturned
  refine ⟨more, ?_⟩
  rw [hsame, ← hmore, List.append_assoc]
  rfl

private theorem passOn_told {e : NativeEvent} {u : Unit} (h : passOn host e b = .ok u b') :
    b'.native.Calm ∧ ∃ new, b'.deliveries = b.deliveries ++ new ∧ (toldOf e).Sublist new := by
  obtain ⟨hcalm', _, new, hnew⟩ := (custody_passOn hhost e).ok h hcalm
  refine ⟨hcalm', ?_⟩
  cases e with
  | message e => exact ⟨new, hnew.symm, List.nil_sublist _⟩
  | session e =>
    rw [passOn_apply (congrArg Prod.snd hcalm)] at h
    obtain ⟨b₁, b₂, hledger, hbefore, htell, hafter⟩ := holding_ok h
    obtain ⟨b₃, b₄, hin, hcall, hout⟩ := inHost_ok htell
    have hcalm₃ : b₃.native.Calm := by
      rw [hin.native, Calm, hledger]
      exact hcalm
    obtain ⟨more, hmore⟩ := callHost_first hhost hcalm₃ hcall
    refine ⟨_ :: more, ?_, List.singleton_sublist.mpr (List.mem_cons_self ..)⟩
    rw [hafter, hout.deliveries, hmore, hin.deliveries, hbefore]

private theorem passAll_told {l : List NativeEvent} {u : Unit} (h : passAll host l b = .ok u b') :
    ∃ new, b'.deliveries = b.deliveries ++ new ∧ (l.flatMap toldOf).Sublist new := by
  induction l generalizing b with
  | nil =>
    cases h
    exact ⟨[], (List.append_nil _).symm, .slnil⟩
  | cons e rest ih =>
    obtain ⟨_, b₁, hpass, hrest⟩ := bind_eq_ok.mp h
    obtain ⟨hcalm₁, new, hnew, htold⟩ := passOn_told hhost hcalm hpass
    obtain ⟨more, hmore, htold'⟩ := ih hcalm₁ hrest
    refine ⟨new ++ more, ?_, htold.append htold'⟩
    rw [hmore, hnew, List.append_assoc]

omit hhost hcalm in
theorem healthChanged_apply (health : HealthState) (b : Bridge Stage) :
    healthChanged host health b =
      (if b.native.ledger.started then
        inHost (passAll host (healthReports health (b.native.ledger.setHealth health).1))
      else pure ()) { b with native :=
        { b.native with ledger := (b.native.ledger.setHealth health).2 } } := by
  have hsame : (b.native.ledger.setHealth health).2.started = b.native.ledger.started :=
    (Ledger.Update.setHealth health).started_eq
  rw [← hsame]
  rfl

omit hhost hcalm in
theorem setHealth_apply (health : HealthState) (b : Bridge Stage) :
    setHealth host health b =
      (b.native.monitor.transition health).1.forM (fun _ => healthChanged host health)
        { b with native :=
          { b.native with monitor := (b.native.monitor.transition health).2 } } :=
  rfl

/-- The host of a client that listens is told of every queue concerned and of the change itself,
if the books say started, and of nothing otherwise. -/
theorem setHealth_told {health : HealthState} {listener : Nat × Unit} {u : Unit}
    (hlistens : b.native.monitor.listeners = [listener])
    (hchange : b.native.monitor.state ≠ health) (h : setHealth host health b = .ok u b') :
    ∃ new, b'.deliveries = b.deliveries ++ new ∧
      if b.native.ledger.started then
        ((healthReports health (b.native.ledger.setHealth health).1).flatMap toldOf).Sublist new
      else new = [] := by
  have hlistener : (b.native.monitor.transition health).1 = [listener] := by
    rw [HealthMonitor.transition, if_neg hchange, hlistens]
  rw [setHealth_apply, hlistener] at h
  obtain ⟨_, b₂, hfollow, h⟩ := bind_eq_ok.mp h
  cases h
  have hfollow := (healthChanged_apply ..).symm.trans hfollow
  split
  · next hstarted =>
    rw [if_pos hstarted] at hfollow
    obtain ⟨b₃, b₄, hin, hpass, hout⟩ := inHost_ok hfollow
    have hcalm₃ : b₃.native.Calm := by
      rw [hin.native]
      exact (b.native.ledger.buffers_setHealth health).trans hcalm
    obtain ⟨new, hnew, htold⟩ := passAll_told hhost hcalm₃ hpass
    refine ⟨new, ?_, htold⟩
    rw [hout.deliveries, hnew, hin.deliveries]
  · next hstopped =>
    rw [if_neg hstopped] at hfollow
    cases hfollow
    exact ⟨[], (List.append_nil _).symm, rfl⟩

end

end Stage

/-! ## Runs -/

namespace Session

/-- A run of starts, stops and programs that do neither, from a session that is new. It has lapsed
when a start was rejected while the session was started, until the next start or stop. -/
inductive Runs (s : Session Stage) (host : HostCode Stage) : Bool → Bridge Stage → Prop where
  | new {b : Bridge Stage} : b.gate.started = false → b.gate.waiting = [] →
      b.native.ledger.started = false → b.native.Calm → Runs s host false b
  | started {lapsed : Bool} {b b' : Bridge Stage} {timeout : Option Duration} :
      Runs s host lapsed b → (s.start timeout).run b = .ok (.ok ()) b' → Runs s host false b'
  | rejected {lapsed : Bool} {b b' : Bridge Stage} {timeout : Option Duration}
      {e : SessionError} : Runs s host lapsed b → (s.start timeout).run b = .ok (.error e) b' →
        Runs s host b.gate.started b'
  | stopped {lapsed : Bool} {b b' : Bridge Stage} {warn : Bool} {r : Except SessionError Unit} :
      Runs s host lapsed b → (s.stop warn).run b = .ok r b' → Runs s host false b'
  | used {α : Type} {lapsed : Bool} {b b' : Bridge Stage} {a : Act Stage α} {x : α} :
      Runs s host lapsed b → s.Program host false a → a b = .ok x b' → Runs s host lapsed b'

variable {s : Session Stage} {host : HostCode Stage} {lapsed : Bool} {b : Bridge Stage}

/-- What every step of a run keeps: no stop waits, nothing is buffered, and the flags agree unless
the run has lapsed. -/
theorem Runs.flags (hs : s.client = Stage.client host) (hhost : host.Layered false)
    (h : s.Runs host lapsed b) : b.gate.waiting = [] ∧ b.native.Calm ∧
      b.native.ledger.started = (b.gate.started && !lapsed) := by
  have hcustody := hhost.custody
  have hclient : s.client.Within Custody := by
    rw [hs]
    exact Stage.custody_client hcustody
  induction h with
  | new hgate hwaiting hledger hcalm => exact ⟨hwaiting, hcalm, by rw [hgate, hledger]; rfl⟩
  | @started _ _ b' _ _ hstart ih =>
    obtain ⟨hwaiting, hcalm, _⟩ := ih
    obtain ⟨hcalm', _⟩ := (within_start custody_frame hclient _).ok hstart hcalm
    obtain ⟨hwaiting', hgate', hledger'⟩ := started_of_start hs hhost hwaiting hstart
    exact ⟨hwaiting', hcalm', by rw [hgate', hledger']; rfl⟩
  | @rejected _ b₀ b' _ _ _ hstart ih =>
    obtain ⟨hwaiting, hcalm, _⟩ := ih
    obtain ⟨hcalm', _⟩ := (within_start custody_frame hclient _).ok hstart hcalm
    obtain ⟨hwaiting', hgate', hledger'⟩ := started_of_start hs hhost hwaiting hstart
    refine ⟨hwaiting', hcalm', ?_⟩
    -- the client's flag is clear now, and the session's only if it was before
    rw [hgate', hledger']
    cases b₀.gate.started <;> rfl
  | @stopped lapsed b₀ b' _ _ _ hstop ih =>
    obtain ⟨hwaiting, hcalm, hagree⟩ := ih
    obtain ⟨hcalm', _⟩ := (within_stop custody_frame hclient.stop _).ok hstop hcalm
    obtain ⟨hwaiting', hgate', hledger'⟩ := started_of_stop hs hwaiting hstop
    refine ⟨hwaiting', hcalm', ?_⟩
    rw [hgate', hledger', hagree]
    cases b₀.gate.started <;> cases lapsed <;> rfl
  | used _ hprogram hrun ih =>
    obtain ⟨hwaiting, hcalm, hagree⟩ := ih
    obtain ⟨hcalm', _⟩ := (hprogram.custody hs hcustody).ok hrun hcalm
    have hlife : false = true → Stage.CarriesLifecycle fun _ => Steady := nofun
    have hsteady := (hprogram.follows_layered Steady.carries hlife hs hhost).ok hrun
    obtain ⟨hwaiting', hgate', hledger'⟩ := hsteady hwaiting
    exact ⟨hwaiting', hcalm', by rw [hgate', hledger', hagree]⟩

/-- After each operation of a run the client's books say started exactly if the session does and
the run has not lapsed, and exactly then a change of the host's health is told to the host. -/
theorem started_agrees_unless_lapsed (hs : s.client = Stage.client host)
    (hhost : host.Layered false) (h : s.Runs host lapsed b) :
    b.native.ledger.started = (b.gate.started && !lapsed) ∧
      ∀ listener health b', b.native.monitor.listeners = [listener] →
        b.native.monitor.state ≠ health → Stage.setHealth host health b = .ok () b' →
        ∃ new, b'.deliveries = b.deliveries ++ new ∧
          if b.gate.started && !lapsed then
            ((Stage.healthReports health (b.native.ledger.setHealth health).1).flatMap
              Stage.toldOf).Sublist new
          else new = [] := by
  obtain ⟨_, hcalm, hagree⟩ := h.flags hs hhost
  refine ⟨hagree, ?_⟩
  intro listener health b' hlistens hchange hset
  rw [← hagree]
  exact Stage.setHealth_told hhost.custody hcalm hlistens hchange hset

def listening : Bridge Stage where
  native := { monitor := { listeners := [(0, ())], nextId := 1 } }

def decideStarts (code : Int) (b : Bridge Stage) : Bridge Stage :=
  { b with native := { b.native with codes := { b.native.codes with start := code } } }

private theorem Runs.decide (h : s.Runs host lapsed b) (code : Int) :
    s.Runs host lapsed (decideStarts code b) := by
  have hprogram : s.Program host false (modifyNative fun n : Stage =>
      { n with codes := { n.codes with start := code } }) :=
    .arrange (fun _ => ⟨rfl, rfl, rfl, rfl⟩) fun _ => rfl
  exact .used h hprogram rfl

def quietSession : Session Stage := plainSession (.ending fun _ => .ok)

private theorem listening_runs : quietSession.Runs (.ending fun _ => .ok) false listening :=
  .new rfl rfl rfl rfl

theorem started_agrees_after_restart : ∃ b b' new,
    quietSession.Runs (.ending fun _ => .ok) false b ∧ b.native.ledger.started = true ∧
    Stage.setHealth (.ending fun _ => .ok) .unhealthy b = .ok () b' ∧
    b'.deliveries = b.deliveries ++ new ∧
    .notification (.event (.ofEvent ⟨SessionEventKind.hostUnhealthy.code, 0, "", none⟩)) ∈ new := by
  have hrun : (match (quietSession.start none).run listening with
      | .ok (.ok ()) b₁ => match (quietSession.start none).run (decideStarts (-2) b₁) with
        | .ok (.error _) b₂ => match (quietSession.start none).run (decideStarts 0 b₂) with
          | .ok (.ok ()) b => match Stage.setHealth (.ending fun _ => .ok) .unhealthy b with
            | .ok () _ => b.gate.started && b.native.monitor.listeners == [(0, ())] &&
                b.native.monitor.state == .healthy
            | _ => false
          | _ => false
        | _ => false
      | _ => false) = true := by decide +kernel
  split at hrun
  case h_2 => cases hrun
  case h_1 b₁ h₁ =>
  split at hrun
  case h_2 => cases hrun
  case h_1 b₂ h₂ =>
  split at hrun
  case h_2 => cases hrun
  case h_1 b h =>
  split at hrun
  case h_2 => cases hrun
  case h_1 b' hset =>
  simp only [Bool.and_eq_true, beq_iff_eq] at hrun
  obtain ⟨⟨hstarted, hlistens⟩, hhealthy⟩ := hrun
  have hrejected := (listening_runs.started h₁).decide (-2) |>.rejected h₂
  have hrestarted := (hrejected.decide 0).started h
  obtain ⟨hagree, htold⟩ :=
    started_agrees_unless_lapsed rfl (HostCode.layered_ending _) hrestarted
  have hchange : b.native.monitor.state ≠ .unhealthy := by
    rw [hhealthy]
    exact nofun
  obtain ⟨new, hnew, htold⟩ := htold _ _ _ hlistens hchange hset
  rw [hstarted] at hagree htold
  refine ⟨b, b', new, hrestarted, hagree, hset, hnew, ?_⟩
  exact htold.subset (List.mem_cons_self ..)

/-- A start that is rejected on a started session stops the client and not the session: from then
on the host is not told of its health. -/
theorem rejected_start_stops_client : ∃ b b',
    quietSession.Runs (.ending fun _ => .ok) true b ∧ b.gate.started = true ∧
    b.native.ledger.started = false ∧ b.native.monitor.listeners = [(0, ())] ∧
    b.native.monitor.state = .healthy ∧
    Stage.setHealth (.ending fun _ => .ok) .unhealthy b = .ok () b' ∧
    b'.deliveries = b.deliveries := by
  have hrun : (match (quietSession.start none).run listening with
      | .ok (.ok ()) b₁ => match (quietSession.start none).run (decideStarts (-2) b₁) with
        | .ok (.error _) b => match Stage.setHealth (.ending fun _ => .ok) .unhealthy b with
          | .ok () _ => b₁.gate.started && b.native.monitor.listeners == [(0, ())] &&
              b.native.monitor.state == .healthy
          | _ => false
        | _ => false
      | _ => false) = true := by decide +kernel
  split at hrun
  case h_2 => cases hrun
  case h_1 b₁ h₁ =>
  split at hrun
  case h_2 => cases hrun
  case h_1 b h =>
  split at hrun
  case h_2 => cases hrun
  case h_1 b' hset =>
  simp only [Bool.and_eq_true, beq_iff_eq] at hrun
  obtain ⟨⟨hstarted, hlistens⟩, hhealthy⟩ := hrun
  have hrejected := ((listening_runs.started h₁).decide (-2)).rejected h
  have hhost : HostCode.Layered false (.ending fun _ => .ok) := HostCode.layered_ending _
  obtain ⟨hwaiting, hcalm, _⟩ := ((listening_runs.started h₁).decide (-2)).flags rfl hhost
  obtain ⟨_, hgate, hledger⟩ := started_of_start rfl hhost hwaiting h
  have hchange : b.native.monitor.state ≠ .unhealthy := by
    rw [hhealthy]
    exact nofun
  obtain ⟨_, hcalm', _⟩ := hrejected.flags rfl hhost
  obtain ⟨new, hnew, htold⟩ := Stage.setHealth_told hhost.custody hcalm' hlistens hchange hset
  rw [hledger] at htold
  have htold : new = [] := htold
  rw [htold, List.append_nil] at hnew
  have hlapsed : (decideStarts (-2) b₁).gate.started = true := hstarted
  rw [hlapsed] at hrejected
  exact ⟨b, b', hrejected, hgate.trans hlapsed, hledger, hlistens, hhealthy, hset, hnew⟩

end Session

end BrokerBridge
