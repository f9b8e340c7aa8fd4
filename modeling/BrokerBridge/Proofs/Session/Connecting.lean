import BrokerBridge.Proofs.Session.Balanced
import BrokerBridge.Proofs.Session.Within
import BrokerBridge.Replay.Rehearsal

/-!
# Connecting

Settings are checked in one place, and options are made of them in another. What holds of both
together is said here in terms of the options alone: which of them a client can work with, and
which of them some settings stand for. Settings are refused exactly if no options that a client can
work with stand for them, and the connector sees no others.
-/

namespace BrokerBridge

variable {α ν : Type}

/-- A value that is set is given as it is, and where none is set the default is given. -/
structure Overlays (set : Option α) (default given : α) : Prop where
  configured : ∀ v, set = some v → given = v
  absent : set = none → given = default

namespace Overlays

variable {set : Option α} {default given : α}

private theorem getD (set : Option α) (default : α) : Overlays set default (set.getD default) where
  configured := by
    rintro v rfl
    rfl
  absent := by
    rintro rfl
    rfl

/-- Where the default is fine, it depends on what is set whether what is given is. -/
theorem iff_of_default (h : Overlays set default given) {P : α → Prop} (hdefault : P default) :
    P given ↔ ∀ v, set = some v → P v := by
  cases set with
  | none => simp [h.absent rfl, hdefault]
  | some v => simp [h.configured v rfl]

end Overlays

namespace ClientOptions

structure Sane (o : ClientOptions) : Prop where
  brokerUri : ∃ c ∈ o.brokerUri.toList, Text.isBlankChar c = false
  processingThreads : 0 < o.processingThreads
  blobBufferSize : 0 < o.blobBufferSize
  channelHighWatermark : 0 < o.channelHighWatermark
  watermarks : 0 ≤ o.eventQueueLowWatermark ∧ o.eventQueueLowWatermark < o.eventQueueHighWatermark
  timeouts : ∀ c, 0 < (o.timeouts.get c).nanos
  monitor : o.hasMonitor = true → o.monitorHostHealth = true

/-- The options that settings stand for: what is set, and for the rest what clients do by
default. -/
structure StandsFor (o : ClientOptions) (s : Settings) (executable : String) (watching : Bool) :
    Prop where
  brokerUri : o.brokerUri = s.brokerUri
  processName : Overlays s.processName executable o.processName
  processingThreads : Overlays s.processingThreads 1 o.processingThreads
  blobBufferSize : Overlays s.blobBufferSize 4096 o.blobBufferSize
  channelHighWatermark : Overlays s.channelHighWatermark 134217728 o.channelHighWatermark
  watermarks : Overlays s.eventQueueWatermarks (50, 2000)
    (o.eventQueueLowWatermark, o.eventQueueHighWatermark)
  statsDumpInterval : Overlays s.statsDumpInterval (.ofSeconds 300) o.statsDumpInterval
  timeouts : ∀ c, Overlays (s.timeouts.get c) (defaultTimeouts.get c) (o.timeouts.get c)
  monitorHostHealth : o.monitorHostHealth = (s.monitorHostHealth || watching)
  hasMonitor : o.hasMonitor = watching

private theorem standsFor_ofSettings (executable : String) (s : Settings) :
    (ofSettings executable s).StandsFor s executable false where
  brokerUri := rfl
  processName := .getD ..
  processingThreads := .getD ..
  blobBufferSize := .getD ..
  channelHighWatermark := .getD ..
  watermarks := .getD ..
  statsDumpInterval := .getD ..
  timeouts c := (Timeouts.get_orElse s.timeouts defaultTimeouts c).symm ▸ .getD ..
  monitorHostHealth := (Bool.or_false _).symm
  hasMonitor := rfl

variable {o : ClientOptions} {s : Settings} {executable : String} {watching : Bool}

private theorem StandsFor.watched (h : o.StandsFor s executable false) :
    o.watching.StandsFor s executable true :=
  { h with monitorHostHealth := (Bool.or_true _).symm, hasMonitor := rfl }

private theorem zero_lt_defaultTimeouts (c : TimedCall) : 0 < (defaultTimeouts.get c).nanos := by
  cases c <;> decide

/-- A client can work with the options that settings stand for exactly if the settings break no
rule: every default is fine, so it depends on what is set. -/
theorem StandsFor.sane_iff (h : o.StandsFor s executable watching) : o.Sane ↔ s.Allowed := by
  have huri : (∃ c ∈ o.brokerUri.toList, Text.isBlankChar c = false) ↔
      Text.isBlank s.brokerUri = false := by
    rw [Text.isBlank_eq_false_iff, h.brokerUri]
  have hthreads := h.processingThreads.iff_of_default (P := (0 < ·)) (by decide)
  have hblobs := h.blobBufferSize.iff_of_default (P := (0 < ·)) (by decide)
  have hchannel := h.channelHighWatermark.iff_of_default (P := (0 < ·)) (by decide)
  have hmarks := h.watermarks.iff_of_default (P := fun m => 0 ≤ m.1 ∧ m.1 < m.2) (by decide)
  have htimeouts c := (h.timeouts c).iff_of_default (P := (0 < ·.nanos)) (zero_lt_defaultTimeouts c)
  constructor
  · intro hsane
    refine ⟨huri.mp hsane.brokerUri, fun p => ?_,
      fun low high => hmarks.mp hsane.watermarks (low, high),
      fun c => (htimeouts c).mp (hsane.timeouts c)⟩
    cases p with
    | processingThreads => exact hthreads.mp hsane.processingThreads
    | blobBufferSize => exact hblobs.mp hsane.blobBufferSize
    | channelHighWatermark => exact hchannel.mp hsane.channelHighWatermark
  · intro hallowed
    refine ⟨huri.mpr hallowed.brokerUri, hthreads.mpr (hallowed.positive .processingThreads),
      hblobs.mpr (hallowed.positive .blobBufferSize),
      hchannel.mpr (hallowed.positive .channelHighWatermark),
      hmarks.mpr fun m => hallowed.watermarks m.1 m.2,
      fun c => (htimeouts c).mpr (hallowed.timeouts c), fun hmonitor => ?_⟩
    rw [h.monitorHostHealth, ← h.hasMonitor, hmonitor, Bool.or_true]

end ClientOptions

namespace Settings

variable {s : Settings} {executable : String} {watching : Bool}

private theorem connection_of_fault {fault : SettingsFault} (h : s.fault? = some fault) :
    s.connection executable watching = .error (.invalidConfig (.settings fault)) := by
  simp only [connection, h]

/-- Settings that break no rule make a session with the options that they stand for. -/
theorem exists_connection_of_allowed (h : s.Allowed) (executable : String) (watching : Bool) :
    ∃ o : ClientOptions, s.connection executable watching = .ok ⟨o, s.compression⟩ ∧
      o.StandsFor s executable watching := by
  simp only [connection, fault?_eq_none_iff.mpr h]
  have hplain := ClientOptions.standsFor_ofSettings executable s
  cases watching with
  | true => exact ⟨_, rfl, hplain.watched⟩
  | false => exact ⟨_, rfl, hplain⟩

end Settings

/-! ## What the connector is asked for -/

/-- The far side's state beside the options that clients were asked for with, the oldest first. -/
structure Noted (ν : Type) where
  state : ν
  asked : List ClientOptions

def Bridge.withNative {μ : Type} (b : Bridge ν) (native : μ) : Bridge μ := { b with native }

def Connector.noting (k : Connector ν) : Connector (Noted ν) := fun options b =>
  let asked := b.native.asked ++ [options]
  match k options (b.withNative b.native.state) with
  | .ok made b => .ok made (b.withNative ⟨b.native, asked⟩)
  | .error i b => .error i (b.withNative ⟨b.native, asked⟩)

def Connection.answered (c : Connection) :
    Except (List String) Unit → Except SessionError Connection
  | .ok () => .ok c
  | .error causes => .error (.failed (.create causes.reverse) Code.unknown)

open Act

private theorem Connector.asked_final_noting (k : Connector ν) (o : ClientOptions)
    (b : Bridge (Noted ν)) :
    (final (k.noting o b)).native.asked = b.native.asked ++ [o] := by
  unfold noting
  cases k o (b.withNative b.native.state) with
  | ok made b' => rfl
  | error i b' => rfl

namespace Act

private theorem native_final_stepBack (saved : Nat) (b : Bridge ν) :
    (final (stepBack saved b)).native = b.native := by
  rw [stepBack_apply]
  split <;> rfl

/-- A cleanup that leaves the far side alone leaves what was done to it before. -/
theorem native_final_ensuring {cleanup : Act ν Unit}
    (h : ∀ b, (final (cleanup b)).native = b.native) (body : Act ν α) (b : Bridge ν) :
    (final (ensuring body cleanup b)).native = (final (body b)).native := by
  unfold ensuring
  cases body b with
  | ok x b₁ =>
    have hclean := h b₁
    cases hrun : cleanup b₁ <;> simpa only [hrun, final] using hclean
  | error i b₁ =>
    have hclean := h b₁
    cases hrun : cleanup b₁ <;> simpa only [hrun, final] using hclean

private theorem native_final_outsideHost (body : Act ν α) (b : Bridge ν) :
    (final (outsideHost body b)).native =
      (final (body { b with host := (b.host.leaveAll b.thread).2 })).native :=
  native_final_ensuring (native_final_stepBack _) body _

end Act

namespace Settings

variable {s : Settings} {executable : String} {watching : Bool} {c : Connection}

private theorem asked_final_connect (h : s.connection executable watching = .ok c) (k : Connector ν)
    (b : Bridge (Noted ν)) :
    (final (s.connect executable watching k.noting b)).native.asked =
      b.native.asked ++ [c.options] := by
  have hasked : (final (outsideHost (k.noting c.options) b)).native.asked =
      b.native.asked ++ [c.options] := by
    rw [native_final_outsideHost, Connector.asked_final_noting]
  simp only [connect, h]
  cases hrun : outsideHost (k.noting c.options) b with
  | ok made b₁ =>
    rw [bind_of_ok hrun]
    rw [hrun] at hasked
    cases made <;> exact hasked
  | error i b₁ =>
    rw [bind_of_error hrun]
    rwa [hrun] at hasked

/-- Where the settings are accepted it is the connector that decides what comes of them. -/
theorem connect_eq_ok_iff (h : s.connection executable watching = .ok c) {k : Connector ν}
    {b : Bridge ν} {made : Except SessionError Connection} :
    (∃ b', s.connect executable watching k b = .ok made b') ↔
      ∃ answer b₁, outsideHost (k c.options) b = .ok answer b₁ ∧ made = c.answered answer := by
  simp only [connect, h, bind_eq_ok]
  constructor
  · rintro ⟨b', answer, b₁, hanswer, hmade⟩
    refine ⟨answer, b₁, hanswer, ?_⟩
    cases answer <;> cases hmade <;> rfl
  · rintro ⟨answer, b₁, hanswer, rfl⟩
    cases answer with
    | ok u => exact ⟨_, .ok u, b₁, hanswer, rfl⟩
    | error causes => exact ⟨_, .error causes, b₁, hanswer, rfl⟩

/-- Whatever is set and whatever the connector does: settings that are refused stand for no options
that a client can work with, and the connector hears nothing of them. Where they are accepted, the
connector is asked once, for the options that they stand for, which a client can work with, and
what comes of it is the connector's answer. -/
theorem only_sane_options_reach_connector (s : Settings) (executable : String) (watching : Bool)
    (k : Connector ν) (b : Bridge (Noted ν)) :
    (∀ fault, s.fault? = some fault →
      s.connect executable watching k.noting b =
        .ok (.error (.invalidConfig (.settings fault))) b ∧
      ∀ o : ClientOptions, o.StandsFor s executable watching → ¬o.Sane) ∧
    (s.fault? = none → ∃ o : ClientOptions, o.StandsFor s executable watching ∧ o.Sane ∧
      (final (s.connect executable watching k.noting b)).native.asked = b.native.asked ++ [o] ∧
      ∀ made, (∃ b', s.connect executable watching k.noting b = .ok made b') ↔
        ∃ answer b₁, outsideHost (k.noting o) b = .ok answer b₁ ∧
          made = Connection.answered ⟨o, s.compression⟩ answer) := by
  refine ⟨fun fault hfault => ⟨?_, fun o hstands hsane => ?_⟩, fun hnone => ?_⟩
  · simp only [connect, connection_of_fault hfault]
    rfl
  · have hnone := fault?_eq_none_iff.mpr (hstands.sane_iff.mp hsane)
    rw [hfault] at hnone
    cases hnone
  · have hallowed := fault?_eq_none_iff.mp hnone
    obtain ⟨o, hconnection, hstands⟩ := exists_connection_of_allowed hallowed executable watching
    exact ⟨o, hstands, hstands.sane_iff.mpr hallowed, asked_final_connect hconnection k b,
      fun _ => connect_eq_ok_iff hconnection⟩

end Settings

/-! ## Rehearsals -/

namespace Act

variable {β : Type}

private theorem ensuring_bind_pure (body : Act ν α) (cleanup : Act ν Unit) (f : α → β) :
    ensuring (body >>= fun x => pure (f x)) cleanup =
      ensuring body cleanup >>= fun x => pure (f x) := by
  funext b
  show _ = EStateM.bind (ensuring body cleanup) _ b
  cases hbody : body b with
  | ok x b₁ =>
    have hmade : (body >>= fun x => pure (f x)) b = .ok (f x) b₁ := bind_of_ok hbody
    simp only [ensuring, EStateM.bind, hbody, hmade]
    cases cleanup b₁ <;> rfl
  | error i b₁ =>
    simp only [ensuring, EStateM.bind, hbody, bind_of_error hbody]
    cases cleanup b₁ <;> rfl

/-- What is made of an answer alone is made outside host execution or back inside. -/
theorem outsideHost_bind_pure (body : Act ν α) (f : α → β) :
    outsideHost (body >>= fun x => pure (f x)) = outsideHost body >>= fun x => pure (f x) := by
  simp only [outsideHost, bind_assoc, ensuring_bind_pure]

private theorem outsideHost_pure (x : α) {b : Bridge ν} (hb : b.host.WellFormed) :
    outsideHost (pure x) b = .ok x b := by
  have hout : stepOut b = .ok (b.host.leaveAll b.thread).1
      { b with host := (b.host.leaveAll b.thread).2 } := rfl
  rw [outsideHost, bind_of_ok hout]
  have hback : stepBack (b.host.leaveAll b.thread).1
      { b with host := (b.host.leaveAll b.thread).2 } = .ok () b := by
    rw [stepBack_apply]
    simp only [HostLock.restore?_leaveAll hb]
  exact ensuring_of_ok rfl hback

end Act

namespace Rehearsal

variable {r : Rehearsal}

private theorem offer_eq : r.offer =
    match r.plan.settings.connection r.plan.executable r.plan.health.isSome, r.plan.refusal with
    | .error e, _ => .error e
    | .ok _, some causes => .error (.refusedConnection causes)
    | .ok c, none => .ok c := by
  simp only [offer]
  cases r.plan.settings.connection r.plan.executable r.plan.health.isSome with
  | error e => rfl
  | ok c => cases r.plan.refusal <;> rfl

/-- Where a step has no session to offer, it has the failure of the connection that is tried. -/
theorem connect_of_offer_error {e : SessionError} (h : r.offer = .error e) {b : Bridge Stage}
    (hb : b.host.WellFormed) :
    r.plan.settings.connect r.plan.executable r.plan.health.isSome r.plan.connector b =
      .ok (.error e) b := by
  rw [offer_eq] at h
  unfold Settings.connect
  split at h
  · next hc =>
    cases h
    rw [hc]
    rfl
  · next c causes hc hrefusal =>
    cases h
    have hrefused : r.plan.connector c.options = pure (.error causes) := by
      simp only [RehearsalPlan.connector, hrefusal]
    simp only [hc, hrefused]
    rw [bind_of_ok (outsideHost_pure _ hb)]
    rfl
  · cases h

/-- Where it has one, the client is created outside host execution and the session is stopped, as in
the step. -/
theorem connect_of_offer_ok {c : Connection} (h : r.offer = .ok c) :
    r.plan.settings.connect r.plan.executable r.plan.health.isSome r.plan.connector = do
      Act.outsideHost (Stage.create c.options)
      Act.modifyGate fun _ => {}
      return .ok c := by
  rw [offer_eq] at h
  split at h
  · cases h
  · cases h
  next hc hrefusal =>
  cases h
  have hcreated : r.plan.connector c.options =
      Stage.create c.options >>= fun _ => pure (.ok ()) := by
    simp only [RehearsalPlan.connector, hrefusal]
  unfold Settings.connect
  simp only [hc, hcreated, outsideHost_bind_pure, bind_assoc, pure_bind]

end Rehearsal

end BrokerBridge
