import BrokerBridge.Proofs.Replay.Programs
import BrokerBridge.Proofs.Session.Within
import BrokerBridge.Replay.Rehearsal

/-!
# Where tokens are kept

A post takes a token in and gives it back, with its failure or with an acknowledgement. While
nothing is buffered, no call on a session leaves anything behind in the buffers of the scripted
client or among the tokens in flight.
-/

namespace BrokerBridge

namespace Ledger

def buffers (l : Ledger) : List MessageEvent × List NativeEvent := (l.posted, l.pending)

variable (l : Ledger) (q : QueueHandle) (uri : String) (options : QueueOptions)

theorem buffers_openQueue (flags : QueueFlags) :
    (l.openQueue uri flags options).2.buffers = l.buffers := by
  unfold openQueue
  split <;> rfl

theorem buffers_configureQueue : (l.configureQueue q options).2.buffers = l.buffers := by
  unfold configureQueue
  split <;> rfl

theorem buffers_closeQueue : (l.closeQueue q).2.buffers = l.buffers := by
  unfold closeQueue
  split <;> rfl

theorem buffers_dropQueue : (l.dropQueue uri).buffers = l.buffers := by
  unfold dropQueue
  split <;> rfl

theorem buffers_setHealth (health : HealthState) :
    (l.setHealth health).2.buffers = l.buffers := by
  unfold setHealth
  split <;> rfl

private theorem takePending_enqueue {l : Ledger} (h : l.pending = []) (e : NativeEvent) :
    (l.enqueue e).takePending = (some e, l) := by
  cases l
  cases h
  rfl

private theorem takePosted_post {l : Ledger} (h : l.posted = []) (e : MessageEvent) :
    (l.post e).takePosted = (some e, l) := by
  cases l
  cases h
  rfl

end Ledger

def Stage.Calm (n : Stage) : Prop := n.ledger.buffers = ([], [])

/-- A token that is neither in flight nor scripted is held by the host alone. -/
theorem Stage.holders_le_one {n : Stage} (h : n.Calm) {c : Correlation} (hflight : c ∉ n.inFlight)
    (hscript : c ∉ n.scriptedTokens) : n.holders c ≤ 1 := by
  have hposted : n.ledger.posted = [] := congrArg Prod.fst h
  have hpending : n.ledger.pending = [] := congrArg Prod.snd h
  unfold holders
  rw [hposted, hpending, List.count_eq_zero.mpr hflight, List.count_eq_zero.mpr hscript]
  split
  · exact Nat.le_refl 1
  · exact Nat.zero_le 1

/-- Where nothing was buffered, nothing is, the tokens in flight are those there were, and
deliveries were only added. -/
def Custody (b b' : Bridge Stage) : Prop :=
  b.native.Calm →
    b'.native.Calm ∧ b'.native.inFlight = b.native.inFlight ∧ b.deliveries <+: b'.deliveries

theorem custody_frame : Frame Custody where
  same := by
    intro b b' hn hd hcalm
    rw [hn, hd]
    exact ⟨hcalm, rfl, List.prefix_refl _⟩
  trans := by
    intro b₁ b₂ b₃ h₁ h₂ hcalm
    obtain ⟨hcalm₂, hflight₂, hprefix₂⟩ := h₁ hcalm
    obtain ⟨hcalm₃, hflight₃, hprefix₃⟩ := h₂ hcalm₂
    exact ⟨hcalm₃, hflight₃.trans hflight₂, hprefix₂.trans hprefix₃⟩

structure Silent (b b' : Bridge Stage) : Prop where
  deliveries : b'.deliveries = b.deliveries
  inFlight : b'.native.inFlight = b.native.inFlight
  buffers : b'.native.ledger.buffers = b.native.ledger.buffers
  script : b'.native.script = b.native.script

private theorem silent_frame : Frame Silent where
  same := by
    intro b b' hn hd
    exact ⟨hd, by rw [hn], by rw [hn], by rw [hn]⟩
  trans := by
    intro b₁ b₂ b₃ h₁ h₂
    exact ⟨h₂.1.trans h₁.1, h₂.2.trans h₁.2, h₂.3.trans h₁.3, h₂.4.trans h₁.4⟩

theorem Silent.calm {b b' : Bridge Stage} (h : Silent b b') (hcalm : b.native.Calm) :
    b'.native.Calm :=
  h.buffers.trans hcalm

private theorem Silent.custody {b b' : Bridge Stage} (h : Silent b b') : Custody b b' := by
  intro hcalm
  have hnone : b.deliveries ++ [] = b'.deliveries := by
    rw [List.append_nil, h.deliveries]
  exact ⟨h.calm hcalm, h.inFlight, [], hnone⟩

private theorem custody_of_silent {α : Type} {a : Act Stage α} (h : Act.Within Silent a) :
    Act.Within Custody a :=
  h.mono fun _ _ => Silent.custody

def HostCode.KeepsCustody (host : HostCode Stage) : Prop := ∀ d, Act.Within Custody (host d)

namespace Stage

open Act

/-! ## Calls that the host does not hear of -/

theorem silent_ledgerUpdate {α : Type} {f : Ledger → α × Ledger}
    (hf : ∀ l, (f l).2.buffers = l.buffers) : Within Silent (ledgerUpdate f) :=
  within_onNative fun _ => ⟨rfl, rfl, hf _, rfl⟩

private theorem silent_modifyLedger {f : Ledger → Ledger} (hf : ∀ l, (f l).buffers = l.buffers) :
    Within Silent (modifyLedger f) :=
  within_modifyNative fun _ => ⟨rfl, rfl, hf _, rfl⟩

theorem silent_observe (call : NativeCall) : Within Silent (observe call) := by
  apply within_bind silent_frame
  · exact within_onNative fun _ => ⟨rfl, rfl, rfl, rfl⟩
  intro r
  cases r with
  | ok _ => exact within_pure silent_frame _
  | error mismatch => exact within_throw silent_frame _

theorem silent_settle (call : NativeCall) (code : Verdicts → Int) :
    Within Silent (settle call code) :=
  within_onNative fun _ => ⟨rfl, rfl, rfl, rfl⟩

theorem silent_closes (q : QueueHandle) : Within Silent (ledgerUpdate (·.closeQueue q)) :=
  silent_ledgerUpdate fun l => l.buffers_closeQueue q

private theorem silent_serves : Serves fun a _ => Follows (fun _ => Silent) a where
  toClosed := closed_follows silent_frame.composes
  checks call := (silent_observe call).follows
  settles call code := (silent_settle call code).follows
  closes q := (silent_closes q).follows

theorem silent_marks (started : Bool) : Within Silent (modifyLedger ({ · with started })) :=
  silent_modifyLedger fun _ => rfl

theorem silent_stop : Within Silent stop :=
  Follows.within <| closed_stop silent_serves (silent_marks false).follows

private theorem silent_resets (q : QueueHandle) (options : QueueOptions) :
    Within Silent (modifyLedger (·.resetOptions q options)) :=
  silent_modifyLedger fun _ => rfl

theorem silent_configureQueue (q : QueueHandle) (options : QueueOptions) (timeout : Duration) :
    Within Silent (configureQueue q options timeout) :=
  Follows.within <| closed_configureQueue silent_serves
    (fun q options => (silent_ledgerUpdate fun l => l.buffers_configureQueue q options).follows)
    (fun q options => (silent_resets q options).follows) q options timeout

theorem silent_closeQueue (q : QueueHandle) (timeout : Duration) :
    Within Silent (closeQueue q timeout) :=
  Follows.within <| closed_closeQueue silent_serves q timeout

theorem silent_queue? (uri : String) : Within Silent (queue? uri) :=
  Follows.within <| closed_queue? silent_serves uri

theorem silent_confirm (q : QueueHandle) (guid : Guid) : Within Silent (confirm q guid) :=
  Follows.within <| closed_confirm silent_serves q guid

theorem within_openHandle {R : Bridge Stage → Bridge Stage → Prop} (hR : Frame R) (uri : String) :
    Within R (openHandle uri) := by
  apply within_bind hR (within_native hR)
  intro n
  split
  · exact within_pure hR _
  · exact within_throw hR _

theorem within_ackMessages {R : Bridge Stage → Bridge Stage → Prop} (hR : Frame R)
    (posted : Option Correlation) (batch : List ScriptedAck) :
    Within R (ackMessages posted batch) := by
  induction batch generalizing posted with
  | nil => exact within_pure hR _
  | cons a rest ih =>
    apply within_bind hR (within_openHandle hR _)
    intro q
    exact within_bind hR (ih _) fun _ => within_pure hR _

/-! ## Deliveries -/

/-- An event that finds the buffer empty goes straight to the host. -/
theorem passOn_apply {b : Bridge Stage} (hpending : b.native.ledger.pending = [])
    (host : HostCode Stage) (e : NativeEvent) :
    passOn host e b = holding (tokensOf e) (e.tell host) b := by
  have htake : ledgerUpdate (·.takePending)
      { b with native := { b.native with ledger := b.native.ledger.enqueue e } } =
        .ok (some e) b := by
    show EStateM.Result.ok (b.native.ledger.enqueue e).takePending.1
      { b with native := { b.native with
        ledger := (b.native.ledger.enqueue e).takePending.2 } } = _
    rw [Ledger.takePending_enqueue hpending]
  have hbuffer : modifyLedger (·.enqueue e) b = .ok ()
      { b with native := { b.native with ledger := b.native.ledger.enqueue e } } := rfl
  exact (bind_of_ok hbuffer).trans (bind_of_ok htake)

/-- An event that is posted where nothing is buffered is the one that is taken up, unless its
thread waits for ever to enter host execution. -/
theorem bufferPost_apply {b : Bridge Stage} (h : b.native.Calm) (host : HostCode Stage)
    (call : NativeCall) (e : MessageEvent) :
    (∃ b', bufferPost host call e b = .error .blocked b') ∨
      bufferPost host call e b = inHost (decidePost host call e) b := by
  have hposted : b.native.ledger.posted = [] := congrArg Prod.fst h
  let buffered : Bridge Stage :=
    { b with native := { b.native with ledger := b.native.ledger.post e } }
  have hbuffer : modifyLedger (·.post e) b = .ok () buffered := rfl
  cases hlock : b.host.enter? b.thread 1 with
  | none =>
    have hwait : enterHost 1 buffered = .error .blocked buffered := by
      have hlock : buffered.host.enter? buffered.thread 1 = none := hlock
      rw [enterHost_apply, hlock]
    exact .inl ⟨buffered, (bind_of_ok hbuffer).trans (bind_of_error hwait)⟩
  | some lock =>
    have htake : ledgerUpdate (·.takePosted) { buffered with host := lock } =
        .ok (some e) { b with host := lock } := by
      show EStateM.Result.ok (b.native.ledger.post e).takePosted.1
        { b with host := lock, native := { b.native with
          ledger := (b.native.ledger.post e).takePosted.2 } } = _
      rw [Ledger.takePosted_post hposted]
    have henter : enterHost 1 buffered = .ok () { buffered with host := lock } := by
      have hlock : buffered.host.enter? buffered.thread 1 = some lock := hlock
      rw [enterHost_apply, hlock]
    have henter' : enterHost 1 b = .ok () { b with host := lock } := by
      rw [enterHost_apply, hlock]
    have hin : inHost (decidePost host call e) b =
        ensuring (decidePost host call e) leaveHost { b with host := lock } := bind_of_ok henter'
    right
    calc bufferPost host call e b
      _ = inHost _ buffered := bind_of_ok hbuffer
      _ = ensuring _ leaveHost { buffered with host := lock } := bind_of_ok henter
      _ = ensuring (decidePost host call e) leaveHost { b with host := lock } :=
        ensuring_congr (bind_of_ok htake) _
      _ = inHost (decidePost host call e) b := hin.symm

theorem ends_of_bufferPost {host : HostCode Stage} {call : NativeCall} {e : MessageEvent}
    {b b' : Bridge Stage} (hcalm : b.native.Calm) (h : (bufferPost host call e).Ends b b') :
    (inHost (decidePost host call e)).Ends b b' := by
  rcases bufferPost_apply hcalm host call e with ⟨b₁, hwait⟩ | happly
  · rw [Ends, hwait] at h
    rcases h with ⟨_, h⟩ | ⟨_, h⟩ <;> cases h
  · rwa [Ends, happly] at h

section

variable {K : Bridge Stage → Bridge Stage → Prop} {host : HostCode Stage}

theorem within_passOn {e : NativeEvent}
    (h : Within (fun b b' => b.native.Calm → K b b') (holding (tokensOf e) (e.tell host))) :
    Within (fun b b' => b.native.Calm → K b b') (passOn host e) where
  ok hrun hcalm := by
    rw [passOn_apply (congrArg Prod.snd hcalm)] at hrun
    exact h.ok hrun hcalm
  panic hrun hcalm := by
    rw [passOn_apply (congrArg Prod.snd hcalm)] at hrun
    exact h.panic hrun hcalm

theorem within_bufferPost {call : NativeCall} {e : MessageEvent}
    (h : Within (fun b b' => b.native.Calm → K b b') (inHost (decidePost host call e))) :
    Within (fun b b' => b.native.Calm → K b b') (bufferPost host call e) where
  ok hrun hcalm := h.ends (ends_of_bufferPost hcalm (.inl ⟨_, hrun⟩)) hcalm
  panic hrun hcalm := h.ends (ends_of_bufferPost hcalm (.inr ⟨_, hrun⟩)) hcalm

end

private theorem neverPanics_release (k : Nat) : NeverPanics
    (modifyNative fun s : Stage => { s with inFlight := s.inFlight.drop k }) :=
  neverPanics_modify _

/-- The tokens that a call holds are let go at its end. -/
theorem within_holding {α : Type} {R : Bridge Stage → Bridge Stage → Prop}
    {tokens : List Correlation} {body : Act Stage α}
    (hback : ∀ b b₁ : Bridge Stage,
      R { b with native := { b.native with inFlight := tokens ++ b.native.inFlight } } b₁ →
      R b { b₁ with native := { b₁.native with
        inFlight := b₁.native.inFlight.drop tokens.length } })
    (h : Within R body) : Within R (holding tokens body) := by
  constructor
  · intro b x b' hb
    obtain ⟨_, b₁, h₁, h₂⟩ := bind_eq_ok.mp hb
    cases h₁
    obtain ⟨b₂, _, hbody, hrelease⟩ := body_of_ensuring_ok h₂
    cases hrelease
    exact hback _ _ (h.ok hbody)
  · intro b cause b' hb
    rcases bind_eq_error.mp hb with h₁ | ⟨_, b₁, h₁, h₂⟩
    · cases h₁
    · cases h₁
      obtain ⟨b₂, _, hbody, hrelease⟩ := body_of_ensuring_panic (neverPanics_release _) h₂
      cases hrelease
      exact hback _ _ (h.panic hbody)

private theorem custody_holding {α : Type} (tokens : List Correlation) {body : Act Stage α}
    (h : Within Custody body) : Within Custody (holding tokens body) := by
  refine within_holding ?_ h
  intro b b₁ hcustody hcalm
  obtain ⟨hcalm₁, hflight, hprefix⟩ := hcustody hcalm
  refine ⟨hcalm₁, ?_, hprefix⟩
  simp only at hflight
  simp [hflight]

private theorem custody_apart {b : Bridge Stage} {n : Stage} (h : Apart b.native n) :
    Custody b { b with native := n } := by
  intro hcalm
  have hbuffers : n.ledger.buffers = b.native.ledger.buffers := by rw [h.ledger]
  exact ⟨hbuffers.trans hcalm, h.inFlight, List.prefix_refl _⟩

private theorem custody_assembles : Assembles fun a _ => Follows (fun _ => Custody) a where
  toClosed := closed_follows custody_frame.composes
  checks call := (custody_of_silent (silent_observe call)).follows
  closes q := (custody_of_silent (silent_closes q)).follows
  apart hf := follows_onNative fun b => custody_apart (hf b.native)
  opens uri flags options := Within.follows <| custody_of_silent <|
    silent_ledgerUpdate fun l => l.buffers_openQueue uri options flags
  drops uri := Within.follows <| custody_of_silent <|
    silent_modifyLedger fun l => l.buffers_dropQueue uri
  keeps tokens _ _ h := (custody_holding tokens h.within).follows

private theorem custody_deliver (b : Bridge Stage) (d : Delivery) :
    Custody b { b with deliveries := b.deliveries ++ [d] } := by
  intro hcalm
  exact ⟨hcalm, rfl, List.prefix_append _ _⟩

section

variable {host : HostCode Stage} (hhost : host.KeepsCustody)

include hhost

theorem custody_passOn (e : NativeEvent) : Within Custody (passOn host e) := by
  have htell := within_tell custody_frame custody_deliver hhost e
  exact within_passOn (custody_holding (tokensOf e) htell)

private theorem custody_healthChanged (health : HealthState) :
    Within Custody (healthChanged host health) := by
  refine Follows.within <| @closed_healthChanged _ custody_assembles.toClosed host host
    (fun e => (custody_passOn hhost (.session e)).follows) health ?_
  exact (custody_of_silent (silent_ledgerUpdate fun l => l.buffers_setHealth health)).follows

theorem custody_setHealth (health : HealthState) : Within Custody (setHealth host health) := by
  apply within_bind custody_frame
  · exact within_onNative fun _ hcalm => ⟨hcalm, rfl, List.prefix_refl _⟩
  intro listeners
  exact within_forM custody_frame fun _ _ => custody_healthChanged hhost health

private theorem custody_passMessage (e : MessageEvent) :
    Follows (fun _ => Custody) (passOn host (.message e)) :=
  (custody_passOn hhost (.message e)).follows

private theorem custody_start (timeout : Duration) : Within Custody (start host timeout) := by
  have hmarks (started : Bool) : Follows (fun _ => Custody) (modifyLedger ({ · with started })) :=
    (custody_of_silent (silent_marks started)).follows
  exact Follows.within <| @closed_start _ custody_assembles.toServes host host (hmarks true)
    (hmarks false) (custody_passOn hhost _).follows timeout

private theorem custody_openQueue (uri : String) (flags : QueueFlags) (options : QueueOptions)
    (timeout : Duration) : Within Custody (openQueue host uri flags options timeout) :=
  Follows.within <| @closed_openQueue _ custody_assembles host host (custody_passMessage hhost)
    uri flags options timeout

private theorem custody_decidePost (call : NativeCall) (posted : MessageEvent) :
    Within Custody (decidePost host call posted) :=
  Follows.within <| @closed_decidePost _ custody_assembles host host (custody_passMessage hhost)
    call posted

private theorem custody_bufferPost (call : NativeCall) (e : MessageEvent) :
    Within Custody (bufferPost host call e) :=
  within_bufferPost (within_inHost custody_frame (custody_decidePost hhost call e))

private theorem custody_post (e : MessageEvent) : Within Custody (post host e) := by
  apply within_bind custody_frame
  · exact custody_of_silent (silent_observe _)
  · exact fun _ => custody_bufferPost hhost _ e

/-- The scripted client leaves no token behind. -/
theorem custody_client : (client host).Within Custody where
  start := custody_start hhost
  stop := custody_of_silent silent_stop
  openQueue := custody_openQueue hhost
  configureQueue _ _ _ := custody_of_silent (silent_configureQueue ..)
  closeQueue _ _ := custody_of_silent (silent_closeQueue ..)
  queue? _ := custody_of_silent (silent_queue? _)
  post := custody_post hhost
  confirm _ _ := custody_of_silent (silent_confirm ..)

end

end Stage

/-! ## Requests -/

namespace RehearsalPlan

open Act

theorem custody_modifyNative {f : Stage → Stage} (hl : ∀ n, (f n).ledger = n.ledger)
    (hf : ∀ n, (f n).inFlight = n.inFlight) : Within Custody (modifyNative f) := by
  apply within_modifyNative
  intro b hcalm
  refine ⟨?_, hf _, List.prefix_refl _⟩
  show (f b.native).ledger.buffers = _
  rw [hl]
  exact hcalm

private theorem custody_outcome {o : Session.Op Stage SessionError Unit}
    (h : Within Custody o.run) :
    Within Custody (outcome o) := by
  apply within_bind custody_frame h
  intro r
  cases r <;> exact within_pure custody_frame _

private theorem custody_caught {a : Act Stage Answer} (h : Within Custody a) :
    Within Custody (caught a) := by
  apply within_bind custody_frame (within_attempt h)
  intro r
  cases r <;> exact within_pure custody_frame _

private theorem custody_performSession {s : Session Stage} (hs : s.client.Within Custody)
    (r : SessionRequest) : Within Custody (performSession s r) := by
  have hqueue {α : Type} {a : Act Stage α} (h : s.QueueOperation a) : Within Custody a :=
    Session.within_queueOperation custody_frame hs h
  apply within_bind custody_frame (within_get custody_frame)
  intro b
  split
  · exact within_pure custody_frame _
  cases r with
  | start timeout => exact custody_outcome (Session.within_start custody_frame hs _)
  | stop warn => exact custody_outcome (Session.within_stop custody_frame hs.stop _)
  | stopElsewhere warn =>
    apply within_bind custody_frame
    · exact within_modify_same custody_frame (fun _ => rfl) fun _ => rfl
    · exact fun _ => within_pure custody_frame _
  | openQueue => exact custody_outcome (hqueue (.openQueue ..))
  | configureQueue => exact custody_outcome (hqueue (.configureQueue ..))
  | closeQueue => exact custody_outcome (hqueue (.closeQueue ..))
  | queueOptions uri =>
    apply within_bind custody_frame (hqueue (.queueOptions uri))
    intro r
    cases r <;> exact within_pure custody_frame _
  | post uri payload properties onAck =>
    apply within_bind custody_frame
    · exact custody_modifyNative (fun _ => rfl) fun _ => rfl
    intro _
    apply within_bind custody_frame (hqueue (.post ..))
    intro r
    cases r <;> exact within_pure custody_frame _
  | confirm => exact custody_outcome (hqueue (.confirm ..))
  | isStarted =>
    apply within_bind custody_frame
    · exact within_bind custody_frame (within_get custody_frame)
        fun _ => within_pure custody_frame _
    · exact fun _ => within_pure custody_frame _

private theorem custody_performStage {host : HostCode Stage} (hhost : host.KeepsCustody)
    (r : StageRequest) : Within Custody (performStage host r) := by
  cases r with
  | setCodes | closeOnGet | push | expect =>
    apply within_bind custody_frame
    · exact custody_modifyNative (fun _ => rfl) fun _ => rfl
    · exact fun _ => within_pure custody_frame _
  | ack batch =>
    apply within_bind custody_frame
    · exact custody_modifyNative (fun _ => rfl) fun _ => rfl
    intro _
    apply within_bind custody_frame
    · exact custody_modifyNative (fun _ => rfl) fun _ => rfl
    · exact fun _ => within_pure custody_frame _
  | loadScript files path =>
    simp only [performStage]
    split
    · exact within_pure custody_frame _
    · apply within_bind custody_frame
      · exact custody_modifyNative (fun _ => rfl) fun _ => rfl
      · exact fun _ => within_pure custody_frame _
  | checkSatisfied =>
    apply within_bind custody_frame (within_native custody_frame)
    intro n
    split
    · exact within_pure custody_frame _
    · exact within_throw custody_frame _
  | holders | reports =>
    apply within_bind custody_frame
    · first | exact within_native custody_frame | exact within_get custody_frame
    · exact fun _ => within_pure custody_frame _
  | setHealth health =>
    apply within_bind custody_frame (Stage.custody_setHealth hhost health)
    intro _
    apply within_bind custody_frame (within_native custody_frame)
    exact fun _ => within_pure custody_frame _

private theorem custody_perform (p : RehearsalPlan) (c : Option Connection) {host : HostCode Stage}
    (hhost : host.KeepsCustody) (r : Request) : Within Custody (p.perform c host r) := by
  cases r with
  | session r =>
    cases c with
    | none => exact within_pure custody_frame _
    | some c =>
      exact custody_caught (custody_performSession (Stage.custody_client hhost) r)
  | stage r => exact custody_caught (custody_performStage hhost r)
  | confirmAll => exact within_pure custody_frame _

/-- The callbacks of a rehearsal leave no token behind, however deep they are nested. -/
theorem custody_callback (p : RehearsalPlan) (c : Option Connection) (depth : Nat) :
    (p.callback c depth).KeepsCustody := by
  induction depth with
  | zero => exact fun d => within_throw custody_frame _
  | succ depth ih =>
    intro d
    apply within_bind custody_frame
    · apply within_forM custody_frame
      intro r _
      apply within_bind custody_frame (custody_perform p c ih r)
      exact fun answer => custody_modifyNative (fun _ => rfl) fun _ => rfl
    · exact fun _ => within_pure custody_frame _

end RehearsalPlan

/-! ## Rehearsals -/

namespace Rehearsal

open Act

private theorem custody_host (r : Rehearsal) : r.host.KeepsCustody :=
  r.plan.custody_callback r.connection depthLimit

private theorem custody_drop (r : Rehearsal) : Within Custody r.drop := by
  unfold drop
  split
  · exact within_pure custody_frame _
  · next c _ =>
    have hclient := Stage.custody_client r.custody_host
    apply within_bind custody_frame
    · apply RehearsalPlan.custody_caught
      apply within_bind custody_frame
      · exact Session.within_drop custody_frame hclient.stop
      · exact fun _ => within_pure custody_frame _
    intro answer
    apply within_bind custody_frame
    · apply RehearsalPlan.custody_modifyNative
      · intro n
        cases hs : n.subscription <;> simp
      · intro n
        cases hs : n.subscription <;> simp
    · exact fun _ => within_pure custody_frame _

private theorem custody_create (options : ClientOptions) : Within Custody
    (Stage.create options) := by
  apply within_bind custody_frame
  · apply within_inHost custody_frame
    exact RehearsalPlan.custody_modifyNative (fun _ => rfl) fun _ => rfl
  intro _
  apply within_bind custody_frame
  · exact within_modifyNative fun _ _ => ⟨rfl, rfl, List.prefix_refl _⟩
  intro _
  simp only
  split
  · apply within_bind custody_frame (within_native custody_frame)
    intro n
    apply within_bind custody_frame
    · exact custody_of_silent (Stage.silent_ledgerUpdate fun l => l.buffers_setHealth _)
    · exact fun _ => RehearsalPlan.custody_modifyNative (fun _ => rfl) fun _ => rfl
  · exact within_pure custody_frame _

private theorem custody_replace (r : Rehearsal) (c : Connection) : Within Custody
    (r.replace c) := by
  apply within_bind custody_frame r.custody_drop
  intro given
  apply within_bind custody_frame (within_outsideHost custody_frame (custody_create _))
  intro _
  apply within_bind custody_frame (within_modifyGate custody_frame _)
  intro _
  split
  · exact within_pure custody_frame _
  · apply within_bind custody_frame (within_native custody_frame)
    intro n
    apply within_bind custody_frame
    · exact within_bind custody_frame (within_get custody_frame)
        fun _ => within_pure custody_frame _
    · exact fun _ => within_pure custody_frame _

private theorem custody_perform (r : Rehearsal) (s : RehearsalStep) : Within Custody
    (r.perform s) := by
  cases s with
  | connect =>
    simp only [perform]
    split
    · exact within_pure custody_frame _
    · exact within_bind custody_frame (r.custody_replace _) fun _ => within_pure custody_frame _
  | drop => exact within_bind custody_frame r.custody_drop fun _ => within_pure custody_frame _
  | request q =>
    apply within_bind custody_frame
    · exact r.plan.custody_perform r.connection r.custody_host q
    · exact fun _ => within_pure custody_frame _

private theorem custody_inLevels {α : Type} (levels : Nat) {body : Act Stage α}
    (h : Within Custody body) : Within Custody (inLevels levels body) := by
  have hrest : Within Custody (do
      let a ← body
      let b ← get
      modify fun b => { b with host := levels.repeat (·.leave) b.host }
      return (a, b.host.isHeldBy b.thread)) := by
    apply within_bind custody_frame h
    intro a
    apply within_bind custody_frame (within_get custody_frame)
    intro b
    apply within_bind custody_frame
    · exact within_modify_same custody_frame (fun _ => rfl) fun _ => rfl
    · exact fun _ => within_pure custody_frame _
  unfold inLevels
  simp only
  split
  · exact within_bind custody_frame (within_enterHost custody_frame levels) fun _ => hrest
  · exact hrest

private theorem custody_step? {r r' : Rehearsal} {s : RehearsalStep} {report : StepReport}
    (h : r.step? s = some (report, r')) : Custody r.bridge r'.bridge := by
  unfold step? at h
  split at h
  · next hrun =>
    cases h
    exact (custody_inLevels _ (r.custody_perform s)).ok hrun
  · cases h

/-- Between the steps of a rehearsal nothing is buffered and no token is in flight. -/
theorem calm_of_play? {p : RehearsalPlan} {steps : List RehearsalStep} {reports : List StepReport}
    {r : Rehearsal} (h : (ofPlan p).play? steps = some (reports, r)) :
    r.bridge.native.Calm ∧ r.bridge.native.inFlight = [] := by
  suffices hsteps : ∀ r₀ : Rehearsal, ∀ reports,
      r₀.bridge.native.Calm ∧ r₀.bridge.native.inFlight = [] →
      r₀.play? steps = some (reports, r) →
      r.bridge.native.Calm ∧ r.bridge.native.inFlight = [] from
    hsteps (ofPlan p) _ ⟨rfl, rfl⟩ h
  clear h
  induction steps with
  | nil =>
    intro r₀ reports hcalm hplay
    cases hplay
    exact hcalm
  | cons s rest ih =>
    intro r₀ reports hcalm hplay
    obtain ⟨⟨report, r₁⟩, hstep, hplay⟩ := Option.bind_eq_some_iff.mp hplay
    obtain ⟨⟨reports', r₂⟩, hrest, heq⟩ := Option.bind_eq_some_iff.mp hplay
    cases heq
    obtain ⟨hcalm₁, hflight, _⟩ := custody_step? hstep hcalm.1
    exact ih r₁ _ ⟨hcalm₁, hflight.trans hcalm.2⟩ hrest

end Rehearsal

end BrokerBridge
