import BrokerBridge.Proofs.Replay.Started
import BrokerBridge.Proofs.Replay.Suspension

/-!
# Calls that the host hears nothing of

No call on a queue tells the host that one is suspended or resumed, nor does starting or stopping.
What such a call does to the books is said by one of a few relations: it closes queues at most, or
opens some as well, or it configures them.
-/

namespace BrokerBridge

open Act

namespace Ledger

/-! ## What operations do to the books -/

/-- A call that may configure the queue of an address opens none. The queue is then suspended as
its options ask, or its options are what they were. -/
structure Configures (uri : String) (l l' : Ledger) : Prop where
  health : l'.health = l.health
  length : l.table.states.length ≤ l'.table.states.length
  openQueues : l'.openQueues.Sublist l.openQueues
  others : ∀ r : QueueHandle, r.id < l.table.states.length →
    (∃ q ∈ l.openQueues, q.uri = uri ∧ q.id = r.id) ∨
      ∃ valid, l'.table.state r = { l.table.state r with valid }
  heeds : ∀ q : QueueHandle, q.id < l.table.states.length →
    l'.Heeds q ∨ l'.table.options q = l.table.options q

private theorem Thins.configures {l l' : Ledger} (h : l.Thins l') (uri : String) :
    l.Configures uri l' where
  health := h.health
  length := h.length
  openQueues := h.openQueues
  others r hr := .inr (h.state r hr)
  heeds _ hq := .inr (h.options hq)

private theorem Configures.before {uri : String} {l₁ l₂ l₃ : Ledger} (h₁ : l₁.Thins l₂)
    (h₂ : l₂.Configures uri l₃) : l₁.Configures uri l₃ where
  health := h₂.health.trans h₁.health
  length := Nat.le_trans h₁.length h₂.length
  openQueues := h₂.openQueues.trans h₁.openQueues
  others r hr := by
    obtain ⟨_, hstate₂⟩ := h₁.state r hr
    rcases h₂.others r (Nat.lt_of_lt_of_le hr h₁.length) with ⟨q, hq, hfound⟩ | ⟨valid, hstate₃⟩
    · exact .inl ⟨q, h₁.openQueues.subset hq, hfound⟩
    · exact .inr ⟨valid, by rw [hstate₃, hstate₂]⟩
  heeds q hq := by
    rcases h₂.heeds q (Nat.lt_of_lt_of_le hq h₁.length) with hheeds | hoptions
    · exact .inl hheeds
    · exact .inr (hoptions.trans (h₁.options hq))

private theorem Configures.after {uri : String} {l₁ l₂ l₃ : Ledger} (h₁ : l₁.Configures uri l₂)
    (h₂ : l₂.Thins l₃) : l₁.Configures uri l₃ where
  health := h₂.health.trans h₁.health
  length := Nat.le_trans h₁.length h₂.length
  openQueues := h₂.openQueues.trans h₁.openQueues
  others r hr := by
    refine (h₁.others r hr).imp_right fun ⟨_, hstate₂⟩ => ?_
    obtain ⟨valid, hstate₃⟩ := h₂.state r (Nat.lt_of_lt_of_le hr h₁.length)
    exact ⟨valid, by rw [hstate₃, hstate₂]⟩
  heeds q hq := by
    have hlt := Nat.lt_of_lt_of_le hq h₁.length
    rcases h₁.heeds q hq with hheeds | hoptions
    · exact .inl (h₂.heeds hlt hheeds)
    · exact .inr ((h₂.options hlt).trans hoptions)

private theorem configures_configureQueue (l : Ledger) (q : QueueHandle) (options : QueueOptions) :
    l.Configures q.uri (l.configureQueue q options).2 where
  health := l.health_configureQueue q options
  length := Nat.le_of_eq (l.length_configureQueue q options).symm
  openQueues := by simp [openQueues_configureQueue]
  others r hr := by
    by_cases hcurrent : l.isCurrent q = true
    case neg =>
      rw [configureQueue, if_neg hcurrent]
      exact .inr ⟨_, rfl⟩
    by_cases hq : q.id = r.id
    · obtain ⟨known, hopen, huri, hid⟩ := open_of_isCurrent hcurrent
      exact .inl ⟨known, hopen, huri, hid.trans hq⟩
    · rw [state_configureQueue hcurrent hr, if_neg hq]
      exact .inr ⟨_, rfl⟩
  heeds r hr := by
    by_cases hcurrent : l.isCurrent q = true
    case neg =>
      rw [configureQueue, if_neg hcurrent]
      exact .inr rfl
    by_cases hq : q.id = r.id
    · exact .inl (heeds_configureQueue hcurrent hr hq options)
    · have hstate := state_configureQueue hcurrent hr options
      rw [if_neg hq] at hstate
      exact .inr (congrArg QueueState.options hstate)

/-- A queue whose configuring is rejected has its options back, whatever becomes of its flag. -/
theorem configures_resetOptions (l : Ledger) (q : QueueHandle) (options : QueueOptions) :
    l.Configures q.uri ((l.configureQueue q options).2.resetOptions q (l.table.options q)) where
  health := l.health_configureQueue q options
  length := by
    show _ ≤ ((l.configureQueue q options).2.table.setOptions q _).states.length
    simp [QueueTable.setOptions, length_configureQueue]
  openQueues := by
    show (l.configureQueue q options).2.openQueues.Sublist _
    simp [openQueues_configureQueue]
  others r hr := by
    by_cases hq : q.id = r.id
    case neg =>
      refine ((l.configures_configureQueue q options).others r hr).imp_right fun h => ?_
      rwa [resetOptions, QueueTable.setOptions, QueueTable.state_modify_of_ne hq]
    by_cases hcurrent : l.isCurrent q = true
    · obtain ⟨known, hopen, huri, hid⟩ := open_of_isCurrent hcurrent
      exact .inl ⟨known, hopen, huri, hid.trans hq⟩
    · have hsame : l.table.options q = l.table.options r := by
        rw [QueueTable.options, QueueTable.options, QueueTable.state, QueueTable.state, hq]
      rw [configureQueue, if_neg hcurrent, resetOptions, QueueTable.setOptions,
        QueueTable.state_modify_of_eq hq hr, hsame]
      exact .inr ⟨_, rfl⟩
  heeds r hr := by
    right
    show ((QueueTable.setOptions _ q (l.table.options q)).state r).options = _
    by_cases hq : q.id = r.id
    · have hsame : l.table.options q = l.table.options r := by
        rw [QueueTable.options, QueueTable.options, QueueTable.state, QueueTable.state, hq]
      rw [QueueTable.setOptions, QueueTable.state_modify_of_eq hq (by rwa [length_configureQueue])]
      exact hsame
    · rw [QueueTable.setOptions, QueueTable.state_modify_of_ne hq]
      by_cases hcurrent : l.isCurrent q = true
      · rw [state_configureQueue hcurrent hr, if_neg hq]
        rfl
      · rw [configureQueue, if_neg hcurrent]
        rfl

structure Lenient (R : Ledger → Ledger → Prop) : Prop where
  thins : ∀ {l l'}, Thins l l' → R l l'
  trans : ∀ {l₁ l₂ l₃}, R l₁ l₂ → R l₂ l₃ → R l₁ l₃

theorem lenient_thins : Lenient Thins := ⟨id, Thins.trans⟩

theorem lenient_grows : Lenient Grows := ⟨Thins.grows, Grows.trans⟩

structure Proceeds (l l' : Ledger) : Prop where
  health : l'.health = l.health
  length : l.table.states.length ≤ l'.table.states.length
  openQueues : ∀ q ∈ l'.openQueues, q ∈ l.openQueues ∨
    l.table.states.length ≤ q.id ∧ q.id < l'.table.states.length ∧ l'.Heeds q
  distinct : l.Known → l.Distinct → l'.Distinct
  heeds : ∀ q : QueueHandle, q.id < l.table.states.length →
    l'.Heeds q ∨ l'.table.options q = l.table.options q

theorem Grows.proceeds {l l' : Ledger} (h : l.Grows l') : l.Proceeds l' where
  health := h.health
  length := h.length
  openQueues := h.openQueues
  distinct := h.distinct
  heeds _ hq := .inr (h.options hq)

theorem Configures.proceeds {uri : String} {l l' : Ledger} (h : l.Configures uri l') :
    l.Proceeds l' where
  health := h.health
  length := h.length
  openQueues _ hq := .inl (h.openQueues.subset hq)
  distinct _ hdistinct := hdistinct.sublist (h.openQueues.map _)
  heeds := h.heeds

end Ledger

/-! ## What the host hears -/

def Delivery.suspension? : Delivery → Option (String × Bool)
  | .notification n =>
      match Notice.classify n with
      | .queue .suspended uri _ => some (uri, true)
      | .queue .resumed uri _ => some (uri, false)
      | _ => none
  | _ => none

def suspensions (deliveries : List Delivery) : List (String × Bool) :=
  deliveries.filterMap Delivery.suspension?

theorem suspensions_append (l₁ l₂ : List Delivery) :
    suspensions (l₁ ++ l₂) = suspensions l₁ ++ suspensions l₂ :=
  List.filterMap_append

private theorem Delivery.suspension?_of_isEvent {d : Delivery} (h : d.isEvent = false) :
    d.suspension? = none := by
  cases d with
  | notification n =>
    cases n with
    | event r => cases h
    | diagnostic text => rfl
  | messages batch => rfl
  | acks batch => rfl

structure Aloof (b b' : Bridge Stage) : Prop where
  ledger : b'.native.ledger = b.native.ledger
  monitor : b'.native.monitor = b.native.monitor
  deliveries : b'.deliveries = b.deliveries

theorem aloof_frame : Frame Aloof where
  same hn hd := ⟨congrArg Stage.ledger hn, congrArg Stage.monitor hn, hd⟩
  trans h₁ h₂ := ⟨h₂.ledger.trans h₁.ledger, h₂.monitor.trans h₁.monitor,
    h₂.deliveries.trans h₁.deliveries⟩

def HostCode.Detached (host : HostCode Stage) : Prop := ∀ d, Within Aloof (host d)

theorem HostCode.detached_ending (outcome : DeliveryKind → HostOutcome) :
    HostCode.Detached (.ending outcome) :=
  fun d => within_pure aloof_frame (outcome d.kind)

/-- Where no event waits, none is left waiting, and the books change in some way while the host
hears nothing of a suspension. -/
def Hushed (R : Ledger → Ledger → Prop) (b b' : Bridge Stage) : Prop :=
  b.native.ledger.pending = [] →
    b'.native.ledger.pending = [] ∧ R b.native.ledger b'.native.ledger ∧
      ∃ new, b'.deliveries = b.deliveries ++ new ∧ suspensions new = []

theorem hushed_of_books {R : Ledger → Ledger → Prop} {b b' : Bridge Stage}
    (hdeliveries : b'.deliveries = b.deliveries)
    (hpending : b'.native.ledger.pending = b.native.ledger.pending)
    (hledger : R b.native.ledger b'.native.ledger) : Hushed R b b' :=
  fun hnone => ⟨hpending.trans hnone, hledger, [], by rw [hdeliveries, List.append_nil], rfl⟩

private theorem Aloof.hushed {R : Ledger → Ledger → Prop} (hR : Ledger.Lenient R)
    {b b' : Bridge Stage}
    (h : Aloof b b') : Hushed R b b' := by
  refine hushed_of_books h.deliveries (congrArg Ledger.pending h.ledger) ?_
  rw [h.ledger]
  exact hR.thins (Ledger.thins_refl _)

theorem Hushed.mono {R R' : Ledger → Ledger → Prop} (hR : ∀ {l l'}, R l l' → R' l l')
    {b b' : Bridge Stage} (h : Hushed R b b') : Hushed R' b b' := by
  intro hpending
  obtain ⟨hpending', hledger, hnew⟩ := h hpending
  exact ⟨hpending', hR hledger, hnew⟩

private theorem Hushed.comp {R₁ R₂ R : Ledger → Ledger → Prop}
    (hR : ∀ {l₁ l₂ l₃}, R₁ l₁ l₂ → R₂ l₂ l₃ → R l₁ l₃) {b₁ b₂ b₃ : Bridge Stage}
    (h₁ : Hushed R₁ b₁ b₂) (h₂ : Hushed R₂ b₂ b₃) : Hushed R b₁ b₃ := by
  intro hpending
  obtain ⟨hpending₂, hledger₂, new₂, hnew₂, hquiet₂⟩ := h₁ hpending
  obtain ⟨hpending₃, hledger₃, new₃, hnew₃, hquiet₃⟩ := h₂ hpending₂
  refine ⟨hpending₃, hR hledger₂ hledger₃, new₂ ++ new₃, ?_, ?_⟩
  · rw [hnew₃, hnew₂, List.append_assoc]
  · rw [suspensions_append, hquiet₂, hquiet₃]
    rfl

theorem hushed_frame {R : Ledger → Ledger → Prop} (hR : Ledger.Lenient R) : Frame (Hushed R) where
  same hn hd := (aloof_frame.same hn hd).hushed hR
  trans := Hushed.comp hR.trans

/-! ## Calls of the client -/

namespace Stage

theorem neverPanics_holding {α : Type} (tokens : List Correlation) {body : Act Stage α}
    (h : NeverPanics body) : NeverPanics (holding tokens body) :=
  neverPanics_bind (neverPanics_modify _) fun _ => neverPanics_ensuring h (neverPanics_modify _)

section

variable {host : HostCode Stage} (hhost : host.Detached)

include hhost

/-- The host is called with the one delivery. -/
theorem callHost_detached (d : Delivery) : Within
    (fun b b' => Aloof { b with deliveries := b.deliveries ++ [d] } b') (callHost host d) where
  ok {b x b'} h := by
    obtain ⟨_, b₁, hdeliver, h⟩ := bind_eq_ok.mp h
    cases hdeliver
    obtain ⟨outcome, b₂, hended, hreturned⟩ := bind_eq_ok.mp h
    have hhost := (within_attempt (hhost d)).ok hended
    have hend := aloof_frame.trans hhost ((within_hostReturned aloof_frame d outcome).ok hreturned)
    exact ⟨hend.ledger, hend.monitor, hend.deliveries⟩
  panic {b cause b'} h := absurd h (neverPanics_callHost host d _ _ _)

end

section

variable {R : Ledger → Ledger → Prop} (hR : Ledger.Lenient R)

include hR

private theorem hushed_apart {b : Bridge Stage} {n : Stage} (h : Apart b.native n) :
    Hushed R b { b with native := n } :=
  Aloof.hushed hR ⟨h.ledger, h.monitor, rfl⟩

theorem hushed_serves : Serves fun a _ => Follows (fun _ => Hushed R) a where
  toClosed := closed_follows (hushed_frame hR).composes
  checks _ := follows_observe fun _ _ _ => Aloof.hushed hR ⟨rfl, rfl, rfl⟩
  settles _ _ := follows_onNative fun _ => hushed_apart hR ⟨rfl, rfl, rfl, rfl, rfl⟩
  closes _ := follows_onNative fun _ =>
    hushed_of_books rfl (congrArg Prod.snd (Ledger.buffers_closeQueue ..))
      (hR.thins (Ledger.thins_closeQueue ..))

/-- Starting and stopping leave their mark in the books, and nothing else. -/
theorem hushed_marks (started : Bool) :
    Follows (fun _ => Hushed R) (modifyLedger ({ · with started })) :=
  follows_modify fun _ => hushed_of_books rfl rfl (hR.thins ⟨.of_table rfl rfl, .refl _⟩)

theorem hushed_stop : Follows (fun _ => Hushed R) stop :=
  closed_stop (hushed_serves hR) (hushed_marks hR false)

end

theorem hushed_grows : Frame (Hushed Ledger.Grows) := hushed_frame Ledger.lenient_grows

private theorem hushed_inFlight (b : Bridge Stage) (inFlight : List Correlation) :
    Hushed Ledger.Grows b { b with native := { b.native with inFlight } } :=
  Aloof.hushed Ledger.lenient_grows ⟨rfl, rfl, rfl⟩

theorem hushed_assembles : Assembles fun a _ => Follows (fun _ => Hushed Ledger.Grows) a where
  toServes := hushed_serves Ledger.lenient_grows
  apart hf := follows_onNative fun b => hushed_apart Ledger.lenient_grows (hf b.native)
  opens uri flags options := follows_onNative fun b =>
    hushed_of_books rfl (congrArg Prod.snd (Ledger.buffers_openQueue ..))
      (b.native.ledger.grows_openQueue uri flags options)
  drops uri := follows_modify fun b =>
    hushed_of_books rfl (congrArg Prod.snd (Ledger.buffers_dropQueue ..))
      (b.native.ledger.thins_dropQueue uri).grows
  keeps tokens _ _ h := follows_holding hushed_grows.composes hushed_inFlight tokens h

private theorem hushed_passOn {host : HostCode Stage} {e : NativeEvent}
    (htell : Follows (fun _ => Hushed Ledger.Grows) (e.tell host)) :
    Follows (fun _ => Hushed Ledger.Grows) (passOn host e) := by
  have hheld := follows_holding hushed_grows.composes hushed_inFlight (tokensOf e) htell
  constructor
  · intro b x b' h hpending
    rw [passOn_apply hpending] at h
    exact hheld.ok h hpending
  · intro b cause b' h hpending
    rw [passOn_apply hpending] at h
    exact hheld.panic h hpending

section

variable {host : HostCode Stage} (hhost : host.Detached)

include hhost

private theorem hushed_callHost {d : Delivery} (hd : d.suspension? = none) :
    Follows (fun _ => Hushed Ledger.Grows) (callHost host d) := by
  refine ((callHost_detached hhost d).mono fun b b' h hpending => ?_).follows
  rw [h.ledger, h.deliveries]
  refine ⟨hpending, b.native.ledger.thins_refl.grows, [d], rfl, ?_⟩
  rw [suspensions, List.filterMap_cons_none hd]
  rfl

theorem hushed_passMessage (e : MessageEvent) :
    Follows (fun _ => Hushed Ledger.Grows) (passOn host (.message e)) := by
  apply hushed_passOn
  exact @closed_tellMessage _ _ hushed_assembles.toClosed host host
    (fun _ hd => hushed_callHost hhost (Delivery.suspension?_of_isEvent hd)) e

theorem hushed_post (e : MessageEvent) :
    Follows (fun _ => Hushed Ledger.Grows) (post host e) := by
  refine @closed_post _ hushed_assembles host host (hushed_passMessage hhost) ?_ ?_ e
  · exact fun e => follows_modify fun _ =>
      hushed_of_books rfl rfl (Ledger.Thins.grows ⟨.of_table rfl rfl, .refl _⟩)
  · exact follows_onNative fun _ =>
      hushed_of_books rfl rfl (Ledger.Thins.grows ⟨.of_table rfl rfl, .refl _⟩)

theorem hushed_passUnhealthy :
    Follows (fun _ => Hushed Ledger.Grows) (passOn host (healthReport .hostUnhealthy none)) := by
  apply hushed_passOn
  exact follows_inHost hushed_grows.composes (hushed_callHost hhost rfl)

end

/-! ### Configuring -/

theorem hushed_absorbs (uri : String) :
    Absorbs (Hushed Ledger.Thins) (Hushed (Ledger.Configures uri)) where
  frame h := h.mono fun hthins => hthins.configures uri
  before := Hushed.comp Ledger.Configures.before
  after := Hushed.comp Ledger.Configures.after

private theorem configureQueue_ok {q : QueueHandle} {options : QueueOptions} {timeout : Duration}
    {b b' : Bridge Stage} {status : QueueStatus}
    (h : configureQueue q options timeout b = .ok status b') :
    b'.native.ledger = (b.native.ledger.configureQueue q options).2 ∨
      b'.native.ledger = (b.native.ledger.configureQueue q options).2.resetOptions q
        (b.native.ledger.table.options q) := by
  obtain ⟨_, b₁, hobserve, h⟩ := bind_eq_ok.mp h
  obtain ⟨hledger₁, _⟩ := observe_ok hobserve
  obtain ⟨_, _, hnative, h⟩ := bind_eq_ok.mp h
  cases hnative
  obtain ⟨configured, b₂, hconfigure, h⟩ := bind_eq_ok.mp h
  obtain ⟨_, hledger₂, _⟩ := ledgerUpdate_ok hconfigure
  rw [hledger₁] at hledger₂ h
  split at h
  · cases h
    exact .inl hledger₂
  obtain ⟨b₃, b₄, hin, h, hout⟩ := inHost_ok h
  obtain ⟨code, b₅, hsettle, h⟩ := bind_eq_ok.mp h
  obtain ⟨_, hledger₅⟩ := settle_ok hsettle
  rw [hin.native, hledger₂] at hledger₅
  rw [hout.native]
  split at h
  · obtain ⟨_, b₆, hreset, h⟩ := bind_eq_ok.mp h
    cases h
    rw [modifyLedger_ok hreset, hledger₅]
    exact .inr rfl
  · cases h
    exact .inl hledger₅

theorem address_of_queue? {uri : String} {q : QueueHandle} {b b' : Bridge Stage}
    (h : queue? uri b = .ok (some q) b') : q.uri = uri := by
  obtain ⟨n, b₁, _, h⟩ := bind_eq_ok.mp h
  cases hfound : n.ledger.queue? uri with
  | none =>
    rw [hfound] at h
    cases h
  | some found =>
    rw [hfound] at h
    have huri := Ledger.uri_of_queue? hfound
    cases hclose : n.closeOnGet with
    | false =>
      rw [hclose] at h
      cases h
      exact huri
    | true =>
      rw [hclose] at h
      obtain ⟨_, _, _, h⟩ := bind_eq_ok.mp h
      obtain ⟨_, _, _, h⟩ := bind_eq_ok.mp h
      cases h
      exact huri

theorem hushed_configureQueue (q : QueueHandle) (options : QueueOptions) (timeout : Duration) :
    Within (Hushed (Ledger.Configures q.uri)) (configureQueue q options timeout) where
  ok {b status b'} h := by
    have hsilent := (silent_configureQueue q options timeout).ok h
    refine hushed_of_books hsilent.deliveries (congrArg Prod.snd hsilent.buffers) ?_
    rcases configureQueue_ok h with hledger | hledger
    · rw [hledger]
      exact Ledger.configures_configureQueue _ q options
    · rw [hledger]
      exact Ledger.configures_resetOptions _ q options
  panic {b cause b'} h := by
    have hserves := hushed_serves Ledger.lenient_thins
    rcases bind_eq_error.mp h with hobserve | ⟨_, b₁, _, h⟩
    · exact (hushed_absorbs q.uri).frame ((hserves.checks _).panic hobserve)
    -- only the check of the call panics
    refine absurd h (neverPanics_bind ?_ (fun n => neverPanics_bind ?_ fun status => ?_) _ _ _)
    · exact neverPanics_bind neverPanics_get fun _ => neverPanics_pure _
    · exact neverPanics_onNative _
    split
    · exact neverPanics_pure _
    · apply neverPanics_inHost
      apply neverPanics_bind (neverPanics_onNative _)
      intro code
      split
      · exact neverPanics_bind (neverPanics_modify _) fun _ => neverPanics_pure _
      · exact neverPanics_pure _

end Stage

/-! ## Calls and the host's health -/

def Unmoved (b b' : Bridge Stage) : Prop := b'.native.monitor = b.native.monitor

theorem unmoved_frame : Frame Unmoved where
  same hn _ := congrArg Stage.monitor hn
  trans h₁ h₂ := h₂.trans h₁

namespace Stage

private theorem unmoved_builds : Builds fun a _ => Follows (fun _ => Unmoved) a where
  toClosed := closed_follows unmoved_frame.composes
  apart hf := follows_onNative fun b => (hf b.native).monitor
  update _ := follows_onNative fun _ => rfl
  revise _ := follows_modify fun _ => rfl
  keeps tokens _ _ h := follows_holding unmoved_frame.composes (fun _ _ => rfl) tokens h
  checks _ := follows_observe fun _ _ _ => rfl

section

variable {host : HostCode Stage} (hhost : host.Detached)

include hhost

private theorem unmoved_callHost (d : Delivery) : Follows (fun _ => Unmoved) (callHost host d) :=
  ((callHost_detached hhost d).mono fun _ _ h => h.monitor).follows

theorem unmoved_healthChanged (health : HealthState) : Within Unmoved (healthChanged host health) :=
  Follows.within
    (@closed_healthChanged _ unmoved_builds.toClosed host host
      (fun _ => @closed_passOn _ unmoved_builds host host (unmoved_callHost hhost) _) health
      (follows_onNative fun _ => rfl))

theorem unmoved_client : NativeClient.Within Unmoved (client host) := by
  have hcalls := @closed_calls _ unmoved_builds host host (unmoved_callHost hhost)
    (follows_modify fun _ => rfl) (follows_modify fun _ => rfl)
  exact
    { start := fun timeout => (hcalls.start timeout).within
      stop := hcalls.stop.within
      openQueue := fun uri flags options timeout =>
        (hcalls.openQueue uri flags options timeout).within
      configureQueue := fun q options timeout => (hcalls.configureQueue q options timeout).within
      closeQueue := fun q timeout => (hcalls.closeQueue q timeout).within
      queue? := fun uri => (hcalls.queue? uri).within
      post := fun e => (hcalls.post e).within
      confirm := fun q guid => (hcalls.confirm q guid).within }

end

end Stage

end BrokerBridge
