import BrokerBridge.Proofs.Replay.Alternation

/-!
# What the host hears after a stop

A client that has been stopped tells the host of no event of the session until a start arrives,
whatever programs go on and however deep their callbacks are nested. Only a report of the host's
health that was being made when the client was stopped is made to its end.
-/

namespace BrokerBridge

open Act

def NativeCall.isStart : NativeCall → Bool
  | .start _ => true
  | _ => false

def Stage.starts (n : Stage) : Nat := n.arrived.countP (·.isStart)

private theorem Stage.starts_checked (n : Stage) (call : NativeCall) :
    (n.checked call).starts = n.starts + if call.isStart then 1 else 0 := by
  rw [starts, starts, checked, List.countP_append, List.countP_singleton]

def sessionNews (deliveries : List Delivery) : List Delivery := deliveries.filter (·.isEvent)

theorem sessionNews_append (l₁ l₂ : List Delivery) :
    sessionNews (l₁ ++ l₂) = sessionNews l₁ ++ sessionNews l₂ :=
  List.filter_append ..

/-! ## Stopped clients -/

def Onward (b b' : Bridge Stage) : Prop :=
  b.native.Calm → b'.native.Calm ∧ b.native.starts ≤ b'.native.starts

private theorem onward_frame : Frame Onward where
  same := by
    intro b b' hn hd hcalm
    rw [hn]
    exact ⟨hcalm, Nat.le_refl _⟩
  trans := by
    intro b₁ b₂ b₃ h₁ h₂ hcalm
    obtain ⟨hcalm₂, hstarts₂⟩ := h₁ hcalm
    obtain ⟨hcalm₃, hstarts₃⟩ := h₂ hcalm₂
    exact ⟨hcalm₃, Nat.le_trans hstarts₂ hstarts₃⟩

/-- As long as no start arrives, a stopped client stays stopped, and the host is told this of the
session and nothing else. -/
structure Mute (news : List Delivery) (b b' : Bridge Stage) : Prop where
  stopped : b'.native.ledger.started = false
  told : sessionNews b'.deliveries = sessionNews b.deliveries ++ news

def Muted (news : List Delivery) (b b' : Bridge Stage) : Prop :=
  b.native.Calm → (b'.native.Calm ∧ b.native.starts ≤ b'.native.starts) ∧
    (b.native.ledger.started = false → b'.native.starts = b.native.starts → Mute news b b')

namespace Muted

private theorem onward {news : List Delivery} {b b' : Bridge Stage} (h : Muted news b b') :
    Onward b b' :=
  fun hcalm => (h hcalm).1

private theorem comp {news more : List Delivery} {b₁ b₂ b₃ : Bridge Stage} (h₁ : Muted news b₁ b₂)
    (h₂ : Muted more b₂ b₃) : Muted (news ++ more) b₁ b₃ := by
  intro hcalm
  obtain ⟨⟨hcalm₂, hle₂⟩, hmute₂⟩ := h₁ hcalm
  obtain ⟨⟨hcalm₃, hle₃⟩, hmute₃⟩ := h₂ hcalm₂
  refine ⟨⟨hcalm₃, Nat.le_trans hle₂ hle₃⟩, fun hstopped hstarts => ?_⟩
  -- a start that arrived in one of the parts would have arrived in the whole
  have hstarts₂ : b₂.native.starts = b₁.native.starts := by omega
  have hstarts₃ : b₃.native.starts = b₂.native.starts := by omega
  obtain ⟨hstopped₂, htold₂⟩ := hmute₂ hstopped hstarts₂
  obtain ⟨hstopped₃, htold₃⟩ := hmute₃ hstopped₂ hstarts₃
  exact ⟨hstopped₃, by rw [htold₃, htold₂, List.append_assoc]⟩

private theorem between {news : List Delivery} {b₁ b₂ b₃ b₄ : Bridge Stage}
    (hbefore : Muted [] b₁ b₂)
    (h : Muted news b₂ b₃) (hafter : Muted [] b₃ b₄) : Muted news b₁ b₄ := by
  have hall := (hbefore.comp h).comp hafter
  rwa [List.nil_append, List.append_nil] at hall

private theorem of_started {news : List Delivery} {b b' : Bridge Stage}
    (hstarted : b.native.ledger.started = true) (h : Onward b b') : Muted news b b' := by
  intro hcalm
  refine ⟨h hcalm, fun hstopped => ?_⟩
  rw [hstarted] at hstopped
  cases hstopped

private theorem of_start {news : List Delivery} {b b' : Bridge Stage}
    (h : b.native.Calm → b'.native.Calm ∧ b.native.starts < b'.native.starts) :
    Muted news b b' := by
  intro hcalm
  obtain ⟨hcalm', hlt⟩ := h hcalm
  exact ⟨⟨hcalm', Nat.le_of_lt hlt⟩, fun _ hstarts => absurd hstarts (Nat.ne_of_gt hlt)⟩

private theorem of_books {b b' : Bridge Stage} (hdeliveries : b'.deliveries = b.deliveries)
    (hstarts : b.native.starts ≤ b'.native.starts)
    (hbuffers : b'.native.ledger.buffers = b.native.ledger.buffers)
    (hstopped : b.native.ledger.started = false → b'.native.ledger.started = false) :
    Muted [] b b' := by
  intro hcalm
  refine ⟨⟨hbuffers.trans hcalm, hstarts⟩, fun hbefore _ => ⟨hstopped hbefore, ?_⟩⟩
  rw [hdeliveries, List.append_nil]

end Muted

private theorem muted_frame : Frame (Muted []) where
  same {b b'} hn hd := by
    have hstarts : b.native.starts = b'.native.starts := by rw [hn]
    have hledger : b'.native.ledger = b.native.ledger := by rw [hn]
    refine .of_books hd (Nat.le_of_eq hstarts) (congrArg Ledger.buffers hledger) ?_
    rw [hledger]
    exact id
  trans := Muted.comp

namespace Stage

private theorem muted_apart {b : Bridge Stage} {n : Stage} (hledger : n.ledger = b.native.ledger)
    (harrived : n.arrived = b.native.arrived) : Muted [] b { b with native := n } := by
  refine .of_books rfl ?_ ?_ ?_
  · show b.native.starts ≤ n.starts
    exact Nat.le_of_eq (by rw [starts, starts, harrived])
  · exact congrArg Ledger.buffers hledger
  · intro hstopped
    show n.ledger.started = false
    rw [hledger]
    exact hstopped

private theorem muted_update {b : Bridge Stage} {l : Ledger} (hupdate : b.native.ledger.Update l)
    (hbuffers : l.buffers = b.native.ledger.buffers) :
    Muted [] b { b with native := { b.native with ledger := l } } :=
  .of_books rfl (Nat.le_refl _) hbuffers fun hstopped => hupdate.started_eq.trans hstopped

private theorem muted_observe (call : NativeCall) : Follows (fun _ => Muted []) (observe call) :=
  follows_observe fun b _ _ =>
    .of_books rfl (by
      show b.native.starts ≤ (b.native.checked call).starts
      rw [starts_checked]
      exact Nat.le_add_right ..) rfl id

private theorem muted_assembles : Assembles fun a _ => Follows (fun _ => Muted []) a where
  toClosed := closed_follows muted_frame.composes
  checks := muted_observe
  closes q := follows_onNative fun _ => muted_update (.closeQueue q) (Ledger.buffers_closeQueue ..)
  apart hf := follows_onNative fun b => muted_apart (hf b.native).ledger (hf b.native).arrived
  opens uri flags options := follows_onNative fun _ =>
    muted_update (.openQueue uri flags options) (Ledger.buffers_openQueue ..)
  drops uri := follows_modify fun _ =>
    muted_update (.dropQueue uri) (Ledger.buffers_dropQueue ..)
  keeps tokens _ _ h :=
    follows_holding muted_frame.composes (fun _ _ => muted_apart rfl rfl) tokens h

private theorem muted_stop : Within (Muted []) stop := by
  refine Follows.within (closed_stop muted_assembles.toServes ?_)
  exact follows_modify fun _ => .of_books rfl (Nat.le_refl _) rfl fun _ => rfl

private theorem muted_configureQueue (q : QueueHandle) (options : QueueOptions)
    (timeout : Duration) :
    Within (Muted []) (configureQueue q options timeout) := by
  refine Follows.within (closed_configureQueue muted_assembles.toServes ?_ ?_ q options timeout)
  · exact fun q options => follows_onNative fun _ =>
      muted_update (.configureQueue q options) (Ledger.buffers_configureQueue ..)
  · exact fun q options => follows_modify fun _ => muted_update (.resetOptions q options) rfl

/-! ### Host code -/

private theorem muted_inHost {α : Type} {news : List Delivery} {body : Act Stage α}
    (h : Within (Muted news) body) : Within (Muted news) (inHost body) :=
  within_inHost_between muted_frame Muted.between h

private theorem onward_of_muted {α : Type} {news : List Delivery} {a : Act Stage α}
    (h : Within (Muted news) a) : Follows (fun _ => Onward) a :=
  (h.mono fun _ _ => Muted.onward).follows

private theorem onward_serves : Serves fun a _ => Follows (fun _ => Onward) a where
  toClosed := closed_follows onward_frame.composes
  checks call := onward_of_muted (muted_observe call).within
  settles call code := onward_of_muted (muted_assembles.settles call code).within
  closes q := onward_of_muted (muted_assembles.closes q).within

/-- A start that arrives is one more, whether or not it is expected. -/
theorem starts_of_observe {timeout : Duration} {b b' : Bridge Stage}
    (h : (observe (.start timeout)).Ends b b') :
    b'.native.ledger = b.native.ledger ∧ b'.native.starts = b.native.starts + 1 := by
  rw [eq_of_observe h]
  exact ⟨rfl, starts_checked ..⟩

section

variable {host : HostCode Stage} (hhost : ∀ d, Within (Muted []) (host d))

include hhost

private theorem muted_callHost (d : Delivery) : Within (Muted (sessionNews [d]))
    (callHost host d) where
  ok {b u b'} h := by
    obtain ⟨_, b₁, hdeliver, h⟩ := bind_eq_ok.mp h
    cases hdeliver
    obtain ⟨outcome, b₂, hended, hreturned⟩ := bind_eq_ok.mp h
    have hdelivered : Muted (sessionNews [d]) b
        { b with delivering := b.delivering + 1, deliveries := b.deliveries ++ [d] } :=
      fun hcalm => ⟨⟨hcalm, Nat.le_refl _⟩, fun hstopped _ => ⟨hstopped, sessionNews_append ..⟩⟩
    have hcalled := hdelivered.comp ((within_attempt (hhost d)).ok hended)
    have hall := hcalled.comp ((within_hostReturned muted_frame d outcome).ok hreturned)
    rwa [List.append_nil, List.append_nil] at hall
  panic h := absurd h (neverPanics_callHost host d _ _ _)

private theorem muted_tell (e : NativeEvent) : Within (Muted (toldOf e)) (e.tell host) := by
  cases e with
  | session e => exact muted_inHost (muted_callHost hhost (.notification (.event (.ofEvent e))))
  | message e =>
    refine Follows.within (@closed_tellMessage _ _ (closed_follows muted_frame.composes) host host
      (fun d hd => ?_) e)
    have hcall := muted_callHost hhost d
    have hnone : sessionNews [d] = [] := List.filter_cons_of_neg (ne_true_of_eq_false hd)
    rw [hnone] at hcall
    exact hcall.follows

private theorem muted_passOn (e : NativeEvent) : Within (Muted (toldOf e)) (passOn host e) := by
  refine within_passOn (within_holding (fun b b₁ h => ?_) (muted_tell hhost e))
  have hheld : Muted [] b { b with native :=
      { b.native with inFlight := tokensOf e ++ b.native.inFlight } } := muted_apart rfl rfl
  exact hheld.between h (muted_apart rfl rfl)

private theorem muted_passAll {l : List NativeEvent} {b b' : Bridge Stage} {u : Unit}
    (h : passAll host l b = .ok u b') : Muted (l.flatMap toldOf) b b' := by
  induction l generalizing b with
  | nil =>
    cases h
    exact muted_frame.same rfl rfl
  | cons e rest ih =>
    obtain ⟨_, b₁, hpass, hrest⟩ := bind_eq_ok.mp h
    rw [List.flatMap_cons]
    exact ((muted_passOn hhost e).ok hpass).comp (ih hrest)

/-- A client that is stopped does not report a change of the host's health. -/
theorem muted_healthChanged (health : HealthState) :
    Within (Muted []) (healthChanged host health) := by
  have hends {b b' : Bridge Stage} (h : (healthChanged host health).Ends b b') :
      Muted [] b b' := by
    have hnoted : Muted [] b { b with native :=
        { b.native with ledger := (b.native.ledger.setHealth health).2 } } :=
      muted_update (.setHealth health) (b.native.ledger.buffers_setHealth health)
    rw [Ends, healthChanged_apply] at h
    cases hstarted : b.native.ledger.started with
    | true =>
      rw [if_pos hstarted] at h
      have hpasses : Follows (fun _ => Onward) (passAll host
          (healthReports health (b.native.ledger.setHealth health).1)) :=
        @closed_passAll _ (closed_follows onward_frame.composes) host host _
          fun e _ => onward_of_muted (muted_passOn hhost e)
      have hreported := (within_inHost onward_frame hpasses.within).ends h
      exact .of_started hstarted (onward_frame.trans hnoted.onward hreported)
    | false =>
      rw [if_neg (hstarted ▸ Bool.false_ne_true)] at h
      cases eq_of_ends_pure h
      exact hnoted
  exact ⟨fun h => hends (.inl ⟨_, h⟩), fun h => hends (.inr ⟨_, h⟩)⟩

private theorem muted_setHealth (health : HealthState) : Within (Muted [])
    (setHealth host health) := by
  apply within_bind muted_frame
  · exact within_onNative fun _ => muted_apart rfl rfl
  intro listeners
  exact within_forM muted_frame fun _ _ => muted_healthChanged hhost health

private theorem muted_start (timeout : Duration) : Within (Muted []) (start host timeout) := by
  have hmarks (started : Bool) : Follows (fun _ => Onward) (modifyLedger ({ · with started })) :=
    follows_modify fun _ hcalm => ⟨hcalm, Nat.le_refl _⟩
  have hchecked : Follows (fun _ => Onward) (startChecked host timeout) :=
    @closed_startChecked _ onward_serves host host (hmarks true) (hmarks false)
      (onward_of_muted (muted_passOn hhost _)) timeout
  have hends {b b' : Bridge Stage} (h : (start host timeout).Ends b b') : Muted [] b b' := by
    refine .of_start fun hcalm => ?_
    rw [start_eq] at h
    rcases ends_of_bind h with ⟨_, b₁, hobserve, hrest⟩ | ⟨cause, hobserve⟩
    · obtain ⟨hledger, hstarts⟩ := starts_of_observe (.inl ⟨_, hobserve⟩)
      have hcalm₁ : b₁.native.Calm := (congrArg Ledger.buffers hledger).trans hcalm
      obtain ⟨hcalm', hle⟩ := hchecked.within.ends hrest hcalm₁
      exact ⟨hcalm', by omega⟩
    · obtain ⟨hledger, hstarts⟩ := starts_of_observe (.inr ⟨_, hobserve⟩)
      exact ⟨(congrArg Ledger.buffers hledger).trans hcalm, by omega⟩
  exact ⟨fun h => hends (.inl ⟨_, h⟩), fun h => hends (.inr ⟨_, h⟩)⟩

private theorem muted_client : (client host).Within (Muted []) := by
  have hpass (e : MessageEvent) : Follows (fun _ => Muted []) (passOn host (.message e)) :=
    (muted_passOn hhost (.message e)).follows
  have hserves := muted_assembles.toServes
  exact
    { start := muted_start hhost
      stop := muted_stop
      openQueue := fun uri flags options timeout => Follows.within <|
        @closed_openQueue _ muted_assembles host host hpass uri flags options timeout
      configureQueue := muted_configureQueue
      closeQueue := fun q timeout => (closed_closeQueue hserves q timeout).within
      queue? := fun uri => (closed_queue? hserves uri).within
      post := fun e => within_bind muted_frame (muted_observe _).within fun _ =>
        within_bufferPost <| within_inHost muted_frame <| Follows.within <|
          @closed_decidePost _ muted_assembles host host hpass _ e
      confirm := fun q guid => (closed_confirm hserves q guid).within }

end

end Stage

/-! ## Programs after a stop -/

private theorem Session.Program.muted {α : Type} {s : Session Stage} {host : HostCode Stage}
    {lifecycle : Bool} (hs : s.client = Stage.client host)
    (hhost : ∀ d, Within (Muted []) (host d)) {a : Act Stage α}
    (h : s.Program host lifecycle a) : Within (Muted []) a := by
  have hclient : s.client.Within (Muted []) := by
    rw [hs]
    exact Stage.muted_client hhost
  refine h.within muted_frame hclient (Stage.muted_setHealth hhost) fun haside _ => ?_
  exact within_modifyNative fun b =>
    Stage.muted_apart (haside b.native).ledger (haside b.native).arrived

private theorem HostCode.Layered.muted {lifecycle : Bool} {host : HostCode Stage}
    (h : host.Layered lifecycle) (d : Delivery) : Within (Muted []) (host d) :=
  h.within muted_frame (fun hinner hs _ hprogram => hprogram.muted hs hinner) d

/-- What goes on after a stop: programs on sessions of the client, what is left of reports of the
host's health, and whatever leaves the books, the calls that have arrived and the deliveries
alone. -/
inductive Stage.Aftermath (b : Bridge Stage) : List NativeEvent → Bridge Stage → Prop where
  | none : Aftermath b [] b
  | program {α : Type} {left : List NativeEvent} {b₁ b₂ : Bridge Stage} {s : Session Stage}
      {host : HostCode Stage} {a : Act Stage α} : Aftermath b left b₁ → host.Layered true →
        s.client = client host → s.Program host true a → a.Ends b₁ b₂ → Aftermath b left b₂
  | report {left rest : List NativeEvent} {b₁ b₂ : Bridge Stage} {host : HostCode Stage}
      {health : HealthState} {affected : List QueueHandle} : Aftermath b left b₁ →
        host.Layered true → rest <:+ healthReports health affected →
          passAll host rest b₁ = .ok () b₂ → Aftermath b (left ++ rest) b₂
  | aside {left : List NativeEvent} {b₁ b₂ : Bridge Stage} : Aftermath b left b₁ →
      b₂.native.ledger = b₁.native.ledger → b₂.native.arrived = b₁.native.arrived →
        b₂.deliveries = b₁.deliveries → Aftermath b left b₂

private theorem Stage.Aftermath.muted {b b' : Bridge Stage} {left : List NativeEvent}
    (h : Stage.Aftermath b left b') : Muted (left.flatMap Stage.toldOf) b b' := by
  induction h with
  | none => exact muted_frame.same rfl rfl
  | program _ hhost hs hprogram hends ih =>
    have hrun := (hprogram.muted hs hhost.muted).ends hends
    have hall := ih.comp hrun
    rwa [List.append_nil] at hall
  | report _ hhost _ hpass ih =>
    rw [List.flatMap_append]
    exact ih.comp (muted_passAll hhost.muted hpass)
  | aside _ hledger harrived hdeliveries ih =>
    have hstarts := congrArg (List.countP NativeCall.isStart) harrived
    have hsame := ih.comp (.of_books hdeliveries (Nat.le_of_eq hstarts.symm)
      (congrArg Ledger.buffers hledger) fun hstopped => by rw [hledger, hstopped])
    rwa [List.append_nil] at hsame

namespace Session

open Stage

/-- Once a stop has returned, and until a start arrives, the client is stopped, and the host is told
of no event of the session but of what is left of the reports that were being made to it. A stop
that is made while a start goes on finds a session that is not started yet, and does nothing. -/
theorem told_after_stop {s : Session Stage} {host : HostCode Stage}
    (hs : s.client = Stage.client host) (hhost : host.Layered true) {warn : Bool}
    {b b₁ b₂ : Bridge Stage} {r : Except SessionError Unit} {left : List NativeEvent}
    (hcalm : b.native.Calm) (hagree : b.native.ledger.started = true → b.gate.started = true)
    (hstop : (s.stop warn).run b = .ok r b₁) (hafter : Aftermath b₁ left b₂)
    (hstarts : b₂.native.starts = b₁.native.starts) :
    b₂.native.ledger.started = false ∧
      sessionNews b₂.deliveries = sessionNews b₁.deliveries ++ left.flatMap toldOf := by
  have hprogram : s.Program host true (s.stop warn).run := .stop warn rfl
  obtain ⟨⟨hcalm₁, _⟩, _⟩ := (hprogram.muted hs hhost.muted).ok hstop hcalm
  have hstopped : b₁.native.ledger.started = false := by
    rw [ledger_started_of_stop hs hstop]
    cases hstarted : b.native.ledger.started with
    | false => rfl
    | true => rw [hagree hstarted, Bool.not_true, Bool.and_false]
  obtain ⟨_, hmute⟩ := hafter.muted hcalm₁
  obtain ⟨hstopped₂, htold⟩ := hmute hstopped hstarts
  exact ⟨hstopped₂, htold⟩

/-- A stopped session does not hear that the host turns unhealthy; a report that had been begun
goes on. -/
theorem told_after_stop_of_report : ∃ b₀ b b₁ b₂ b₃ r,
    Stage.create watchful.options { native := {} } = .ok () b₀ ∧
    (watchful.stop false).run b = .ok r b₁ ∧ b.native.ledger.started = true ∧
    Stage.setHealth quietHost .unhealthy b₁ = .ok () b₂ ∧
    passAll quietHost [healthReport .queueSuspended (some sensitive)] b₂ = .ok () b₃ ∧
    sessionNews b₃.deliveries = sessionNews b₁.deliveries ++
      [.notification (.event (.ofEvent
        ⟨SessionEventKind.queueSuspended.code, 0, "", some sensitive⟩))] := by
  have hrun : (match Stage.create watchful.options { native := {} } with
      | .ok () b₀ => match (watchful.start none).run b₀ with
        | .ok (.ok ()) b => match (watchful.stop false).run b with
          | .ok _ b₁ => match Stage.setHealth quietHost .unhealthy b₁ with
            | .ok () b₂ => match passAll quietHost
                [healthReport .queueSuspended (some sensitive)] b₂ with
              | .ok () b₃ => b.gate.started && b.native.ledger.started &&
                  b.native.ledger.posted == [] && b.native.ledger.pending == [] &&
                  b₃.native.starts == b₁.native.starts
              | _ => false
            | _ => false
          | _ => false
        | _ => false
      | _ => false) = true := by decide +kernel
  split at hrun
  case h_2 => cases hrun
  case h_1 b₀ hcreate =>
  split at hrun
  case h_2 => cases hrun
  case h_1 b hstart =>
  split at hrun
  case h_2 => cases hrun
  case h_1 r b₁ hstop =>
  split at hrun
  case h_2 => cases hrun
  case h_1 b₂ hset =>
  split at hrun
  case h_2 => cases hrun
  case h_1 b₃ hpass =>
  simp only [Bool.and_eq_true, beq_iff_eq] at hrun
  obtain ⟨⟨⟨⟨hgate, hstarted⟩, hposted⟩, hpending⟩, hstarts⟩ := hrun
  have hhost : HostCode.Layered true quietHost := HostCode.layered_ending _
  have hcalm : b.native.Calm := Prod.ext hposted hpending
  have hset' : Aftermath b₁ [] b₂ :=
    Aftermath.none.program hhost rfl (s := watchful) (.setHealth .unhealthy) (.inl ⟨_, hset⟩)
  have hrest : [healthReport .queueSuspended (some sensitive)] <:+
      healthReports .unhealthy [sensitive] := ⟨[healthReport .hostUnhealthy none], rfl⟩
  obtain ⟨_, htold⟩ := told_after_stop rfl hhost hcalm (fun _ => hgate) hstop
    (hset'.report hhost hrest hpass) hstarts
  exact ⟨b₀, b, b₁, b₂, b₃, r, hcreate, hstop, hstarted, hset, hpass, htold⟩

def resigning (s : Session Stage) : HostCode Stage := fun d => do
  let _ ← (s.stop false).run
  let deliveries := (← get).deliveries
  RehearsalPlan.noteReaction ⟨d.kind, .session (.stop false), .count deliveries.length⟩
  return .ok

def resigned : Session Stage := watchful.withClient (Stage.client (resigning watchful))

def onlyEvents? (deliveries : List Delivery) : Option (List SessionRecord) :=
  deliveries.mapM fun
    | .notification (.event r) => some r
    | _ => none

def countedFirst? (n : Stage) : Option Nat :=
  match n.diary.reactions with
  | ⟨_, _, .count k⟩ :: _ => some k
  | _ => none

/-- The host stops the session as it is told that it has turned unhealthy. The stop has returned
when one delivery has been made, no start arrives after it, and the suspended queue is delivered
all the same. -/
theorem suspension_told_after_stop : ∃ b₀ b₁ b₂ b,
    Stage.create resigned.options { native := {} } = .ok () b₀ ∧
    (resigned.start none).run b₀ = .ok (.ok ()) b₁ ∧
    (resigned.openQueue "bmq://d/q" true true { suspendsOnBadHostHealth := true } none).run b₁ =
      .ok (.ok ()) b₂ ∧
    Stage.setHealth (resigning watchful) .unhealthy b₂ = .ok () b ∧
    b₂.deliveries.length = 0 ∧ countedFirst? b.native = some 1 ∧ b.gate.started = false ∧
    b.native.starts = b₂.native.starts ∧
    onlyEvents? b.deliveries = some [
      .ofEvent ⟨SessionEventKind.hostUnhealthy.code, 0, "", none⟩,
      .ofEvent ⟨SessionEventKind.queueSuspended.code, 0, "", some sensitive⟩] := by
  have hrun : (match Stage.create resigned.options { native := {} } with
      | .ok () b₀ => match (resigned.start none).run b₀ with
        | .ok (.ok ()) b₁ => match (resigned.openQueue "bmq://d/q" true true
            { suspendsOnBadHostHealth := true } none).run b₁ with
          | .ok (.ok ()) b₂ => match Stage.setHealth (resigning watchful) .unhealthy b₂ with
            | .ok () b => b₂.deliveries.length == 0 && countedFirst? b.native == some 1 &&
                b.gate.started == false && b.native.starts == b₂.native.starts &&
                onlyEvents? b.deliveries == some [
                  .ofEvent ⟨SessionEventKind.hostUnhealthy.code, 0, "", none⟩,
                  .ofEvent ⟨SessionEventKind.queueSuspended.code, 0, "", some sensitive⟩]
            | _ => false
          | _ => false
        | _ => false
      | _ => false) = true := by decide +kernel
  split at hrun
  case h_2 => cases hrun
  case h_1 b₀ hcreate =>
  split at hrun
  case h_2 => cases hrun
  case h_1 b₁ hstart =>
  split at hrun
  case h_2 => cases hrun
  case h_1 b₂ hopen =>
  split at hrun
  case h_2 => cases hrun
  case h_1 b hset =>
  simp only [Bool.and_eq_true, beq_iff_eq] at hrun
  obtain ⟨⟨⟨⟨hnone, hcounted⟩, hstopped⟩, hstarts⟩, htold⟩ := hrun
  exact ⟨b₀, b₁, b₂, b, hcreate, hstart, hopen, hset, hnone, hcounted, hstopped, hstarts, htold⟩

end Session

end BrokerBridge
