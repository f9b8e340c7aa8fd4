import BrokerBridge.Proofs.Session.Balanced

/-!
# Native calls outside host execution

A session steps out of host execution before it calls its client: what the client would do for a
thread that is inside makes no difference to any operation.
-/

namespace BrokerBridge

variable {ν α β ε : Type}

namespace Bridge

def Sound (b : Bridge ν) : Prop := b.host.WellFormed

def Outside (b : Bridge ν) : Prop := b.host.WellFormed ∧ b.host.isHeldBy b.thread = false

structure Ground (G : Bridge ν → Prop) : Prop where
  sound : ∀ {b}, G b → b.Sound
  keeps : ∀ {b b'}, G b → b'.thread = b.thread → b'.host = b.host → G b'

private theorem ground_sound : Ground (Sound (ν := ν)) where
  sound h := h
  keeps h _ hhost := by
    unfold Sound
    rw [hhost]
    exact h

private theorem ground_outside : Ground (Outside (ν := ν)) where
  sound h := h.1
  keeps h hthread hhost := by
    unfold Outside
    rw [hhost, hthread]
    exact h

private theorem outside_leaveAll {b : Bridge ν} (h : b.Sound) :
    Outside { b with host := (b.host.leaveAll b.thread).2 } := by
  have hlock := HostLock.wellFormed_leaveAll (t := b.thread) h
  refine ⟨hlock, (HostLock.isHeldBy_eq_false_iff hlock).mpr ?_⟩
  rw [HostLock.depthOf_leaveAll]
  exact if_pos rfl

end Bridge

namespace Act

open Bridge

/-- One puts everything back, and on some ground the other is the same. -/
structure SameOn (G : Bridge ν → Prop) (a a' : Act ν α) : Prop where
  restores : Restores a
  same : ∀ b, G b → a b = a' b

variable {G : Bridge ν → Prop}

theorem SameOn.refl {a : Act ν α} (h : Restores a) : SameOn G a a := ⟨h, fun _ _ => rfl⟩

private theorem paired_sameOn (hG : Ground G) : Paired (SameOn G) where
  done x := .refl (restores_done x)
  reads := .refl restores_reads
  andThen {α β m m' k k'} hm hk := by
    refine ⟨restores_andThen hm.restores fun x => (hk x).restores, fun b hb => ?_⟩
    have hsame := hm.same b hb
    cases hrun : m b with
    | ok x b₁ =>
      have hfirst := hm.restores.of_ok hrun (hG.sound hb)
      rw [bind_of_ok hrun, bind_of_ok (hsame ▸ hrun)]
      exact (hk x).same b₁ (hG.keeps hb hfirst.thread hfirst.host)
    | error i b₁ => rw [bind_of_error hrun, bind_of_error (hsame ▸ hrun)]

private theorem bind_same {m m' : Act ν α} {k : α → Act ν β} {b : Bridge ν} (h : m b = m' b) :
    (m >>= k) b = (m' >>= k) b := by
  cases hrun : m b with
  | ok x b₁ => rw [bind_of_ok hrun, bind_of_ok (h ▸ hrun)]
  | error i b₁ => rw [bind_of_error hrun, bind_of_error (h ▸ hrun)]

theorem sameOn_attempt {a a' : Act ν α} (h : SameOn G a a') :
    SameOn G (attempt a) (attempt a') where
  restores := restores_attempt h.restores
  same b hb := by rw [attempt, attempt, h.same b hb]

private theorem ensuring_eq {body body' : Act ν α} {cleanup cleanup' : Act ν Unit} {b : Bridge ν}
    (hbody : body b = body' b)
    (hclean : cleanup (final (body b)) = cleanup' (final (body b))) :
    ensuring body cleanup b = ensuring body' cleanup' b := by
  unfold ensuring
  rw [← hbody]
  cases hrun : body b with
  | ok x b₁ =>
    have hafter : cleanup b₁ = cleanup' b₁ := by rwa [hrun] at hclean
    simp only [hafter]
  | error i b₁ =>
    have hafter : cleanup b₁ = cleanup' b₁ := by rwa [hrun] at hclean
    simp only [hafter]

private theorem sameOn_outsideHost {m m' : Act ν α} (h : SameOn Outside m m') :
    SameOn Sound (outsideHost m) (outsideHost m') where
  restores := restores_outside h.restores
  same b hb := by
    have hout : stepOut b = .ok (b.host.leaveAll b.thread).1
        { b with host := (b.host.leaveAll b.thread).2 } := rfl
    rw [outsideHost, outsideHost, bind_of_ok hout, bind_of_ok hout]
    exact ensuring_eq (h.same _ (outside_leaveAll hb)) rfl

private theorem operates_sameOn : Operates (SameOn (Outside (ν := ν))) (SameOn Sound) where
  body := paired_sameOn ground_outside
  whole := paired_sameOn ground_sound
  outside := sameOn_outsideHost

private theorem sameOn_inHost {m m' : Act ν α} (h : SameOn Sound m m') :
    SameOn Sound (inHost m) (inHost m') where
  restores := restores_inside h.restores
  same b hb := by
    rw [inHost, inHost]
    cases hhost : b.host.enter? b.thread 1 with
    | none =>
      have henter : enterHost 1 b = .error .blocked b := by rw [enterHost_apply, hhost]
      rw [bind_of_error henter, bind_of_error henter]
    | some host =>
      have henter : enterHost 1 b = .ok () { b with host } := by rw [enterHost_apply, hhost]
      rw [bind_of_ok henter, bind_of_ok henter]
      exact ensuring_eq (h.same _ (HostLock.wellFormed_enter? Nat.one_pos hhost)) rfl

theorem closed_sameOn : Closed (SameOn (Sound (ν := ν))) where
  toPaired := paired_sameOn ground_sound
  fails i := .refl (restores_fails i)
  inside := sameOn_inHost
  outside h := sameOn_outsideHost ⟨h.restores, fun b hb => h.same b hb.1⟩
  counts f := .refl (closed_restores.counts f)

theorem sameOn_ensuring {body body' : Act ν α} {cleanup : Act ν Unit} (h : SameOn G body body')
    (hclean : Restores cleanup) (hquiet : NeverPanics cleanup) :
    SameOn G (ensuring body cleanup) (ensuring body' cleanup) where
  restores := restores_ensuring h.restores hclean hquiet
  same b hb := ensuring_eq (h.same b hb) rfl

theorem sameOn_callHost {host host' : HostCode ν} {d : Delivery}
    (h : SameOn Sound (host d) (host' d)) :
    SameOn Sound (callHost host d) (callHost host' d) where
  restores := restores_callHost h.restores
  same b hb := by
    have hcalled : (modify fun b => { b with
        delivering := b.delivering + 1, deliveries := b.deliveries ++ [d] } : Act ν Unit) b =
          .ok () { b with delivering := b.delivering + 1, deliveries := b.deliveries ++ [d] } := rfl
    rw [callHost, callHost, bind_of_ok hcalled, bind_of_ok hcalled]
    exact bind_same ((sameOn_attempt h).same _ hb)

private theorem sameOn_onThread (t : ThreadId) {a a' : Act ν α} (h : SameOn Sound a a') :
    SameOn Sound (onThread t a) (onThread t a') where
  restores := restores_onThread t h.restores
  same b hb := by
    have hget : (get : Act ν (Bridge ν)) b = .ok b b := rfl
    have hset : (set { b with thread := t, delivering := 0 } : Act ν PUnit) b =
        .ok ⟨⟩ { b with thread := t, delivering := 0 } := rfl
    rw [onThread, onThread, bind_of_ok hget, bind_of_ok hget, bind_of_ok hset, bind_of_ok hset]
    exact ensuring_eq (h.same _ hb) rfl

def wary (a : Act ν α) : Act ν α := do
  let b ← get
  if b.host.isHeldBy b.thread then panic (.unsupported "call inside host execution") else a

private theorem wary_of_outside {a : Act ν α} {b : Bridge ν} (hb : b.Outside) : a.wary b = a b := by
  have hget : (get : Act ν (Bridge ν)) b = .ok b b := rfl
  rw [wary, bind_of_ok hget, hb.2]
  rfl

end Act

/-! ## Clients -/

namespace NativeClient

open Act

/-- Two clients are the same to every thread that holds no host execution. -/
abbrev AgreesOutside (c c' : NativeClient ν) : Prop :=
  c.Calls (fun a a' => ∀ b, b.Outside → a b = a' b) c'

def wary (c : NativeClient ν) : NativeClient ν where
  start timeout := (c.start timeout).wary
  stop := c.stop.wary
  openQueue uri flags options timeout := (c.openQueue uri flags options timeout).wary
  configureQueue q options timeout := (c.configureQueue q options timeout).wary
  closeQueue q timeout := (c.closeQueue q timeout).wary
  queue? uri := (c.queue? uri).wary
  post e := (c.post e).wary
  confirm q guid := (c.confirm q guid).wary
  builder := c.builder
  queues := c.queues

theorem agreesOutside_wary (c : NativeClient ν) : c.AgreesOutside c.wary where
  start _ _ hb := (Act.wary_of_outside hb).symm
  stop _ hb := (Act.wary_of_outside hb).symm
  openQueue _ _ _ _ _ hb := (Act.wary_of_outside hb).symm
  configureQueue _ _ _ _ hb := (Act.wary_of_outside hb).symm
  closeQueue _ _ _ hb := (Act.wary_of_outside hb).symm
  queue? _ _ hb := (Act.wary_of_outside hb).symm
  post _ _ hb := (Act.wary_of_outside hb).symm
  confirm _ _ _ hb := (Act.wary_of_outside hb).symm
  builder := rfl
  queues := rfl

end NativeClient

/-! ## Sessions -/

namespace Session

open Act Bridge

inductive Call : Type → Type where
  | start (timeout : Option Duration) : Call (Except SessionError Unit)
  | stop (warn : Bool) : Call (Except SessionError Unit)
  | openQueue (uri : String) (read write : Bool) (options : QueueOptions)
      (timeout : Option Duration) : Call (Except SessionError Unit)
  | configureQueue (uri : String) (options : QueueOptions) (timeout : Option Duration) :
      Call (Except SessionError Unit)
  | closeQueue (uri : String) (timeout : Option Duration) : Call (Except SessionError Unit)
  | queueOptions (uri : String) : Call (Except SessionError QueueOptions)
  | post (uri : String) (payload : ByteArray) (properties : Option PropertySet)
      (onAck : Option Correlation) : Call (Except PostFailure Unit)
  | confirm (uri : String) (guid : ByteArray) : Call (Except SessionError Unit)
  | drop : Call Unit

def Call.run (s : Session ν) : {α : Type} → Call α → Act ν α
  | _, start timeout => (s.start timeout).run
  | _, stop warn => (s.stop warn).run
  | _, openQueue uri read write options timeout =>
      (s.openQueue uri read write options timeout).run
  | _, configureQueue uri options timeout => (s.configureQueue uri options timeout).run
  | _, closeQueue uri timeout => (s.closeQueue uri timeout).run
  | _, queueOptions uri => (s.queueOptions uri).run
  | _, post uri payload properties onAck => (s.post uri payload properties onAck).run
  | _, confirm uri guid => (s.confirm uri guid).run
  | _, drop => s.drop

variable {s : Session ν} {c : NativeClient ν} (hc : s.client.Calls (SameOn Outside) c)

include hc

private theorem sameOn_stop (warn : Bool) :
    SameOn Sound (s.stop warn).run ((s.withClient c).stop warn).run :=
  paired_stop operates_sameOn hc.stop (.refl (restores_changeStarted false))
    (fun text => .refl (restores_warn text)) warn

private theorem sameOn_runWaiting (l : List StopRequest) :
    SameOn Sound (s.runWaiting l) ((s.withClient c).runWaiting l) := by
  have hpaired := paired_sameOn (ground_sound (ν := ν))
  induction l with
  | nil => exact hpaired.done _
  | cons r rest ih =>
    apply hpaired.andThen
    · exact sameOn_onThread r.thread (sameOn_attempt (sameOn_stop hc r.warn))
    intro result
    apply hpaired.andThen
    · exact .refl (restores_modify fun _ => ⟨rfl, rfl, fun _ => rfl, rfl, fun _ => rfl⟩)
    · exact fun _ => ih

private theorem leave_same {b : Bridge ν} (hb : b.Sound) : s.leave b =
    (s.withClient c).leave b := by
  have hpaired := paired_sameOn (ground_sound (ν := ν))
  have hlet (s' : Session ν) : s'.leave b = (do
      let g := (← get).gate
      if g.isClear then
        modifyGate fun g => { g with waiting := [] }
        s'.runWaiting g.waiting : Act ν Unit)
          { b with gate := (b.gate.uncount b.thread).release } := rfl
  rw [hlet, hlet]
  refine SameOn.same (G := Sound) (hpaired.andThen hpaired.reads fun b₁ => ?_) _ hb
  simp only
  split
  · apply hpaired.andThen
    · exact .refl (restores_modify fun _ => ⟨rfl, rfl, fun _ => rfl, rfl, fun _ => rfl⟩)
    · exact fun _ => sameOn_runWaiting hc _
  · exact hpaired.done _

private theorem sameOn_entered (stopped : ε) {body body' : Op ν ε α}
    (h : SameOn Outside body.run body'.run) :
    SameOn Outside
      (do
        if ← enter then ensuring body.run s.leave
        else return .error stopped)
      (do
        if ← enter then ensuring body'.run (s.withClient c).leave
        else return .error stopped) where
  restores := restores_entered hc.stop.restores stopped h.restores
  same b hb := by
    have henter := enter_apply b
    split at henter
    · split at henter
      · rw [bind_of_ok henter, bind_of_ok henter, if_pos rfl, if_pos rfl]
        have hinside : Outside { b with gate := b.gate.hold.count b.thread } := hb
        have hbody := h.restores { b with gate := b.gate.hold.count b.thread } hb.1
        refine ensuring_eq (h.same _ hinside) (leave_same hc ?_)
        unfold Sound
        rw [hbody.host]
        exact hb.1
      · rw [bind_of_ok henter, bind_of_ok henter, if_neg Bool.false_ne_true,
          if_neg Bool.false_ne_true]
    · rw [bind_of_error henter, bind_of_error henter]

private theorem sameOn_whileStarted (stopped : ε) {body body' : Op ν ε α}
    (h : SameOn Outside body.run body'.run) :
    SameOn Sound (s.whileStarted stopped body).run
      ((s.withClient c).whileStarted stopped body').run :=
  sameOn_outsideHost (sameOn_entered hc stopped h)

/-- No operation of a session depends on what its client does for a thread inside host code. -/
theorem sameOn_call (call : Call α) : SameOn Sound (call.run s) (call.run (s.withClient c)) := by
  have hs : s.PassesPlain (SameOn Outside) (SameOn Sound) c :=
    { toPlainCalls := hc.toPlainCalls
      whileStarted := sameOn_whileStarted hc }
  cases call with
  | start timeout =>
    exact paired_start operates_sameOn hc.start (.refl (restores_changeStarted true))
      timeout
  | stop warn => exact sameOn_stop hc warn
  | openQueue => exact paired_openQueue operates_sameOn hs ..
  | configureQueue => exact paired_configureQueue operates_sameOn hs hc.configureQueue ..
  | closeQueue => exact paired_closeQueue operates_sameOn hs ..
  | queueOptions => exact paired_queueOptions operates_sameOn hs ..
  | post => exact paired_post operates_sameOn hs ..
  | confirm => exact paired_confirm operates_sameOn hs ..
  | drop =>
    exact paired_drop operates_sameOn (sameOn_stop hc true)
      fun context error => .refl (restores_reportUnhandled context error)

end Session

end BrokerBridge
