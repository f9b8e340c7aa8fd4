import BrokerBridge.Proofs.Replay.PostedToken
import BrokerBridge.Proofs.Replay.Programs
import BrokerBridge.Proofs.Session.Outside
import BrokerBridge.Replay.Callbacks

/-!
# Depths around the calls of the scripted client

Programs on a session of the scripted client, nested to any depth, beside the same programs on
clients that do as they like for a thread inside host execution. Both run alike, since no call is
ever made from there, and wherever there is an exit every depth is what it was.
-/

namespace BrokerBridge

variable {α β : Type}

open Act Bridge

namespace Stage

private theorem restores_observe (call : NativeCall) : Restores (observe call) := by
  apply restores_andThen (restores_onNative _)
  intro r
  cases r with
  | ok _ => exact restores_done _
  | error _ => exact restores_fails _

private theorem arranges_sameOn : Arranges (SameOn Sound) where
  toClosed := closed_sameOn
  aside _ := .refl (restores_onNative _)
  arrange _ := .refl (restores_modifyNative _)
  update _ := .refl (restores_onNative _)
  revise _ := .refl (restores_modifyNative _)
  keeps tokens body body' h := by
    apply closed_sameOn.andThen (.refl (restores_modifyNative _))
    intro _
    exact sameOn_ensuring h (restores_modifyNative _) (neverPanics_modify _)
  checks call := .refl (restores_observe call)

end Stage

/-! ## Programs side by side -/

namespace Session

/-- Programs that use a session in any way, with all that goes on beside it, and the same programs
with another client and other host code. -/
inductive Usage (s : Session Stage) (c : NativeClient Stage) (host host' : HostCode Stage) :
    {α : Type} → Act Stage α → Act Stage α → Prop where
  | done {α : Type} (x : α) : Usage s c host host' (pure x) (pure x)
  | andThen {α β : Type} {m m' : Act Stage α} {k k' : α → Act Stage β} :
      Usage s c host host' m m' → (∀ x, Usage s c host host' (k x) (k' x)) →
        Usage s c host host' (m >>= k) (m' >>= k')
  | looks : Usage s c host host' get get
  | call {α : Type} (call : Call α) :
      Usage s c host host' (call.run s) (call.run (s.withClient c))
  | tell (e : NativeEvent) : Usage s c host host' (e.tell host) (e.tell host')
  | setHealth (health : HealthState) :
      Usage s c host host' (Stage.setHealth host health) (Stage.setHealth host' health)
  | arrange (f : Stage → Stage) : Usage s c host host' (modifyNative f) (modifyNative f)
  | stopElsewhere (warn : Bool) :
      Usage s c host host' (RehearsalPlan.requestStop warn) (RehearsalPlan.requestStop warn)
  | inside {α : Type} {m m' : Act Stage α} :
      Usage s c host host' m m' → Usage s c host host' (inHost m) (inHost m')
  | giveUp {α : Type} (cause : Panic) :
      Usage s c host host' (panic cause : Act Stage α) (panic cause)
  | catching {α : Type} {m m' : Act Stage α} :
      Usage s c host host' m m' → Usage s c host host' (attempt m) (attempt m')

end Session

/-- Host code whose callbacks use a session of the scripted client, down to a depth that nobody
looks into; beside it the same code, where each client is the scripted one for a thread outside
host execution only. -/
inductive HostCode.Nested : HostCode Stage → HostCode Stage → Prop where
  | deepest : Nested (fun _ => throw .tooDeep) fun _ => throw .tooDeep
  | above {inner inner' host host' : HostCode Stage} {s : Session Stage}
      {c : NativeClient Stage} : Nested inner inner' → s.client = Stage.client inner →
      (Stage.client inner').AgreesOutside c →
      (∀ d, s.Usage c inner inner' (host d) (host' d)) → Nested host host'

private theorem HostCode.nested_ending (outcome : DeliveryKind → HostOutcome) :
    HostCode.Nested (.ending outcome) (.ending outcome) := by
  let s : Session Stage := ⟨Stage.client fun _ => throw .tooDeep, .ofSettings "" {}, .none, ""⟩
  have hs : s.client = Stage.client fun _ => throw .tooDeep := rfl
  exact .above .deepest hs (NativeClient.agreesOutside_wary _) fun d => .done (outcome d.kind)

section

variable {s : Session Stage} {host host' : HostCode Stage} {c : NativeClient Stage}
  (hs : s.client = Stage.client host) (hc : (Stage.client host').AgreesOutside c)

include hs hc

private theorem Stage.sameOn_calls
    (hcall : ∀ d, SameOn Sound (callHost host d) (callHost host' d)) :
    s.client.Calls (SameOn Outside) c := by
  have hmock : (client host).Calls (SameOn Sound) (client host') := by
    apply closed_calls arranges_sameOn.toBuilds hcall
    · exact .refl (restores_modifyNative _)
    · exact .refl (restores_modifyNative _)
  rw [hs]
  refine hmock.trans ?_ hc
  intro α a₁ a₂ a₃ h₁ h₂
  exact ⟨h₁.restores, fun b hb => (h₁.same b hb.1).trans (h₂ b hb)⟩

private theorem Session.Usage.sameOn
    (hcall : ∀ d, SameOn Sound (callHost host d) (callHost host' d))
    {a a' : Act Stage α} (h : s.Usage c host host' a a') : SameOn Sound a a' := by
  have harranges := Stage.arranges_sameOn
  induction h with
  | done x => exact harranges.done x
  | andThen _ _ ihm ihk => exact harranges.andThen ihm ihk
  | looks => exact harranges.reads
  | call call => exact Session.sameOn_call (Stage.sameOn_calls hs hc hcall) call
  | tell e => exact closed_tell harranges.toClosed hcall e
  | setHealth health => exact Stage.closed_setHealth harranges hcall health
  | arrange f => exact .refl (restores_modifyNative f)
  | stopElsewhere warn =>
    exact .refl (restores_modify fun _ => ⟨rfl, rfl, fun _ => rfl, rfl, fun _ => rfl⟩)
  | inside _ ih => exact harranges.inside ih
  | giveUp cause => exact harranges.fails _
  | catching _ ih => exact sameOn_attempt ih

end

private theorem HostCode.Nested.sameOn {host host' : HostCode Stage} (h : host.Nested host')
    (d : Delivery) : SameOn Sound (host d) (host' d) := by
  induction h generalizing d with
  | deepest => exact closed_sameOn.fails _
  | above _ hs hc husage ih =>
    -- the clients of this layer call the host code of the layer below
    exact (husage d).sameOn hs hc fun d => sameOn_callHost (ih d)

/-- No call of a client starts inside host execution, in callbacks as elsewhere: it would tell the
scripted client from one that does otherwise there. Every program that exits, with an answer or by a
panic, leaves all depths as they were. -/
theorem Session.Usage.outside_and_restored {s : Session Stage} {host host' : HostCode Stage}
    {c : NativeClient Stage} (hs : s.client = Stage.client host) (hhost : host.Nested host')
    (hc : (Stage.client host').AgreesOutside c) {a a' : Act Stage α}
    (h : s.Usage c host host' a a') {b : Bridge Stage} (hb : b.host.WellFormed) :
    a' b = a b ∧ Balanced (exits (a b)) b (final (a b)) := by
  have hsame : SameOn Sound a a' := h.sameOn hs hc fun d => sameOn_callHost (hhost.sameOn d)
  exact ⟨(hsame.same b hb).symm, hsame.restores b hb⟩

/-! ## Rehearsals -/

namespace RehearsalPlan

open Session

section

variable {s : Session Stage} {c : NativeClient Stage} {host host' : HostCode Stage}

private theorem usage_outcome {o o' : Op Stage SessionError Unit}
    (h : s.Usage c host host' o.run o'.run) :
    s.Usage c host host' (outcome o) (outcome o') := by
  apply Usage.andThen h
  intro r
  cases r <;> exact .done _

private theorem usage_performSession (r : SessionRequest) :
    s.Usage c host host' (performSession s r) (performSession (s.withClient c) r) := by
  apply Usage.andThen .looks
  intro b
  split
  · exact .done _
  cases r with
  | start timeout => exact usage_outcome (.call (.start timeout))
  | stop warn => exact usage_outcome (.call (.stop warn))
  | stopElsewhere warn => exact .andThen (.stopElsewhere warn) fun _ => .done _
  | openQueue uri read write options timeout =>
    exact usage_outcome (.call (.openQueue uri read write options timeout))
  | configureQueue uri options timeout =>
    exact usage_outcome (.call (.configureQueue uri options timeout))
  | closeQueue uri timeout => exact usage_outcome (.call (.closeQueue uri timeout))
  | queueOptions uri =>
    apply Usage.andThen (.call (.queueOptions uri))
    intro r
    cases r <;> exact .done _
  | post uri payload properties onAck =>
    apply Usage.andThen (.arrange _)
    intro _
    apply Usage.andThen (.call (.post uri payload properties onAck))
    intro r
    cases r <;> exact .done _
  | confirm uri guid => exact usage_outcome (.call (.confirm uri guid))
  | isStarted =>
    apply Usage.andThen
    · exact .andThen .looks fun _ => .done _
    · exact fun _ => .done _

private theorem usage_native : s.Usage c host host' native native :=
  .andThen .looks fun _ => .done _

private theorem usage_performStage (r : StageRequest) :
    s.Usage c host host' (performStage host r) (performStage host' r) := by
  cases r with
  | setCodes | closeOnGet | push | expect => exact .andThen (.arrange _) fun _ => .done _
  | ack batch =>
    apply Usage.andThen (.arrange _)
    exact fun _ => .andThen (.arrange _) fun _ => .done _
  | loadScript files path =>
    simp only [performStage]
    split
    · exact .done _
    · exact .andThen (.arrange _) fun _ => .done _
  | checkSatisfied =>
    apply Usage.andThen usage_native
    intro n
    split
    · exact .done _
    · exact .giveUp _
  | holders token => exact .andThen usage_native fun _ => .done _
  | reports => exact .andThen .looks fun _ => .done _
  | setHealth health =>
    apply Usage.andThen (.setHealth health)
    exact fun _ => .andThen usage_native fun _ => .done _

private theorem usage_caught {a a' : Act Stage Answer} (h : s.Usage c host host' a a') :
    s.Usage c host host' (caught a) (caught a') := by
  apply Usage.andThen (.catching h)
  intro r
  cases r <;> exact .done _

private theorem usage_perform {p : RehearsalPlan} {connection : Option Connection}
    (hs : ∀ c, connection = some c → s = p.session host c) (r : Request) :
    s.Usage (Stage.client host) host host (p.perform connection host r)
      (p.perform connection host r) := by
  cases r with
  | stage r => exact usage_caught (usage_performStage r)
  | confirmAll => exact .done _
  | session r =>
    cases connection with
    | none => exact .done _
    | some c =>
      obtain rfl := hs c rfl
      exact usage_caught (usage_performSession r)

private theorem usage_forM {l : List α} {f f' : α → Act Stage Unit}
    (h : ∀ x, s.Usage c host host' (f x) (f' x)) :
    s.Usage c host host' (l.forM f) (l.forM f') := by
  induction l with
  | nil => exact .done _
  | cons x l ih => exact .andThen (h x) fun _ => ih

end

/-- Before there is a session, no request of one is carried out: any session will do. -/
theorem exists_session (p : RehearsalPlan) (connection : Option Connection)
    (host : HostCode Stage) : ∃ s : Session Stage, s.client = Stage.client host ∧
      ∀ c, connection = some c → s = p.session host c := by
  cases connection with
  | some c =>
    refine ⟨p.session host c, rfl, ?_⟩
    intro _ hc
    cases hc
    rfl
  | none => exact ⟨⟨_, .ofSettings "" {}, .none, ""⟩, rfl, nofun⟩

/-- What the callbacks of a rehearsal do is a program on a session whose callbacks are nested. -/
theorem nested_callback (p : RehearsalPlan) (connection : Option Connection) (depth : Nat) :
    (p.callback connection depth).Nested (p.callback connection depth) := by
  induction depth with
  | zero => exact .deepest
  | succ depth ih =>
    obtain ⟨s, hs, hsession⟩ := p.exists_session connection (p.callback connection depth)
    refine .above ih hs (.refl (fun _ _ _ => rfl) _) fun d => ?_
    apply Usage.andThen
    · apply usage_forM
      intro r
      exact .andThen (usage_perform hsession r) fun _ => .arrange _
    · exact fun _ => .done _

/-- A request leaves all depths as they were, whatever the callbacks of the rehearsal do. -/
theorem restores_perform (p : RehearsalPlan) (connection : Option Connection) (depth : Nat)
    (r : Request) : Restores (p.perform connection (p.callback connection depth) r) := by
  have hnested := p.nested_callback connection depth
  obtain ⟨s, hs, hsession⟩ := p.exists_session connection (p.callback connection depth)
  have hsame := (usage_perform hsession r).sameOn hs (.refl (fun _ _ _ => rfl) _)
    fun d => sameOn_callHost (hnested.sameOn d)
  exact hsame.restores

end RehearsalPlan

namespace Session

def quitting (s : Session Stage) : HostCode Stage
  | .messages _ => do
      let _ ← (s.confirm "bmq://d/q" Guid.zero.bytes).run
      panic (.host (some "no more"))
  | _ => return .ok

def plainInner : Session Stage := plainSession (.ending fun _ => .ok)

def waryInner : Session Stage := plainInner.withClient plainInner.client.wary

private theorem nested_quitting : HostCode.Nested plainInner.quitting waryInner.quitting := by
  have hquiet := HostCode.nested_ending fun _ => .ok
  refine .above hquiet (s := plainInner) rfl (NativeClient.agreesOutside_wary _) fun d => ?_
  cases d with
  | messages batch =>
    apply Usage.andThen (.call (.confirm "bmq://d/q" Guid.zero.bytes))
    exact fun _ => .giveUp _
  | notification | acks => exact .done _

def plainOuter : Session Stage := plainSession plainInner.quitting

def waryOuter : Session Stage := plainOuter.withClient (Stage.client waryInner.quitting).wary

def callingBack : Bridge Stage where
  gate := { started := true }
  host := ⟨some 0, 2⟩
  delivering := 1
  native :=
    { script := { push := [[{ payload := ⟨#[1]⟩, guid := .zero, queueUri := "bmq://d/q" }]] } }

/-- Wary clients let a queue be opened whose message is confirmed in a callback that panics. -/
theorem outside_and_restored_quitting : ∃ b',
    (waryOuter.openQueue "bmq://d/q" true false {} none).run callingBack = .ok (.ok ()) b' ∧
    b'.native.decided.length = 2 ∧
    b'.diagnostics.unhandled = [⟨"message callback", "callback panicked: no more"⟩] ∧
    Balanced true callingBack b' := by
  have hrun : (match (plainOuter.openQueue "bmq://d/q" true false {} none).run callingBack with
      | .ok (.ok ()) b' => b'.native.decided.length == 2 &&
          b'.diagnostics.unhandled == [⟨"message callback", "callback panicked: no more"⟩]
      | _ => false) = true := by decide +kernel
  split at hrun
  · next b' h =>
    simp only [Bool.and_eq_true, beq_iff_eq] at hrun
    have h : Call.run plainOuter (.openQueue "bmq://d/q" true false {} none) callingBack =
        .ok (.ok ()) b' := h
    obtain ⟨hsame, hbalanced⟩ :=
      Usage.outside_and_restored (s := plainOuter) rfl nested_quitting
        (NativeClient.agreesOutside_wary _) (.call (.openQueue "bmq://d/q" true false {} none))
        (b := callingBack) (by simp [callingBack, HostLock.WellFormed])
    rw [h] at hsame hbalanced
    exact ⟨b', hsame, hrun.1, hrun.2, hbalanced⟩
  · cases hrun

end Session

end BrokerBridge
