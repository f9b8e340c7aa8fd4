import BrokerBridge.Proofs.Replay.Playing
import BrokerBridge.Proofs.Session.Outside

/-!
# Batches in their order

A run of calls on a session, changes of the host's health, arrangements and batches that are put
behind the script. Each open that is accepted takes the batch of messages at the front and delivers
it as it was scripted, each post that is expected takes the batch of acknowledgements at the front,
and nothing else takes any: what has been taken, and then what is left, is what there was and what
has been put behind it.
-/

namespace BrokerBridge

open Act

def Idle (adds : Delivery → Script) (b b' : Bridge Stage) : Prop :=
  b.native.Calm → b'.native.Calm ∧ ScriptAccount adds {} [] b b'

section

variable {adds : Delivery → Script}

private theorem idle_frame : Frame (Idle adds) where
  same hn hd hcalm := by
    rw [hn]
    exact ⟨hcalm, account_of_same hd (by rw [hn])⟩
  trans h₁ h₂ hcalm := by
    obtain ⟨hcalm₂, haccount₁⟩ := h₁ hcalm
    obtain ⟨hcalm₃, haccount₂⟩ := h₂ hcalm₂
    exact ⟨hcalm₃, haccount₁.comp haccount₂⟩

private theorem Silent.idle {b b' : Bridge Stage} (h : Silent b b') : Idle adds b b' :=
  fun hcalm => ⟨h.calm hcalm, account_of_same h.deliveries h.script⟩

private theorem idle_of_silent {α : Type} {a : Act Stage α} (h : Within Silent a) :
    Within (Idle adds) a :=
  h.mono fun _ _ => Silent.idle

end

theorem NativeCall.filter_concat {call : NativeCall} (h : call.isScripted = false)
    (l : List NativeCall) : (l ++ [call]).filter (·.isScripted) = l.filter (·.isScripted) := by
  rw [List.filter_append, List.filter_cons_of_neg (ne_true_of_eq_false h)]
  exact List.append_nil _

namespace Stage

/-! ## Calls that take nothing -/

section

variable {adds : Delivery → Script}

private theorem idle_serves : Serves fun a _ => Follows (fun _ => Idle adds) a where
  toClosed := closed_follows idle_frame.composes
  checks call := (idle_of_silent (silent_observe call)).follows
  settles call code := (idle_of_silent (silent_settle call code)).follows
  closes q := (idle_of_silent (silent_closes q)).follows

variable {host : HostCode Stage} (hhost : host.Supplies adds)

include hhost

private theorem idle_passEvent (e : SessionEvent) : Within (Idle adds) (passOn host (.session e)) :=
  (played_passOn (played_tellEvent hhost e)).mono fun _ _ h hcalm =>
    ⟨(h hcalm).calm hcalm, (h hcalm).account⟩

private theorem idle_start (timeout : Duration) : Within (Idle adds) (start host timeout) := by
  have hmarks (started : Bool) : Follows (fun _ => Idle adds) (modifyLedger ({ · with started })) :=
    (idle_of_silent (silent_marks started)).follows
  exact Follows.within <| @closed_start _ idle_serves host host (hmarks true) (hmarks false)
    (idle_passEvent hhost _).follows timeout

private theorem idle_setHealth (health : HealthState) : Within (Idle adds)
    (setHealth host health) := by
  have hchanged : Follows (fun _ => Idle adds) (healthChanged host health) := by
    refine @closed_healthChanged _ idle_serves.toClosed host host
      (fun e => (idle_passEvent hhost e).follows) health ?_
    exact (idle_of_silent (silent_ledgerUpdate fun l => l.buffers_setHealth health)).follows
  apply within_bind idle_frame
  · exact within_onNative fun _ hcalm => ⟨hcalm, account_of_same rfl rfl⟩
  intro listeners
  exact within_forM idle_frame fun _ _ => hchanged.within

end

/-! ## Calls beside an open or a post -/

private theorem resting_observe {call : NativeCall} (hcall : call.isScripted = false) :
    Within Resting (observe call) := by
  have hends {b b' : Bridge Stage} (h : (observe call).Ends b b') : Resting b b' := by
    rw [eq_of_observe h]
    exact ⟨rfl, rfl, rfl, NativeCall.filter_concat hcall _, rfl⟩
  exact ⟨fun h => hends (.inl ⟨_, h⟩), fun h => hends (.inr ⟨_, h⟩)⟩

private theorem resting_stop : Within Resting stop := by
  apply within_bind resting_frame (resting_observe rfl)
  intro _
  apply within_bind resting_frame
  · exact within_modifyNative fun _ => ⟨rfl, rfl, rfl, rfl, rfl⟩
  intro _
  apply within_inHost resting_frame
  apply within_bind resting_frame
  · exact within_onNative fun _ => ⟨rfl, rfl, rfl, rfl, NativeCall.filter_concat rfl _⟩
  · exact fun _ => within_pure resting_frame _

private theorem resting_queue? (uri : String) : Within Resting (queue? uri) := by
  apply within_bind resting_frame (within_native resting_frame)
  intro n
  split
  · exact within_pure resting_frame _
  next q _ =>
  simp only
  split
  · apply within_bind resting_frame (resting_observe rfl)
    intro _
    apply within_bind resting_frame
    · exact within_onNative fun _ => ⟨rfl, Ledger.buffers_closeQueue .., rfl, rfl, rfl⟩
    · exact fun _ => within_pure resting_frame _
  · exact within_pure resting_frame _

end Stage

namespace Session

def Call.isScripted : {α : Type} → Call α → Bool
  | _, openQueue .. => true
  | _, post .. => true
  | _, _ => false

section

variable {adds : Delivery → Script} {s : Session Stage} {host : HostCode Stage}
  (hs : s.client = Stage.client host)

include hs

private theorem idle_call (hhost : host.Supplies adds) {α : Type} {call : Call α}
    (h : call.isScripted = false) : Within (Idle adds) (call.run s) := by
  have hstop : Within (Idle adds) s.client.stop := by
    rw [hs]
    exact idle_of_silent Stage.silent_stop
  have hqueue (uri : String) : Within (Idle adds) (s.client.queue? uri) := by
    rw [hs]
    exact idle_of_silent (Stage.silent_queue? uri)
  cases call with
  | start timeout =>
    refine (follows_start idle_frame.composes idle_frame.admits (fun timeout => ?_) timeout).within
    rw [hs]
    exact (Stage.idle_start hhost timeout).follows
  | stop warn => exact within_stop idle_frame hstop warn
  | openQueue | post => cases h
  | configureQueue uri options timeout =>
    refine within_configureQueue idle_frame idle_frame.absorbs hstop (hqueue uri) ?_ ?_ options
      timeout
    · intro q b b' hfound
      rw [hs] at hfound
      exact Stage.address_of_queue? hfound
    · intro q options timeout _
      rw [hs]
      exact idle_of_silent (Stage.silent_configureQueue q options timeout)
  | closeQueue uri timeout =>
    refine within_closeQueue idle_frame hstop hqueue (fun q timeout => ?_) uri timeout
    rw [hs]
    exact idle_of_silent (Stage.silent_closeQueue q timeout)
  | queueOptions uri => exact within_queueOptions idle_frame hstop hqueue uri
  | confirm uri guid =>
    refine within_confirm idle_frame hstop hqueue (fun q guid => ?_) uri guid
    rw [hs]
    exact idle_of_silent (Stage.silent_confirm q guid)
  | drop => exact within_drop idle_frame hstop

/-! ## Opening -/

variable {b b' : Bridge Stage}

private theorem resting_stop : Within Resting s.client.stop := by
  rw [hs]
  exact Stage.resting_stop

omit hs in
private theorem native_of_openQueue {uri : String} {flags : QueueFlags} {options : QueueOptions}
    {timeout : Duration} {r : Except Panic (Except SessionError Unit)}
    (h : (op (s.client.openQueue uri flags options timeout) >>= fun status =>
      expectSuccess .openQueue uri status : Op Stage SessionError Unit).run.EndsIn r b b') :
    ∃ r', (s.client.openQueue uri flags options timeout).EndsIn r' b b' ∧
      (r = .ok (.ok ()) ↔ Stage.Accepts r') := by
  rcases endsIn_of_opBind_op h with ⟨status, b₁, hopen, hexpect⟩ | ⟨cause, rfl, hopen⟩
  · unfold expectSuccess at hexpect
    refine ⟨.ok status, ?_⟩
    split at hexpect
    · next hcode =>
      obtain ⟨rfl, rfl⟩ := endsIn_pure hexpect
      exact ⟨hopen, fun _ => ⟨status, rfl, hcode⟩, fun _ => rfl⟩
    · next hcode =>
      obtain ⟨rfl, rfl⟩ := endsIn_pure hexpect
      exact ⟨hopen, nofun, fun h => absurd h (Stage.not_accepts hcode)⟩
  · exact ⟨.error cause, hopen, nofun, nofun⟩

private theorem openQueue_endsIn (hhost : host.Supplies adds) {uri : String} {read write : Bool}
    {options : QueueOptions} {timeout : Option Duration}
    {r : Except Panic (Except SessionError Unit)} (hcalm : b.native.Calm)
    (h : (s.openQueue uri read write options timeout).run.EndsIn r b b') :
    (r ≠ .ok (.ok ()) ∧ Drawn adds [] {} [] b b') ∨
    (b.native.codes.openQueue ≠ Code.success ∧ r ≠ .ok (.ok ()) ∧
      ∃ call, Drawn adds [call] {} [] b b') ∨
    (b.native.codes.openQueue = Code.success ∧ ∃ call told,
      Drawn adds [call] b.native.script.frontPush told b b' ∧
        ((∀ batch ∈ b.native.script.frontPush.push,
            (b.native.ledger.openQueue uri (.ofAccess read write) options).2.CanPlay batch) →
          told = b.native.script.frontPush.push.map (·.map (·.received)) ∧ r = .ok (.ok ()))) := by
  have hmonitoring : Within Same (s.requireMonitoring options).run :=
    (paired_requireMonitoring (c := s.client) (closed_follows same_frame.composes).toPaired
      options).within
  rcases endsIn_of_opBind h with ⟨e, hrefused, rfl⟩ | ⟨_, b₁, hmonitored, h⟩ | ⟨cause, rfl, hpanic⟩
  · exact .inl ⟨nofun, (resting_frame.of_same (hmonitoring.ok hrefused)).drawn hcalm⟩
  · have hbefore₁ := hmonitoring.ok hmonitored
    rcases endsIn_of_whileStarted resting_frame (resting_stop hs) h with
      ⟨rfl, hrefused⟩ | ⟨b₂, b₃, hbefore₂, hbody, hafter⟩
    · have hrest := resting_frame.of_same (same_frame.trans hbefore₁ hrefused)
      exact .inl ⟨nofun, hrest.drawn hcalm⟩
    have hbefore := same_frame.trans hbefore₁ hbefore₂
    have hrest : Resting b b₂ := resting_frame.of_same hbefore
    have hcalm₂ : b₂.native.Calm := hrest.calm hcalm
    obtain ⟨r', hopen, hr⟩ := native_of_openQueue hbody
    rw [hs] at hopen
    rcases Stage.openQueue_endsIn hhost hcalm₂ hopen with
      ⟨hrefused, hdrawn⟩ | ⟨hcode, hrejected, hdrawn⟩ | ⟨hcode, told, hdrawn, htold⟩
    · exact .inl ⟨(not_congr hr).mpr hrefused, (hdrawn.before hrest).after hafter⟩
    · rw [hbefore.1] at hcode
      have hall := (hdrawn.before hrest).after hafter
      exact .inr (.inl ⟨hcode, (not_congr hr).mpr hrejected, _, hall⟩)
    · have hall := (hdrawn.before hrest).after hafter
      rw [hbefore.1] at hcode hall htold
      refine .inr (.inr ⟨hcode, _, told, hall, fun hcan => ?_⟩)
      obtain ⟨htold, haccepted⟩ := htold hcan
      exact ⟨htold, hr.mpr haccepted⟩
  · exact .inl ⟨nofun, (resting_frame.of_same (hmonitoring.panic hpanic)).drawn hcalm⟩

/-! ## Posting -/

/-- What a post does to the script: it takes the batch of acknowledgements at the front, or the
client was not asked, or it did not expect the post. -/
def PostDraws (adds : Delivery → Script) (r : Except Panic (Except PostFailure Unit))
    (b b' : Bridge Stage) : Prop :=
  ((b'.native.asked = b.native.asked ∨ ∃ m, r = .error (.expectation m)) ∧
      Drawn adds [] {} [] b b') ∨
    ∃ call, Drawn adds [call] b.native.script.frontAck [] b b'

omit hs in
private theorem PostDraws.of_resting {r : Except Panic (Except PostFailure Unit)} (h : Resting b b')
    (hcalm : b.native.Calm) : PostDraws adds r b b' :=
  .inl ⟨.inl h.asked, h.drawn hcalm⟩

omit hs in
private theorem PostDraws.between {r : Except Panic (Except PostFailure Unit)}
    {b₁ b₂ : Bridge Stage}
    (hbefore : Resting b b₁) (h : PostDraws adds r b₁ b₂) (hafter : Resting b₂ b') :
    PostDraws adds r b b' := by
  rcases h with ⟨hunasked, hdrawn⟩ | ⟨call, hdrawn⟩
  · refine .inl ⟨hunasked.imp_left fun hasked => ?_, (hdrawn.before hbefore).after hafter⟩
    exact hafter.asked.trans (hasked.trans hbefore.asked)
  · rw [hbefore.script] at hdrawn
    exact .inr ⟨call, (hdrawn.before hbefore).after hafter⟩

omit hs in
private theorem PostDraws.of_opBind {α : Type} {x : Op Stage PostFailure α}
    {f : α → Op Stage PostFailure Unit} {r : Except Panic (Except PostFailure Unit)}
    (hcalm : b.native.Calm) (hx : Within Resting x.run)
    (hf : ∀ a b₁, b₁.native.Calm → (f a).run.EndsIn r b₁ b' → PostDraws adds r b₁ b')
    (h : (x >>= f).run.EndsIn r b b') : PostDraws adds r b b' := by
  rcases endsIn_of_opBind h with ⟨e, hrun, _⟩ | ⟨a, b₁, hrun, h⟩ | ⟨cause, _, hrun⟩
  · exact .of_resting (hx.ok hrun) hcalm
  · have hbefore := hx.ok hrun
    exact .between hbefore (hf a b₁ (hbefore.calm hcalm) h) (resting_frame.same rfl rfl)
  · exact .of_resting (hx.panic hrun) hcalm

private theorem postDraws_client (hhost : host.Supplies adds) {e : MessageEvent}
    {f : Except PostRejection Unit → Op Stage PostFailure Unit}
    {r : Except Panic (Except PostFailure Unit)} (hcalm : b.native.Calm)
    (hf : ∀ answer b₁ b', (f answer).run.EndsIn r b₁ b' → b' = b₁)
    (h : (op (s.client.post e) >>= f : Op Stage PostFailure Unit).run.EndsIn r b b') :
    PostDraws adds r b b' := by
  rw [hs] at h
  rcases endsIn_of_opBind_op h with ⟨answer, b₁, hpost, hanswer⟩ | ⟨cause, rfl, hpost⟩
  · cases hf answer b₁ b' hanswer
    rcases Stage.post_endsIn hhost (r := .ok answer) hcalm hpost with ⟨⟨_, hr⟩, _⟩ | hdrawn
    · cases hr
    · exact .inr ⟨_, hdrawn⟩
  · rcases Stage.post_endsIn hhost (r := .error cause) hcalm hpost with ⟨⟨m, hr⟩, hdrawn⟩ | hdrawn
    · cases hr
      exact .inl ⟨.inr ⟨m, rfl⟩, hdrawn⟩
    · exact .inr ⟨_, hdrawn⟩

private theorem postEncoded_endsIn (hhost : host.Supplies adds) {uri : String} {payload : ByteArray}
    {wire : Option WireProperties} {onAck : Option Correlation}
    {r : Except Panic (Except PostFailure Unit)} (hcalm : b.native.Calm)
    (h : (s.postEncoded uri payload wire onAck).run.EndsIn r b b') : PostDraws adds r b b' := by
  refine PostDraws.of_opBind hcalm ?_ (fun q b₁ hcalm₁ h => ?_) h
  · have hqueue : Within Resting (s.client.queue? uri) := by
      rw [hs]
      exact Stage.resting_queue? uri
    have hparts := (closed_follows resting_frame.composes).toPaired
    exact (paired_openHandle (c := s.client) hparts hqueue.follows _).within
  refine PostDraws.of_opBind hcalm₁ (within_queueTable resting_frame) ?_ h
  intro table b₂ hcalm₂ h
  split at h
  · obtain ⟨_, rfl⟩ := endsIn_pure h
    exact .of_resting (resting_frame.same rfl rfl) hcalm₂
  · refine postDraws_client hs hhost hcalm₂ (fun answer b₁ b' hanswer => ?_) h
    cases answer with
    | ok => exact (endsIn_pure hanswer).2
    | error => exact (endsIn_pure hanswer).2

private theorem post_endsIn (hhost : host.Supplies adds) {uri : String} {payload : ByteArray}
    {properties : Option PropertySet} {onAck : Option Correlation}
    {r : Except Panic (Except PostFailure Unit)} (hcalm : b.native.Calm)
    (h : (s.post uri payload properties onAck).run.EndsIn r b b') : PostDraws adds r b b' := by
  unfold post at h
  split at h
  · obtain ⟨_, rfl⟩ := endsIn_pure h
    exact .of_resting (resting_frame.same rfl rfl) hcalm
  · rcases endsIn_of_whileStarted resting_frame (resting_stop hs) h with
      ⟨_, hrefused⟩ | ⟨b₁, b₂, hbefore, hbody, hafter⟩
    · exact .of_resting (resting_frame.of_same hrefused) hcalm
    · have hrest : Resting b b₁ := resting_frame.of_same hbefore
      have hcalm₁ := hrest.calm hcalm
      exact .between hrest (postEncoded_endsIn hs hhost hcalm₁ hbody) hafter

end

/-! ## Turns -/

inductive Cue where
  | call {α : Type} (call : Call α)
  | setHealth (health : HealthState)
  /-- Something about the client is arranged, its books and its script apart. -/
  | arrange
  /-- A batch, or those of another script, are put behind the script. -/
  | push (batch : List ScriptedPush)
  | ack (batch : List ScriptedAck)
  | extend (more : Script)

namespace Cue

def isOpen : Cue → Bool
  | call (.openQueue ..) => true
  | _ => false

def isPost : Cue → Bool
  | call (.post ..) => true
  | _ => false

def booksOf (l : Ledger) : Cue → Ledger
  | call (.openQueue uri read write options _) =>
      (l.openQueue uri (.ofAccess read write) options).2
  | _ => l

def more : Cue → Script
  | push batch => { push := [batch] }
  | ack batch => { ack := [batch] }
  | extend more => more
  | _ => {}

def Ends (s : Session Stage) (host : HostCode Stage) (b b' : Bridge Stage) : Cue → Prop
  | call c => (c.run s).Ends b b'
  | setHealth health => (Stage.setHealth host health).Ends b b'
  | arrange => b'.native.ledger = b.native.ledger ∧ b'.native.script = b.native.script ∧
      b'.deliveries = b.deliveries
  | push batch => (modifyNative fun n => { n with script := n.script.enqueuePush batch }).Ends b b'
  | ack batch => (modifyNative fun n => { n with script := n.script.enqueueAck batch }).Ends b b'
  | extend more => (modifyNative fun n => { n with script := n.script.extend more }).Ends b b'

end Cue

end Session

structure ScriptTurn where
  cue : Session.Cue
  before : Bridge Stage
  after : Bridge Stage

namespace ScriptTurn

def told (t : ScriptTurn) : List Delivery := t.after.deliveries.drop t.before.deliveries.length

/-- An open or a post came as far as being decided. Callbacks make none, so that it is the one that
the turn is about. -/
def answers (t : ScriptTurn) : Bool :=
  t.before.native.answered.length < t.after.native.answered.length

/-- A queue is opened: the expectations, the books and the code accept it. -/
def opens (t : ScriptTurn) : Bool :=
  t.cue.isOpen && t.answers && t.before.native.codes.openQueue == Code.success

/-- A post is decided, whatever its code. -/
def posts (t : ScriptTurn) : Bool := t.cue.isPost && t.answers

def taken (t : ScriptTurn) : Script :=
  if t.opens then t.before.native.script.frontPush
  else if t.posts then t.before.native.script.frontAck
  else {}

/-- What the turn puts behind the script: what it is about, or what callbacks add. -/
def enqueued (adds : Delivery → Script) (t : ScriptTurn) : Script :=
  (Script.total adds t.told).extend t.cue.more

/-- What an open takes can be delivered once the queue is open. -/
def Playable (t : ScriptTurn) : Prop :=
  ∀ batch ∈ t.taken.push, (t.cue.booksOf t.before.native.ledger).CanPlay batch

instance (t : ScriptTurn) : Decidable t.Playable :=
  inferInstanceAs (Decidable (∀ batch ∈ t.taken.push, _))

/-- What is taken, and then what is left, is what there was and what was put behind it; what an
open takes is delivered as it was scripted. -/
structure Accounted (adds : Delivery → Script) (t : ScriptTurn) : Prop where
  deliveries : t.after.deliveries = t.before.deliveries ++ t.told
  script : t.taken.extend t.after.native.script = t.before.native.script.extend (t.enqueued adds)
  batches : t.Playable → batchesIn t.told = t.taken.push.map (·.map (·.received))

variable {adds : Delivery → Script} {t : ScriptTurn}

theorem told_of_append {news : List Delivery}
    (h : t.after.deliveries = t.before.deliveries ++ news) : t.told = news := by
  rw [told, h, List.drop_left]

private theorem Accounted.of_account {told : List (List ReceivedMessage)} (hmore : t.cue.more = {})
    (h : ScriptAccount adds t.taken told t.before t.after)
    (htold : t.Playable → told = t.taken.push.map (·.map (·.received))) : t.Accounted adds := by
  obtain ⟨news, hnews, hbatches, hscript⟩ := h
  have hsaid := told_of_append hnews
  refine ⟨by rw [hsaid, hnews], ?_, fun hplayable => ?_⟩
  · rw [hscript, enqueued, hsaid, hmore, Script.extend_empty]
  · rw [hsaid, hbatches, htold hplayable]

private theorem Accounted.of_idle (hmore : t.cue.more = {}) (htaken : t.taken = {})
    (h : ScriptAccount adds {} [] t.before t.after) : t.Accounted adds := by
  rw [← htaken] at h
  exact .of_account hmore h fun _ => by rw [htaken]; rfl

private theorem Accounted.of_stocks (htaken : t.taken = {})
    (h : Stocks t.cue.more t.before t.after) :
    t.Accounted adds := by
  have hnews : t.after.deliveries = t.before.deliveries ++ [] := by
    rw [h.deliveries, List.append_nil]
  have htold := told_of_append hnews
  refine ⟨by rw [htold, hnews], ?_, fun _ => ?_⟩
  · have hnone : Script.total adds [] = {} := rfl
    rw [htaken, enqueued, htold, hnone, Script.empty_extend, Script.empty_extend, h.script]
  · rw [htaken, htold]
    rfl

private theorem answers_of_drawn {calls : List NativeCall} {taken : Script}
    {told : List (List ReceivedMessage)} (h : Drawn adds calls taken told t.before t.after) :
    t.answers = !calls.isEmpty := by
  rw [answers, h.answered, List.length_append]
  cases calls <;> simp

private theorem taken_of_unscripted (hopen : t.cue.isOpen = false) (hpost : t.cue.isPost = false) :
    t.taken = {} := by
  simp [taken, opens, posts, hopen, hpost]

private theorem taken_of_unanswered (h : t.answers = false) : t.taken = {} := by
  simp [taken, opens, posts, h]

end ScriptTurn

namespace Session

section

variable {adds : Delivery → Script} {s : Session Stage} {host : HostCode Stage}
  (hs : s.client = Stage.client host) (hhost : host.Supplies adds) {t : ScriptTurn}

include hs hhost

/-- An open that succeeds is accepted; one that is accepted succeeds, if what it takes can be
delivered. -/
theorem accounted_openQueue {uri : String} {read write : Bool} {options : QueueOptions}
    {timeout : Option Duration} (hcue : t.cue = .call (.openQueue uri read write options timeout))
    (hcalm : t.before.native.Calm)
    (h : (s.openQueue uri read write options timeout).run.Ends t.before t.after) :
    t.after.native.Calm ∧ t.Accounted adds ∧ (t.Playable →
      ((s.openQueue uri read write options timeout).run t.before = .ok (.ok ()) t.after ↔
        t.opens = true)) := by
  have hmore : t.cue.more = {} := by
    rw [hcue]
    rfl
  have hopens : t.opens = (t.answers && t.before.native.codes.openQueue == Code.success) := by
    rw [ScriptTurn.opens, hcue]
    rfl
  have hposts : t.posts = false := by
    rw [ScriptTurn.posts, hcue]
    rfl
  have hclosed (hopens : t.opens = false) : t.taken = {} := by
    rw [ScriptTurn.taken, hopens, hposts]
    rfl
  obtain ⟨r, h⟩ := h.endsIn
  rw [h.eq_ok_iff]
  rcases openQueue_endsIn hs hhost hcalm h with
    ⟨hrefused, hdrawn⟩ | ⟨hcode, hrejected, call, hdrawn⟩ | ⟨hcode, call, told, hdrawn, htold⟩
  · rw [ScriptTurn.answers_of_drawn hdrawn] at hopens
    refine ⟨hdrawn.calm, .of_idle hmore (hclosed hopens) hdrawn.account, fun _ => ?_⟩
    rw [hopens]
    exact ⟨fun hr => absurd hr hrefused, nofun⟩
  · rw [beq_false_of_ne hcode, Bool.and_false] at hopens
    refine ⟨hdrawn.calm, .of_idle hmore (hclosed hopens) hdrawn.account, fun _ => ?_⟩
    rw [hopens]
    exact ⟨fun hr => absurd hr hrejected, nofun⟩
  · rw [ScriptTurn.answers_of_drawn hdrawn, beq_iff_eq.mpr hcode] at hopens
    have htaken : t.taken = t.before.native.script.frontPush := if_pos hopens
    have hbooks : t.cue.booksOf t.before.native.ledger =
        (t.before.native.ledger.openQueue uri (.ofAccess read write) options).2 := by
      rw [hcue]
      rfl
    rw [← htaken] at hdrawn htold
    rw [← hbooks] at htold
    refine ⟨hdrawn.calm, ?_, fun hplayable => ⟨fun _ => hopens, fun _ => (htold hplayable).2⟩⟩
    exact .of_account hmore hdrawn.account fun hplayable => (htold hplayable).1

/-- A post that the client was asked for is decided, unless it was not expected. -/
theorem accounted_post {uri : String} {payload : ByteArray} {properties : Option PropertySet}
    {onAck : Option Correlation} (hcue : t.cue = .call (.post uri payload properties onAck))
    (hcalm : t.before.native.Calm)
    (h : (s.post uri payload properties onAck).run.Ends t.before t.after) :
    t.after.native.Calm ∧ t.Accounted adds ∧
      (t.after.native.asked ≠ t.before.native.asked → t.posts = false → ∃ m,
        (s.post uri payload properties onAck).run t.before =
          .error (.panic (.expectation m)) t.after) := by
  have hmore : t.cue.more = {} := by
    rw [hcue]
    rfl
  have hopens : t.opens = false := by
    rw [ScriptTurn.opens, hcue]
    rfl
  have hposts : t.posts = t.answers := by
    rw [ScriptTurn.posts, hcue]
    rfl
  obtain ⟨r, h⟩ := h.endsIn
  rcases post_endsIn hs hhost hcalm h with ⟨hunasked, hdrawn⟩ | ⟨call, hdrawn⟩
  · have htaken := ScriptTurn.taken_of_unanswered (ScriptTurn.answers_of_drawn hdrawn)
    refine ⟨hdrawn.calm, .of_idle hmore htaken hdrawn.account, fun hasked _ => ?_⟩
    rcases hunasked with hsame | ⟨m, rfl⟩
    · exact absurd hsame hasked
    · exact ⟨m, h⟩
  · rw [ScriptTurn.answers_of_drawn hdrawn] at hposts
    have htaken : t.taken = t.before.native.script.frontAck := by
      rw [ScriptTurn.taken, hopens, hposts]
      rfl
    rw [← htaken] at hdrawn
    refine ⟨hdrawn.calm, .of_account hmore hdrawn.account fun _ => ?_, fun _ hnone => ?_⟩
    · rw [htaken]
      rfl
    · rw [hposts] at hnone
      cases hnone

private theorem accounted_turn (hcalm : t.before.native.Calm)
    (h : t.cue.Ends s host t.before t.after) :
    t.after.native.Calm ∧ t.Accounted adds := by
  have hidle (hmore : t.cue.more = {}) (hopen : t.cue.isOpen = false) (hpost : t.cue.isPost = false)
      (h : Idle adds t.before t.after) : t.after.native.Calm ∧ t.Accounted adds := by
    obtain ⟨hcalm', haccount⟩ := h hcalm
    exact ⟨hcalm', .of_idle hmore (ScriptTurn.taken_of_unscripted hopen hpost) haccount⟩
  have hstock (hopen : t.cue.isOpen = false) (hpost : t.cue.isPost = false)
      (h : Stocks t.cue.more t.before t.after) : t.after.native.Calm ∧ t.Accounted adds :=
    ⟨(congrArg Ledger.buffers h.ledger).trans hcalm,
      .of_stocks (ScriptTurn.taken_of_unscripted hopen hpost) h⟩
  cases hcue : t.cue with
  | call c =>
    rw [hcue] at h hidle
    cases hscripted : c.isScripted with
    | false =>
      have hrun := (idle_call hs hhost hscripted).ends h
      cases c with
      | openQueue | post => cases hscripted
      | _ => exact hidle rfl rfl rfl hrun
    | true =>
      cases c with
      | openQueue =>
        obtain ⟨hcalm', haccounted, _⟩ := accounted_openQueue hs hhost hcue hcalm h
        exact ⟨hcalm', haccounted⟩
      | post =>
        obtain ⟨hcalm', haccounted, _⟩ := accounted_post hs hhost hcue hcalm h
        exact ⟨hcalm', haccounted⟩
      | _ => cases hscripted
  | setHealth health =>
    rw [hcue] at h hidle
    exact hidle rfl rfl rfl ((Stage.idle_setHealth hhost health).ends h)
  | arrange =>
    rw [hcue] at h hidle
    obtain ⟨hledger, hscript, hdeliveries⟩ := h
    refine hidle rfl rfl rfl fun hcalm => ⟨?_, account_of_same hdeliveries hscript⟩
    rw [Stage.Calm, hledger]
    exact hcalm
  | push batch =>
    rw [hcue] at h hstock
    exact hstock rfl rfl ((stocks_modifyNative fun e => e.enqueuePush_eq batch).ends h)
  | ack batch =>
    rw [hcue] at h hstock
    exact hstock rfl rfl ((stocks_modifyNative fun e => e.enqueueAck_eq batch).ends h)
  | extend more =>
    rw [hcue] at h hstock
    exact hstock rfl rfl ((stocks_modifyNative fun _ => rfl).ends h)

end

/-! ## Runs -/

inductive Plays (s : Session Stage) (host : HostCode Stage) (b₀ : Bridge Stage) :
    List ScriptTurn → Bridge Stage → Prop where
  | none : Plays s host b₀ [] b₀
  | next {turns : List ScriptTurn} {b b' : Bridge Stage} {cue : Cue} :
      Plays s host b₀ turns b → cue.Ends s host b b' →
        Plays s host b₀ (turns ++ [⟨cue, b, b'⟩]) b'

section

variable {adds : Delivery → Script} {s : Session Stage} {host : HostCode Stage}
  (hs : s.client = Stage.client host) (hhost : host.Supplies adds) {b₀ b : Bridge Stage}
  {turns : List ScriptTurn} (hcalm : b₀.native.Calm)

include hs hhost hcalm

private theorem Plays.calm (h : s.Plays host b₀ turns b) : b.native.Calm ∧
    ∀ t ∈ turns, t.before.native.Calm ∧ t.cue.Ends s host t.before t.after := by
  induction h with
  | none => exact ⟨hcalm, fun _ ht => absurd ht List.not_mem_nil⟩
  | @next turns b b' cue _ hcue ih =>
    obtain ⟨hb, hturns⟩ := ih
    have hturn := accounted_turn hs hhost (t := ⟨cue, b, b'⟩) hb hcue
    refine ⟨hturn.1, fun t ht => ?_⟩
    rcases List.mem_append.mp ht with ht | ht
    · exact hturns t ht
    · rw [List.mem_singleton.mp ht]
      exact ⟨hb, hcue⟩

/-- Batches are taken in the order they were put behind the script in, each of them once. -/
theorem Plays.conserved (h : s.Plays host b₀ turns b) :
    (Script.total (·.taken) turns).extend b.native.script =
      b₀.native.script.extend (.total (·.enqueued adds) turns) := by
  induction h with
  | none => simp [Script.total]
  | @next turns b b' cue hrun hcue ih =>
    have hturn := (accounted_turn hs hhost (t := ⟨cue, b, b'⟩)
      (hrun.calm hs hhost hcalm).1 hcue).2.script
    calc (Script.total (·.taken) (turns ++ [⟨cue, b, b'⟩])).extend b'.native.script
      _ = (Script.total (·.taken) turns).extend
          ((ScriptTurn.mk cue b b').taken.extend b'.native.script) := by
        rw [Script.total_append, Script.total_singleton, Script.extend_assoc]
      _ = ((Script.total (·.taken) turns).extend b.native.script).extend
          ((ScriptTurn.mk cue b b').enqueued adds) := by
        rw [hturn, Script.extend_assoc]
      _ = b₀.native.script.extend
          (.total (·.enqueued adds) (turns ++ [⟨cue, b, b'⟩])) := by
        rw [ih, Script.extend_assoc, Script.total_append, Script.total_singleton]

/-- The batches of messages that the host hears are those that were taken, in the same order. -/
theorem Plays.heard (h : s.Plays host b₀ turns b) : ∃ news, b.deliveries = b₀.deliveries ++ news ∧
    ((∀ t ∈ turns, t.Playable) → batchesIn news =
      (Script.total (·.taken) turns).push.map (·.map (·.received))) := by
  induction h with
  | none => exact ⟨[], (List.append_nil _).symm, fun _ => rfl⟩
  | @next turns b b' cue hrun hcue ih =>
    obtain ⟨news, hnews, hbatches⟩ := ih
    have hturn := (accounted_turn hs hhost (t := ⟨cue, b, b'⟩)
      (hrun.calm hs hhost hcalm).1 hcue).2
    refine ⟨news ++ (ScriptTurn.mk cue b b').told, ?_, fun hplayable => ?_⟩
    · rw [hturn.deliveries, hnews, List.append_assoc]
    · have hlast := hplayable _ (List.mem_append_right _ (List.mem_singleton_self _))
      have hearlier := hbatches fun t ht => hplayable t (List.mem_append_left _ ht)
      rw [batchesIn, List.filterMap_append, Script.total_append, Script.total_singleton,
        Script.extend, List.map_append, ← hearlier, ← hturn.batches hlast]
      rfl

/-- In any run of calls, changes of health, arrangements and batches put behind the script: what the
turns take, and then what is left, is what there was and what was put behind it. An open that is
accepted takes the batch of messages at the front and delivers it as it was scripted before it
succeeds, if its messages can be sent and name open queues. A post that is decided takes the batch
of acknowledgements at the front; one that the client was asked for is decided unless it was not
expected. Nothing else takes any. -/
theorem batches_taken_in_order (h : s.Plays host b₀ turns b) :
    (∀ t ∈ turns, t.Accounted adds ∧
      (∀ uri read write options timeout,
        t.cue = .call (.openQueue uri read write options timeout) → t.Playable →
          ((s.openQueue uri read write options timeout).run t.before = .ok (.ok ()) t.after ↔
            t.opens = true)) ∧
      (∀ uri payload properties onAck, t.cue = .call (.post uri payload properties onAck) →
        t.after.native.asked ≠ t.before.native.asked → t.posts = false → ∃ m,
          (s.post uri payload properties onAck).run t.before =
            .error (.panic (.expectation m)) t.after)) ∧
    (Script.total (·.taken) turns).extend b.native.script =
      b₀.native.script.extend (.total (·.enqueued adds) turns) ∧
    ∃ news, b.deliveries = b₀.deliveries ++ news ∧ ((∀ t ∈ turns, t.Playable) →
      batchesIn news = (Script.total (·.taken) turns).push.map (·.map (·.received))) := by
  refine ⟨fun t ht => ?_, h.conserved hs hhost hcalm, h.heard hs hhost hcalm⟩
  obtain ⟨hcalm, hends⟩ := (h.calm hs hhost hcalm).2 t ht
  refine ⟨(accounted_turn hs hhost hcalm hends).2, ?_, ?_⟩
  · intro uri read write options timeout hcue
    rw [hcue] at hends
    exact (accounted_openQueue hs hhost hcue hcalm hends).2.2
  · intro uri payload properties onAck hcue
    rw [hcue] at hends
    exact (accounted_post hs hhost hcue hcalm hends).2.2

end

/-! ## A batch for an open and one for a post -/

def restocking (adds : Delivery → Script) : HostCode Stage := fun d => do
  modifyNative fun n => { n with script := n.script.extend (adds d) }
  return .ok

private theorem supplies_restocking (adds : Delivery → Script) : (restocking adds).Supplies adds :=
  fun _ => ⟨fun | rfl => ⟨rfl, rfl, rfl, rfl, rfl⟩, nofun⟩

def greeting : ScriptedPush where
  payload := ⟨#[1]⟩
  guid := .zero
  queueUri := "bmq://d/q"

def receipt : ScriptedAck where
  status := 0
  guid := .zero
  queueUri := "bmq://d/q"

/-- Each batch of messages is answered by a receipt for the post that comes next. -/
def receipts : Delivery → Script
  | .messages _ => { ack := [[receipt]] }
  | _ => {}

/-- A queue is opened, and what is delivered to it puts a receipt behind the script; a post takes
it, and nothing is left. -/
theorem batches_taken_in_order_receipt : ∃ b₁ b₂ b₃ b,
    let s := plainSession (restocking receipts)
    let turns : List ScriptTurn := [
      ⟨.push [greeting], { native := {} }, b₁⟩, ⟨.call (.start none), b₁, b₂⟩,
      ⟨.call (.openQueue "bmq://d/q" true true {} none), b₂, b₃⟩,
      ⟨.call (.post "bmq://d/q" ⟨#[1]⟩ none none), b₃, b⟩]
    s.Plays (restocking receipts) { native := {} } turns b ∧
      turns.map (·.opens) = [false, false, true, false] ∧
      turns.map (·.posts) = [false, false, false, true] ∧
      (s.openQueue "bmq://d/q" true true {} none).run b₂ = .ok (.ok ()) b₃ ∧
      b.native.script = {} ∧
      Script.total (·.taken) turns = Script.total (·.enqueued receipts) turns ∧
      batchesIn b.deliveries =
        (Script.total (·.taken) turns).push.map (·.map (·.received)) := by
  let s := plainSession (restocking receipts)
  let b₁ : Bridge Stage := { native := { script := { push := [[greeting]] } } }
  let turns (b₂ b₃ b : Bridge Stage) : List ScriptTurn := [
      ⟨.push [greeting], { native := {} }, b₁⟩, ⟨.call (.start none), b₁, b₂⟩,
      ⟨.call (.openQueue "bmq://d/q" true true {} none), b₂, b₃⟩,
      ⟨.call (.post "bmq://d/q" ⟨#[1]⟩ none none), b₃, b⟩]
  have hrun : (match (s.start none).run b₁ with
      | .ok (.ok ()) b₂ => match (s.openQueue "bmq://d/q" true true {} none).run b₂ with
        | .ok (.ok ()) b₃ => match (s.post "bmq://d/q" ⟨#[1]⟩ none none).run b₃ with
          | .ok (.ok ()) b =>
              (turns b₂ b₃ b).map (·.opens) == [false, false, true, false] &&
                (turns b₂ b₃ b).map (·.posts) == [false, false, false, true] &&
                b.native.script.push.isEmpty && b.native.script.ack.isEmpty &&
                (turns b₂ b₃ b).all fun t => decide t.Playable
          | _ => false
        | _ => false
      | _ => false) = true := by decide +kernel
  split at hrun
  case h_2 => cases hrun
  case h_1 b₂ hstart =>
  split at hrun
  case h_2 => cases hrun
  case h_1 b₃ hopen =>
  split at hrun
  case h_2 => cases hrun
  case h_1 b hpost =>
  simp only [Bool.and_eq_true, beq_iff_eq, List.isEmpty_iff, List.all_eq_true,
    decide_eq_true_eq] at hrun
  obtain ⟨⟨⟨⟨hopens, hposts⟩, hpush⟩, hack⟩, hplayable⟩ := hrun
  have hplays : s.Plays (restocking receipts) { native := {} } (turns b₂ b₃ b) b := by
    have hpushed : (Cue.push [greeting]).Ends s (restocking receipts) { native := {} } b₁ :=
      .inl ⟨(), rfl⟩
    have hstarted : (Cue.call (.start none)).Ends s (restocking receipts) b₁ b₂ :=
      .inl ⟨_, hstart⟩
    have hopened : (Cue.call (.openQueue "bmq://d/q" true true {} none)).Ends s
        (restocking receipts) b₂ b₃ := .inl ⟨_, hopen⟩
    have hposted : (Cue.call (.post "bmq://d/q" ⟨#[1]⟩ none none)).Ends s
        (restocking receipts) b₃ b := .inl ⟨_, hpost⟩
    exact (((Plays.none.next hpushed).next hstarted).next hopened).next hposted
  have hcalm : ({ native := {} } : Bridge Stage).native.Calm := rfl
  obtain ⟨-, htaken, news, hnews, hbatches⟩ :=
    batches_taken_in_order rfl (supplies_restocking receipts) hcalm hplays
  have hleft : b.native.script = {} := by
    cases hscript : b.native.script with
    | mk push ack =>
      rw [hscript] at hpush hack
      cases hpush
      cases hack
      rfl
  rw [hleft, Script.extend_empty, Script.empty_extend] at htaken
  have htold : b.deliveries = news := hnews
  rw [← htold] at hbatches
  exact ⟨b₁, b₂, b₃, b, hplays, hopens, hposts, hopen, hleft, htaken, hbatches hplayable⟩

def expectingOpen : Bridge Stage where
  native :=
    { expectations :=
        { mode := .strict
          pending := [.start (.ofSeconds 60),
            .openQueue "bmq://d/q" (.ofAccess true true) {} (.ofSeconds 300)] }
      script := { ack := [[receipt]] } }

/-- A post that is not expected reaches the client, and no batch is taken for it. -/
theorem unexpected_post_takes_none : ∃ b₁ b₂ b m,
    let s := plainSession (.ending fun _ => .ok)
    (s.start none).run expectingOpen = .ok (.ok ()) b₁ ∧
    (s.openQueue "bmq://d/q" true true {} none).run b₁ = .ok (.ok ()) b₂ ∧
    (s.post "bmq://d/q" ⟨#[1]⟩ none (some ⟨"H"⟩)).run b₂ = .error (.panic (.expectation m)) b ∧
    b.native.asked.length = b₂.native.asked.length + 1 ∧
    b₂.native.script.ack = [[receipt]] ∧ b.native.script.ack = [[receipt]] := by
  let s := plainSession (.ending fun _ => .ok)
  have hrun : (match (s.start none).run expectingOpen with
      | .ok (.ok ()) b₁ => match (s.openQueue "bmq://d/q" true true {} none).run b₁ with
        | .ok (.ok ()) b₂ => match attempt (s.post "bmq://d/q" ⟨#[1]⟩ none (some ⟨"H"⟩)).run b₂ with
          | .ok (.error (.expectation _)) b =>
              b.native.asked.length == b₂.native.asked.length + 1 &&
                b₂.native.script.ack == [[receipt]] && b.native.script.ack == [[receipt]]
          | _ => false
        | _ => false
      | _ => false) = true := by decide +kernel
  split at hrun
  case h_2 => cases hrun
  case h_1 b₁ hstart =>
  split at hrun
  case h_2 => cases hrun
  case h_1 b₂ hopen =>
  split at hrun
  case h_2 => cases hrun
  case h_1 m b hpost =>
  simp only [Bool.and_eq_true, beq_iff_eq] at hrun
  obtain ⟨⟨hasked, hbefore⟩, hafter⟩ := hrun
  have hpanics := endsIn_of_attempt hpost
  exact ⟨b₁, b₂, b, m, hstart, hopen, hpanics, hasked, hbefore, hafter⟩

end Session

end BrokerBridge
