import BrokerBridge.Proofs.Replay.Hushed
import BrokerBridge.Proofs.Replay.PostedToken

/-!
# Playing the script

An open or a post that is decided takes the batch at the front of the script, and no other call
takes any. The callbacks that hear a batch may put others behind the script. What is taken and what
is left are, one behind the other, what there was and what has been put behind it.
-/

namespace BrokerBridge

universe u

open Act

/-! ## Scripts one behind another -/

namespace Script

def total {α : Type u} (f : α → Script) (l : List α) : Script where
  push := l.flatMap fun x => (f x).push
  ack := l.flatMap fun x => (f x).ack

theorem total_append {α : Type u} (f : α → Script) (l₁ l₂ : List α) :
    total f (l₁ ++ l₂) = (total f l₁).extend (total f l₂) := by
  simp [total, extend]

theorem total_singleton {α : Type u} (f : α → Script) (x : α) : total f [x] = f x := by
  simp [total]

def frontPush (e : Script) : Script := { push := e.push.take 1 }

def frontAck (e : Script) : Script := { ack := e.ack.take 1 }

private theorem extend_popPush (e : Script) : e.frontPush.extend e.popPush.2 = e := by
  simp only [frontPush, popPush, extend, ← List.drop_one, List.take_append_drop, List.nil_append]

private theorem extend_popAck (e : Script) : e.frontAck.extend e.popAck.2 = e := by
  simp only [frontAck, popAck, extend, ← List.drop_one, List.take_append_drop, List.nil_append]

end Script

def ScriptedPush.received (p : ScriptedPush) : ReceivedMessage where
  payload := p.payload
  guid := p.guid
  queueUri := p.queueUri
  properties :=
    match p.wire with
    | .ok wire => (Property.decode wire).1
    | .error _ => .empty

def Delivery.batch? : Delivery → Option (List ReceivedMessage)
  | .messages batch => some batch
  | _ => none

def batchesIn (deliveries : List Delivery) : List (List ReceivedMessage) :=
  deliveries.filterMap (·.batch?)

/-- The calls that a batch of the script may be for. -/
def NativeCall.isScripted : NativeCall → Bool
  | .openQueue .. | .post .. => true
  | _ => false

def Stage.asked (n : Stage) : List NativeCall := n.arrived.filter (·.isScripted)

/-- The opens and posts that came as far as being decided. -/
def Stage.answered (n : Stage) : List NativeCall := n.decided.filter (·.isScripted)

/-! ## Accounts of the script -/

/-- What callbacks put behind the script for each delivery is there, after what was taken has been
taken, and these batches of messages have been delivered. -/
def ScriptAccount (adds : Delivery → Script) (taken : Script) (told : List (List ReceivedMessage))
    (b b' : Bridge Stage) : Prop :=
  ∃ news, b'.deliveries = b.deliveries ++ news ∧ batchesIn news = told ∧
    taken.extend b'.native.script = b.native.script.extend (.total adds news)

/-- Nothing is delivered, nor does anything happen to what is buffered, to the script, and to the
opens and posts. -/
structure Resting (b b' : Bridge Stage) : Prop where
  deliveries : b'.deliveries = b.deliveries
  buffers : b'.native.ledger.buffers = b.native.ledger.buffers
  script : b'.native.script = b.native.script
  asked : b'.native.asked = b.native.asked
  answered : b'.native.answered = b.native.answered

theorem resting_frame : Frame Resting where
  same hn hd := ⟨hd, by rw [hn], by rw [hn], by rw [hn], by rw [hn]⟩
  trans h₁ h₂ := ⟨h₂.1.trans h₁.1, h₂.2.trans h₁.2, h₂.3.trans h₁.3, h₂.4.trans h₁.4,
    h₂.5.trans h₁.5⟩

section

variable {adds : Delivery → Script}

theorem ScriptAccount.comp {taken₁ taken₂ : Script} {told₁ told₂ : List (List ReceivedMessage)}
    {b₁ b₂ b₃ : Bridge Stage} (h₁ : ScriptAccount adds taken₁ told₁ b₁ b₂)
    (h₂ : ScriptAccount adds taken₂ told₂ b₂ b₃) :
    ScriptAccount adds (taken₁.extend taken₂) (told₁ ++ told₂) b₁ b₃ := by
  obtain ⟨news₁, hnews₁, htold₁, hscript₁⟩ := h₁
  obtain ⟨news₂, hnews₂, htold₂, hscript₂⟩ := h₂
  refine ⟨news₁ ++ news₂, ?_, ?_, ?_⟩
  · rw [hnews₂, hnews₁, List.append_assoc]
  · rw [batchesIn, List.filterMap_append, ← htold₁, ← htold₂]
    rfl
  · rw [Script.extend_assoc, hscript₂, ← Script.extend_assoc, hscript₁, Script.extend_assoc,
      Script.total_append]

private theorem account_of_taken {taken : Script} {b b' : Bridge Stage}
    (hdeliveries : b'.deliveries = b.deliveries)
    (hscript : taken.extend b'.native.script = b.native.script) :
    ScriptAccount adds taken [] b b' := by
  refine ⟨[], ?_, rfl, ?_⟩
  · rw [hdeliveries, List.append_nil]
  · rw [hscript]
    exact (Script.extend_empty _).symm

theorem account_of_same {b b' : Bridge Stage} (hdeliveries : b'.deliveries = b.deliveries)
    (hscript : b'.native.script = b.native.script) : ScriptAccount adds {} [] b b' :=
  account_of_taken hdeliveries (by rw [hscript, Script.empty_extend])

end

/-! ## Host code that does not call back -/

structure Stocks (more : Script) (b b' : Bridge Stage) : Prop where
  ledger : b'.native.ledger = b.native.ledger
  arrived : b'.native.arrived = b.native.arrived
  decided : b'.native.decided = b.native.decided
  deliveries : b'.deliveries = b.deliveries
  script : b'.native.script = b.native.script.extend more

theorem stocks_modifyNative {more : Script} {f : Script → Script} (hf : ∀ e, f e = e.extend more) :
    Within (Stocks more) (modifyNative fun n => { n with script := f n.script }) :=
  within_modifyNative fun b => ⟨rfl, rfl, rfl, rfl, hf b.native.script⟩

/-- Host code that does not call back, and puts certain batches behind the script each time. -/
def HostCode.Supplies (adds : Delivery → Script) (host : HostCode Stage) : Prop :=
  ∀ d, Within (Stocks (adds d)) (host d)

structure Played (adds : Delivery → Script) (told : List (List ReceivedMessage))
    (b b' : Bridge Stage) : Prop where
  ledger : b'.native.ledger = b.native.ledger
  arrived : b'.native.arrived = b.native.arrived
  decided : b'.native.decided = b.native.decided
  account : ScriptAccount adds {} told b b'

section

variable {adds : Delivery → Script} {told : List (List ReceivedMessage)}

private theorem Played.comp {told₁ told₂ : List (List ReceivedMessage)} {b₁ b₂ b₃ : Bridge Stage}
    (h₁ : Played adds told₁ b₁ b₂) (h₂ : Played adds told₂ b₂ b₃) :
    Played adds (told₁ ++ told₂) b₁ b₃ where
  ledger := h₂.ledger.trans h₁.ledger
  arrived := h₂.arrived.trans h₁.arrived
  decided := h₂.decided.trans h₁.decided
  account := h₁.account.comp h₂.account

private theorem played_frame : Frame (Played adds []) where
  same hn hd := ⟨by rw [hn], by rw [hn], by rw [hn], account_of_same hd (by rw [hn])⟩
  trans := Played.comp

private theorem Played.between {b₁ b₂ b₃ b₄ : Bridge Stage} (hbefore : Played adds [] b₁ b₂)
    (h : Played adds told b₂ b₃) (hafter : Played adds [] b₃ b₄) : Played adds told b₁ b₄ := by
  have hall := (hbefore.comp h).comp hafter
  rwa [List.nil_append, List.append_nil] at hall

theorem Played.calm {b b' : Bridge Stage} (h : Played adds told b b') (hcalm : b.native.Calm) :
    b'.native.Calm :=
  (congrArg Ledger.buffers h.ledger).trans hcalm

private theorem playedCalm_frame : Frame fun b b' => b.native.Calm → Played adds [] b b' where
  same hn hd _ := played_frame.same hn hd
  trans h₁ h₂ hcalm := (h₁ hcalm).comp (h₂ ((h₁ hcalm).calm hcalm))

end

namespace Stage

section

variable {adds : Delivery → Script} {told : List (List ReceivedMessage)} {α : Type}

private theorem played_inHost {body : Act Stage α} (h : Within (Played adds told) body) :
    Within (Played adds told) (inHost body) :=
  within_inHost_between played_frame Played.between h

private theorem played_bind {β : Type} {m : Act Stage α} {k : α → Act Stage β}
    (hm : Within (Played adds []) m) (hquiet : NeverPanics m)
    (hk : ∀ x, Within (Played adds told) (k x)) : Within (Played adds told) (m >>= k) := by
  refine within_bind_comp ?_ hm hquiet hk
  exact fun h₁ h₂ => h₁.comp h₂

variable {host : HostCode Stage} (hhost : host.Supplies adds)

include hhost

private theorem played_callHost (d : Delivery) :
    Within (Played adds (batchesIn [d])) (callHost host d) where
  ok {b x b'} h := by
    obtain ⟨_, b₁, hdeliver, h⟩ := bind_eq_ok.mp h
    cases hdeliver
    obtain ⟨outcome, b₂, hended, hreturned⟩ := bind_eq_ok.mp h
    have hstocks := (within_attempt (hhost d)).ok hended
    obtain ⟨hnative, hdeliveries⟩ := (within_hostReturned same_frame d outcome).ok hreturned
    refine ⟨?_, ?_, ?_, [d], ?_, rfl, ?_⟩
    · rw [hnative, hstocks.ledger]
    · rw [hnative, hstocks.arrived]
    · rw [hnative, hstocks.decided]
    · rw [hdeliveries, hstocks.deliveries]
    · rw [hnative, hstocks.script, Script.empty_extend, Script.total_singleton]
  panic h := absurd h (neverPanics_callHost host d _ _ _)

theorem played_tellEvent (e : SessionEvent) :
    Within (Played adds []) (NativeEvent.tell host (.session e)) :=
  played_inHost (played_callHost hhost (.notification (.event (.ofEvent e))))

private theorem played_tellAcks (messages : List Message) :
    Within (Played adds []) (NativeEvent.tell host (.message (.ack messages))) := by
  have hacked : Within (Played adds []) ((MessageEvent.ack messages).tellAcked host) := by
    apply within_bind played_frame (within_observe played_frame _)
    intro _
    split
    · apply within_bind played_frame (within_observe played_frame _)
      exact fun _ => played_callHost hhost (.acks _)
    · exact within_pure played_frame _
  exact played_inHost hacked

private theorem played_tellMessages (messages : List Message) :
    Within (Played adds [(receiveBatch messages).1])
      (NativeEvent.tell host (.message (.push messages))) := by
  have hlast : Within (Played adds [(receiveBatch messages).1]) (do
      Act.observe fun c =>
        { c with messagesPushed := c.messagesPushed + (receiveBatch messages).1.length }
      callHost host (.messages (receiveBatch messages).1)) :=
    played_bind (within_observe played_frame _) (neverPanics_modify _)
      fun _ => played_callHost hhost (.messages _)
  have hpushed : Within (Played adds [(receiveBatch messages).1])
      ((MessageEvent.push messages).tellPushed host) := by
    unfold MessageEvent.tellPushed
    simp only
    split
    · apply played_bind (within_observe played_frame _) (neverPanics_modify _)
      intro _
      apply played_bind (played_callHost hhost (.notification _)) (neverPanics_callHost _ _)
      exact fun _ => hlast
    · exact hlast
  exact played_inHost hpushed

omit hhost

private theorem played_holding (tokens : List Correlation) {body : Act Stage α}
    (h : Within (Played adds told) body) : Within (Played adds told) (holding tokens body) :=
  within_holding (fun _ _ h => ⟨h.ledger, h.arrived, h.decided, h.account⟩) h

/-- An event that finds the buffer empty is heard as the host is told it. -/
theorem played_passOn {e : NativeEvent} (h : Within (Played adds told) (e.tell host)) :
    Within (fun b b' => b.native.Calm → Played adds told b b') (passOn host e) :=
  within_passOn ((played_holding (tokensOf e) h).mono fun _ _ h _ => h)

end

/-! ## Batches -/

theorem within_pushMessage {R : Bridge Stage → Bridge Stage → Prop} (hR : Frame R)
    (p : ScriptedPush) : Within R (pushMessage p) := by
  unfold pushMessage
  split
  · exact within_throw hR _
  · exact within_bind hR (within_openHandle hR _) fun _ => within_pure hR _

theorem pushMessage_apply (p : ScriptedPush) (b : Bridge Stage) : pushMessage p b =
    match p.wire with
    | .error e => .error (.panic (.unencodable e)) b
    | .ok wire =>
        match b.native.ledger.queue? p.queueUri with
        | some q => .ok (.push q p.guid p.payload (some wire)) b
        | none => .error (.panic (.queueMissing p.queueUri)) b := by
  unfold pushMessage
  cases p.wire with
  | error e => rfl
  | ok wire =>
    have hopen := openHandle_apply p.queueUri b
    cases hq : b.native.ledger.queue? p.queueUri with
    | some q =>
      rw [hq] at hopen
      exact bind_of_ok hopen
    | none =>
      rw [hq] at hopen
      exact bind_of_error hopen

/-- A message that is made of a scripted one is received as it was scripted. -/
theorem receiveBatch_cons {p : ScriptedPush} {m : Message} {b b' : Bridge Stage}
    (h : pushMessage p b = .ok m b') (messages : List Message) :
    b' = b ∧ (receiveBatch (m :: messages)).1 = p.received :: (receiveBatch messages).1 := by
  rw [pushMessage_apply] at h
  split at h
  · cases h
  next wire hwire =>
  split at h
  · next q hq =>
    cases h
    refine ⟨rfl, ?_⟩
    rw [ScriptedPush.received, hwire, ← Ledger.uri_of_queue? hq]
    rfl
  · cases h

private theorem pushMessages_ok {batch : List ScriptedPush} {messages : List Message}
    {b b' : Bridge Stage}
    (h : batch.mapM pushMessage b = .ok messages b') :
    b' = b ∧ (receiveBatch messages).1 = batch.map (·.received) := by
  induction batch generalizing messages b b' with
  | nil =>
    cases h
    exact ⟨rfl, rfl⟩
  | cons p rest ih =>
    rw [List.mapM_cons] at h
    obtain ⟨m, b₁, hm, h⟩ := bind_eq_ok.mp h
    obtain ⟨messages', b₂, hrest, h⟩ := bind_eq_ok.mp h
    cases h
    obtain ⟨rfl, hreceived⟩ := receiveBatch_cons hm messages'
    obtain ⟨rfl, htail⟩ := ih hrest
    exact ⟨rfl, by rw [hreceived, htail, List.map_cons]⟩

end Stage

def Ledger.CanPlay (l : Ledger) (batch : List ScriptedPush) : Prop :=
  ∀ p ∈ batch, p.wire.isOk = true ∧ (l.queue? p.queueUri).isSome = true

instance (l : Ledger) (batch : List ScriptedPush) : Decidable (l.CanPlay batch) :=
  inferInstanceAs (Decidable (∀ p ∈ batch, _ ∧ _))

namespace Stage

private theorem pushMessages_of_canPlay {batch : List ScriptedPush} {b : Bridge Stage}
    (h : b.native.ledger.CanPlay batch) :
    ∃ messages, batch.mapM pushMessage b = .ok messages b := by
  induction batch with
  | nil => exact ⟨[], rfl⟩
  | cons p rest ih =>
    obtain ⟨hsent, hopen⟩ := h p (List.mem_cons_self ..)
    obtain ⟨q, hq⟩ := Option.isSome_iff_exists.mp hopen
    obtain ⟨messages, hrest⟩ := ih fun p hp => h p (List.mem_cons_of_mem _ hp)
    cases hwire : p.wire with
    | error e =>
      rw [hwire] at hsent
      cases hsent
    | ok wire =>
      have hm : pushMessage p b = .ok (.push q p.guid p.payload (some wire)) b := by
        rw [pushMessage_apply, hwire]
        simp only [hq]
      rw [List.mapM_cons]
      exact ⟨_, (bind_of_ok hm).trans (bind_of_ok hrest)⟩

section

variable {adds : Delivery → Script} {host : HostCode Stage} (hhost : host.Supplies adds)

include hhost

private theorem playPush_endsIn {batch : List ScriptedPush} {r : Except Panic Unit}
    {b b' : Bridge Stage}
    (hcalm : b.native.Calm) (h : (playPush host batch).EndsIn r b b') :
    ∃ told, Played adds told b b' ∧ (b.native.ledger.CanPlay batch →
      told = [batch.map (·.received)] ∧ r = .ok ()) := by
  rcases endsIn_of_bind h with ⟨messages, b₁, hmessages, hpass⟩ | ⟨cause, -, hpanic⟩
  · obtain ⟨rfl, hreceived⟩ := pushMessages_ok hmessages
    refine ⟨_, (played_passOn (played_tellMessages hhost messages)).ends hpass.ends hcalm, ?_⟩
    intro _
    refine ⟨by rw [hreceived], ?_⟩
    cases r with
    | ok => rfl
    | error cause =>
      have hpending : b₁.native.ledger.pending = [] := congrArg Prod.snd hcalm
      have hpanic : passOn host (.message (.push messages)) b₁ = .error (.panic cause) b' := hpass
      rw [passOn_apply hpending] at hpanic
      exact absurd hpanic (neverPanics_holding _ (neverPanics_tell host _) _ _ _)
  · have hsame : Within Same (batch.mapM pushMessage) :=
      (closed_mapM (g := pushMessage) (closed_follows same_frame.composes)
        fun p _ => (within_pushMessage same_frame p).follows).within
    obtain ⟨hnative, hdeliveries⟩ := hsame.panic hpanic
    refine ⟨[], played_frame.same hnative hdeliveries, fun hcan => ?_⟩
    obtain ⟨messages, hmessages⟩ := pushMessages_of_canPlay hcan
    rw [hmessages] at hpanic
    cases hpanic

end

end Stage

/-! ## Opens and posts -/

/-- Nothing is buffered, these opens and posts have been answered, and the script is accounted
for. -/
structure Drawn (adds : Delivery → Script) (calls : List NativeCall) (taken : Script)
    (told : List (List ReceivedMessage)) (b b' : Bridge Stage) : Prop where
  calm : b'.native.Calm
  answered : b'.native.answered = b.native.answered ++ calls
  account : ScriptAccount adds taken told b b'

section

variable {adds : Delivery → Script} {calls : List NativeCall} {taken : Script}
  {told : List (List ReceivedMessage)} {b₁ b₂ b₃ : Bridge Stage}

private theorem Drawn.comp {calls' : List NativeCall} {taken' : Script}
    {told' : List (List ReceivedMessage)} (h₁ : Drawn adds calls taken told b₁ b₂)
    (h₂ : Drawn adds calls' taken' told' b₂ b₃) :
    Drawn adds (calls ++ calls') (taken.extend taken') (told ++ told') b₁ b₃ where
  calm := h₂.calm
  answered := by rw [h₂.answered, h₁.answered, List.append_assoc]
  account := h₁.account.comp h₂.account

theorem Resting.calm (h : Resting b₁ b₂) (hcalm : b₁.native.Calm) : b₂.native.Calm :=
  h.buffers.trans hcalm

theorem Resting.drawn (h : Resting b₁ b₂) (hcalm : b₁.native.Calm) :
    Drawn adds [] {} [] b₁ b₂ where
  calm := h.calm hcalm
  answered := by rw [h.answered, List.append_nil]
  account := account_of_same h.deliveries h.script

theorem Drawn.before (h₁ : Resting b₁ b₂) (h₂ : Drawn adds calls taken told b₂ b₃) :
    Drawn adds calls taken told b₁ b₃ where
  calm := h₂.calm
  answered := by rw [h₂.answered, h₁.answered]
  account := by
    have hall := (account_of_same h₁.deliveries h₁.script).comp h₂.account
    rwa [Script.empty_extend, List.nil_append] at hall

theorem Drawn.after (h₁ : Drawn adds calls taken told b₁ b₂) (h₂ : Resting b₂ b₃) :
    Drawn adds calls taken told b₁ b₃ := by
  have hall := h₁.comp (h₂.drawn h₁.calm)
  rwa [Script.extend_empty, List.append_nil, List.append_nil] at hall

private theorem Drawn.played (h₁ : Drawn adds calls taken [] b₁ b₂) (h₂ : Played adds told b₂ b₃) :
    Drawn adds calls taken told b₁ b₃ where
  calm := h₂.calm h₁.calm
  answered := by
    rw [← h₁.answered, Stage.answered, h₂.decided]
    rfl
  account := by
    have hall := h₁.account.comp h₂.account
    rwa [Script.extend_empty, List.nil_append] at hall

end

namespace Stage

def openDecided (host : HostCode Stage) (call : NativeCall) (uri : String) (status : QueueStatus) :
    Act Stage QueueStatus := do
  let code ← settle call (·.openQueue)
  if code ≠ Code.success then
    modifyLedger (·.dropQueue uri)
    return ⟨status.queue, code, "mock open rejected with " ++ Code.openQueue.name code⟩
  match ← onNative fun s => let (b, script) := s.script.popPush; (b, { s with script }) with
  | some batch => playPush host batch
  | none => pure ()
  return status

def Accepts (r : Except Panic QueueStatus) : Prop :=
  ∃ status, r = .ok status ∧ status.code = Code.success

theorem not_accepts {status : QueueStatus} (h : status.code ≠ Code.success) :
    ¬ Accepts (.ok status) := by
  intro ⟨_, heq, hcode⟩
  cases heq
  exact h hcode

private theorem openQueue_eq (host : HostCode Stage) (uri : String) (flags : QueueFlags)
    (options : QueueOptions) (timeout : Duration) :
    openQueue host uri flags options timeout = (do
      observe (.openQueue uri flags options timeout)
      let status ← ledgerUpdate (·.openQueue uri flags options)
      if status.code ≠ Code.success then return status
      inHost (openDecided host (.openQueue uri flags options timeout) uri status)) :=
  rfl

section

variable {adds : Delivery → Script} {b b' : Bridge Stage}

/-- A call that is checked, and a change of the books that buffers nothing. -/
theorem drawn_checked (hcalm : b.native.Calm) (call : NativeCall) {l : Ledger}
    (hl : l.buffers = b.native.ledger.buffers) :
    Drawn adds [] {} [] b { b with native := { b.native.checked call with ledger := l } } where
  calm := hl.trans hcalm
  answered := (List.append_nil _).symm
  account := account_of_same rfl rfl

private theorem drawn_settled (hcalm : b.native.Calm) {call : NativeCall}
    (hcall : call.isScripted = true)
    {code : Verdicts → Int} {x : Int} (h : settle call code b = .ok x b') :
    b'.native.script = b.native.script ∧ Drawn adds [call] {} [] b b' := by
  cases h
  refine ⟨rfl, hcalm, ?_, account_of_same rfl rfl⟩
  show (b.native.decided ++ [call]).filter (·.isScripted) = _
  rw [List.filter_append, List.filter_cons_of_pos hcall]
  rfl

private theorem drawn_taken {calls : List NativeCall} {told : List (List ReceivedMessage)}
    {b₁ b₂ : Bridge Stage} {taken script : Script} (hdecided : Drawn adds calls {} [] b b₁)
    (hscript : taken.extend script = b₁.native.script)
    (h : Played adds told { b₁ with native := { b₁.native with script } } b₂) :
    Drawn adds calls taken told b b₂ := by
  have hpopped : Drawn adds [] taken [] b₁ { b₁ with native := { b₁.native with script } } :=
    ⟨hdecided.calm, (List.append_nil _).symm, account_of_taken rfl hscript⟩
  have hall := hdecided.comp hpopped
  rw [List.append_nil, Script.empty_extend] at hall
  exact hall.played h

variable {host : HostCode Stage} (hhost : host.Supplies adds)

include hhost

private theorem playFront_endsIn {front : Option (List ScriptedPush)} {status : QueueStatus}
    {r : Except Panic QueueStatus} (hcalm : b.native.Calm)
    (h : (match front with
      | some batch => do
        playPush host batch
        return status
      | none => return status : Act Stage QueueStatus).EndsIn r b b') :
    ∃ told, Played adds told b b' ∧
      ((∀ batch ∈ front.toList, b.native.ledger.CanPlay batch) →
        told = front.toList.map (·.map (·.received)) ∧ r = .ok status) := by
  cases front with
  | none =>
    obtain ⟨rfl, rfl⟩ := endsIn_pure h
    exact ⟨[], played_frame.same rfl rfl, fun _ => ⟨rfl, rfl⟩⟩
  | some batch =>
    have hplay : ∃ r', (playPush host batch).EndsIn r' b b' ∧ (r' = .ok () → r = .ok status) := by
      rcases endsIn_of_bind h with ⟨_, b₁, hplay, h⟩ | ⟨cause, _, hplay⟩
      · obtain ⟨rfl, rfl⟩ := endsIn_pure h
        exact ⟨.ok (), hplay, fun _ => rfl⟩
      · exact ⟨.error cause, hplay, fun h => nomatch h⟩
    obtain ⟨r', hplay, hr⟩ := hplay
    obtain ⟨told, hplayed, htold⟩ := playPush_endsIn hhost hcalm hplay
    refine ⟨told, hplayed, fun hcan => ?_⟩
    obtain ⟨htold, hok⟩ := htold (hcan batch (List.mem_singleton_self batch))
    exact ⟨htold, hr hok⟩

private theorem openDecided_endsIn {call : NativeCall} (hcall : call.isScripted = true)
    {uri : String}
    {status : QueueStatus} {r : Except Panic QueueStatus} (hcalm : b.native.Calm)
    (h : (openDecided host call uri status).EndsIn r b b') :
    (b.native.codes.openQueue ≠ Code.success ∧ ¬ Accepts r ∧ Drawn adds [call] {} [] b b') ∨
    (b.native.codes.openQueue = Code.success ∧
      ∃ told, Drawn adds [call] b.native.script.frontPush told b b' ∧
        ((∀ batch ∈ b.native.script.frontPush.push, b.native.ledger.CanPlay batch) →
          told = b.native.script.frontPush.push.map (·.map (·.received)) ∧ r = .ok status)) := by
  obtain ⟨code, b₁, hsettle, h⟩ := endsIn_of_bind_quiet (neverPanics_onNative _) h
  obtain ⟨hscript, hdrawn⟩ : _ ∧ Drawn adds [call] {} [] b b₁ :=
    drawn_settled hcalm hcall hsettle
  obtain ⟨rfl, hledger⟩ := settle_ok hsettle
  by_cases hcode : b.native.codes.openQueue ≠ Code.success
  · rw [if_pos hcode] at h
    obtain ⟨_, b₂, hdrop, h⟩ := endsIn_of_bind_quiet (neverPanics_modify _) h
    cases hdrop
    obtain ⟨rfl, rfl⟩ := endsIn_pure h
    have hrest : Resting b₁ { b₁ with native :=
        { b₁.native with ledger := b₁.native.ledger.dropQueue uri } } :=
      ⟨rfl, Ledger.buffers_dropQueue .., rfl, rfl, rfl⟩
    exact .inl ⟨hcode, not_accepts hcode, hdrawn.after hrest⟩
  rw [if_neg hcode] at h
  refine .inr ⟨Decidable.not_not.mp hcode, ?_⟩
  obtain ⟨front, b₂, hpop, h⟩ := endsIn_of_bind_quiet (neverPanics_onNative _) h
  cases hpop
  have htaken := b₁.native.script.extend_popPush
  obtain ⟨told, hplayed, htold⟩ := playFront_endsIn hhost (b := { b₁ with native :=
    { b₁.native with script := b₁.native.script.popPush.2 } }) hdrawn.calm h
  have hfront : b₁.native.script.frontPush.push = b₁.native.script.push.head?.toList :=
    List.take_one
  rw [← hledger, ← hscript]
  refine ⟨told, drawn_taken hdrawn htaken hplayed, ?_⟩
  rw [hfront]
  exact htold

/-- An open takes the batch at the front if it is decided and its code is that of success. -/
theorem openQueue_endsIn {uri : String} {flags : QueueFlags} {options : QueueOptions}
    {timeout : Duration} {r : Except Panic QueueStatus} (hcalm : b.native.Calm)
    (h : (openQueue host uri flags options timeout).EndsIn r b b') :
    (¬ Accepts r ∧ Drawn adds [] {} [] b b') ∨
    (b.native.codes.openQueue ≠ Code.success ∧ ¬ Accepts r ∧
      Drawn adds [.openQueue uri flags options timeout] {} [] b b') ∨
    (b.native.codes.openQueue = Code.success ∧ ∃ told,
      Drawn adds [.openQueue uri flags options timeout] b.native.script.frontPush told b b' ∧
        ((∀ batch ∈ b.native.script.frontPush.push,
            (b.native.ledger.openQueue uri flags options).2.CanPlay batch) →
          told = b.native.script.frontPush.push.map (·.map (·.received)) ∧ Accepts r)) := by
  rw [openQueue_eq] at h
  rcases endsIn_of_bind h with ⟨_, b₁, hobserve, h⟩ | ⟨cause, rfl, hobserve⟩
  · have hchecked := eq_of_observe (.inl ⟨_, hobserve⟩)
    obtain ⟨status, b₂, hopen, h⟩ := endsIn_of_bind_quiet (neverPanics_ledgerUpdate _) h
    have hopened : Drawn adds [] {} [] b b₂ := by
      cases hopen
      rw [hchecked]
      exact drawn_checked hcalm _ (Ledger.buffers_openQueue ..)
    obtain ⟨_, hledger, hcodes⟩ := ledgerUpdate_ok hopen
    have hscript : b₂.native.script = b₁.native.script := by
      cases hopen
      rfl
    rw [hchecked] at hledger hcodes hscript
    by_cases hnew : status.code ≠ Code.success
    · rw [if_pos hnew] at h
      obtain ⟨rfl, rfl⟩ := endsIn_pure h
      exact .inl ⟨not_accepts hnew, hopened⟩
    rw [if_neg hnew] at h
    obtain ⟨b₃, b₄, hin, h, hout⟩ := endsIn_of_inHost h
    have hin' : Resting b₂ b₃ := resting_frame.of_same hin.same
    have hout' : Resting b₄ b' := resting_frame.of_same hout.same
    rw [← hin.native] at hledger hcodes hscript
    right
    rcases openDecided_endsIn hhost rfl (hin'.calm hopened.calm) h with
      ⟨hcode, hrejected, hdrawn⟩ | ⟨hcode, told, hdrawn, htold⟩
    · rw [hcodes] at hcode
      exact .inl ⟨hcode, hrejected, hopened.comp ((hdrawn.before hin').after hout')⟩
    · rw [hcodes] at hcode
      rw [hscript] at hdrawn htold
      refine .inr ⟨hcode, told, hopened.comp ((hdrawn.before hin').after hout'), fun hcan => ?_⟩
      rw [hledger] at htold
      obtain ⟨htold, hr⟩ := htold hcan
      exact ⟨htold, status, hr, Decidable.not_not.mp hnew⟩
  · rw [eq_of_observe (.inr ⟨_, hobserve⟩)]
    exact .inl ⟨nofun, drawn_checked hcalm _ rfl⟩

private theorem played_acknowledge (e : MessageEvent) (code : Int) (batch : List ScriptedAck) :
    Within (fun b b' => b.native.Calm → Played adds [] b b') (acknowledge host e code batch) := by
  have hholding {tokens : List Correlation} {body : Act Stage Unit}
      (h : Within (fun b b' => b.native.Calm → Played adds [] b b') body) :
      Within (fun b b' => b.native.Calm → Played adds [] b b') (holding tokens body) := by
    refine within_holding (fun _ _ h hcalm => ?_) h
    obtain ⟨hledger, harrived, hdecided, haccount⟩ := h hcalm
    exact ⟨hledger, harrived, hdecided, haccount⟩
  have hplay (posted : Option Correlation) :
      Within (fun b b' => b.native.Calm → Played adds [] b b') (playAcks host batch posted) := by
    apply within_bind playedCalm_frame (within_ackMessages playedCalm_frame posted batch)
    exact fun _ => hholding (played_passOn (played_tellAcks hhost _))
  unfold acknowledge
  split
  · exact hplay _
  · exact hholding (hplay none)

private theorem decidePost_ends {call : NativeCall} (hcall : call.isScripted = true)
    {e : MessageEvent}
    (hcalm : b.native.Calm) (h : (decidePost host call e).Ends b b') :
    Drawn adds [call] b.native.script.frontAck [] b b' := by
  obtain ⟨r, h⟩ := h.endsIn
  obtain ⟨code, b₁, hsettle, h⟩ := endsIn_of_bind_quiet (neverPanics_onNative _) h
  obtain ⟨hscript, hdrawn⟩ : _ ∧ Drawn adds [call] {} [] b b₁ :=
    drawn_settled hcalm hcall hsettle
  obtain ⟨front, b₂, hpop, h⟩ := endsIn_of_bind_quiet (neverPanics_onNative _) h
  cases hpop
  have htaken := b₁.native.script.extend_popAck
  have hplayed : Played adds [] { b₁ with native :=
      { b₁.native with script := b₁.native.script.popAck.2 } } b' := by
    refine Within.ends (R := fun b b' => b.native.Calm → Played adds [] b b') ?_ h.ends hdrawn.calm
    cases b₁.native.script.ack.head? with
    | none => exact within_pure playedCalm_frame _
    | some batch =>
      apply within_bind playedCalm_frame (played_acknowledge hhost e code batch)
      exact fun _ => within_pure playedCalm_frame _
  rw [← hscript]
  exact drawn_taken hdrawn htaken hplayed

/-- A post takes the batch at the front, however it is decided, unless it was not expected. -/
theorem post_endsIn {e : MessageEvent} {r : Except Panic (Except PostRejection Unit)}
    (hcalm : b.native.Calm) (h : (post host e).EndsIn r b b') :
    ((∃ m, r = .error (.expectation m)) ∧ Drawn adds [] {} [] b b') ∨
      Drawn adds [.ofPosted e] b.native.script.frontAck [] b b' := by
  rcases endsIn_of_bind h with ⟨_, b₁, hobserve, h⟩ | ⟨cause, rfl, hobserve⟩
  · right
    have hscripted : (NativeCall.ofPosted e).isScripted = true := by
      unfold NativeCall.ofPosted
      split <;> rfl
    have hchecked : Drawn adds [] {} [] b b₁ := by
      rw [eq_of_observe (.inl ⟨_, hobserve⟩)]
      exact drawn_checked hcalm _ rfl
    have hscript : b₁.native.script = b.native.script := by
      rw [eq_of_observe (.inl ⟨_, hobserve⟩)]
      rfl
    obtain ⟨b₂, b₃, hin, hdecide, hout⟩ :=
      ends_of_inHost (ends_of_bufferPost hchecked.calm h.ends)
    have hin' : Resting b₁ b₂ := resting_frame.of_same hin.same
    have hout' : Resting b₃ b' := resting_frame.of_same hout.same
    have hdrawn := decidePost_ends hhost hscripted (hin'.calm hchecked.calm) hdecide
    rw [hin.native, hscript] at hdrawn
    exact hchecked.comp ((hdrawn.before hin').after hout')
  · left
    refine ⟨?_, ?_⟩
    · rw [observe_apply] at hobserve
      split at hobserve
      · cases hobserve
      · next m _ =>
        cases hobserve
        exact ⟨m, rfl⟩
    · rw [eq_of_observe (.inr ⟨_, hobserve⟩)]
      exact drawn_checked hcalm _ rfl

end

end Stage

end BrokerBridge
