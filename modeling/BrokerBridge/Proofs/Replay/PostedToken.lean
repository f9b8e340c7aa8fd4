import BrokerBridge.Proofs.Replay.Custody

/-!
# What becomes of a posted token

The token of a post comes back with its failure, or it goes to the first acknowledgement that asks
for it. The acknowledgements that the host gets are worked out from the batch alone.
-/

namespace BrokerBridge

/-- What the host gets for an acknowledgement with a token. Without one a failure is not told. -/
def ScriptedAck.record? (a : ScriptedAck) (token : Option Correlation) : Option ReceivedAck :=
  if a.status = Code.success ∨ token.isSome then
    some
      { status := a.status
        statusName := Code.ack.name a.status
        guid := if a.status = Code.success then some a.guid else none
        queueUri := a.queueUri
        correlation := token }
  else none

/-- What the host gets where the posted token has gone to another acknowledgement, or to none. -/
def ScriptedAck.own? (a : ScriptedAck) : Option ReceivedAck := a.record? a.token?

def ackRecords (posted : Option Correlation) : List ScriptedAck → List ReceivedAck
  | [] => []
  | a :: rest =>
      let (token, posted) := Stage.claimToken posted a.correlation
      (a.record? token).toList ++ ackRecords posted rest

/-- The host gets these acknowledgements for a batch: the first one that asks for the posted token
has it, every other one has its own handle or nothing. -/
structure Acknowledged (posted : Option Correlation) (batch : List ScriptedAck)
    (records : List ReceivedAck) : Prop where
  first : ∀ before a after, batch = before ++ a :: after → a.correlation = .posted →
    (∀ x ∈ before, x.correlation ≠ .posted) →
      records = before.filterMap (·.own?) ++ (a.record? posted).toList ++
        after.filterMap (·.own?)
  unclaimed : (∀ x ∈ batch, x.correlation ≠ .posted) → records = batch.filterMap (·.own?)

theorem ackRecords_cons {posted token left : Option Correlation} {a : ScriptedAck}
    (h : Stage.claimToken posted a.correlation = (token, left)) (rest : List ScriptedAck) :
    ackRecords posted (a :: rest) = (a.record? token).toList ++ ackRecords left rest := by
  rw [ackRecords, h]

private theorem claimToken_of_ne {a : ScriptedAck} (h : a.correlation ≠ .posted)
    (posted : Option Correlation) : Stage.claimToken posted a.correlation = (a.token?, posted) := by
  unfold ScriptedAck.token?
  cases hc : a.correlation with
  | posted => exact absurd hc h
  | handle c => rfl
  | unset => rfl

private theorem toList_append_filterMap {α β : Type} (f : α → Option β) (a : α) (l : List α) :
    (f a).toList ++ l.filterMap f = (a :: l).filterMap f := by
  cases h : f a <;> simp [h]

theorem ackRecords_append (posted : Option Correlation) {before : List ScriptedAck}
    (h : ∀ x ∈ before, x.correlation ≠ .posted) (after : List ScriptedAck) :
    ackRecords posted (before ++ after) =
      before.filterMap (·.own?) ++ ackRecords posted after := by
  induction before with
  | nil => rfl
  | cons a rest ih =>
    have ha := claimToken_of_ne (h a (List.mem_cons_self ..)) posted
    rw [List.cons_append, ackRecords_cons ha, ih fun x hx => h x (List.mem_cons_of_mem _ hx),
      ← toList_append_filterMap, List.append_assoc]
    rfl

private theorem ackRecords_none (batch : List ScriptedAck) :
    ackRecords none batch = batch.filterMap (·.own?) := by
  induction batch with
  | nil => rfl
  | cons a rest ih =>
    have ha : Stage.claimToken none a.correlation = (a.token?, none) := by
      unfold ScriptedAck.token?
      cases a.correlation <;> rfl
    rw [ackRecords_cons ha, ih, ← toList_append_filterMap]
    rfl

theorem acknowledged_ackRecords (posted : Option Correlation) (batch : List ScriptedAck) :
    Acknowledged posted batch (ackRecords posted batch) where
  first := by
    intro before a after hbatch ha hbefore
    have hclaim : Stage.claimToken posted a.correlation = (posted, none) := by rw [ha]; rfl
    rw [hbatch, ackRecords_append posted hbefore, ackRecords_cons hclaim, ackRecords_none,
      List.append_assoc]
  unclaimed := by
    intro h
    have happend := ackRecords_append posted h []
    rwa [List.append_nil, ackRecords, List.append_nil] at happend

def Unheard (b b' : Bridge Stage) : Prop := b'.deliveries = b.deliveries

theorem unheard_frame : Frame Unheard where
  same _ hd := hd
  trans h₁ h₂ := h₂.trans h₁

/-- The host is called with the acknowledgements, if there are any. Whatever is delivered after
them is delivered while the host is at it. -/
def Told (host : HostCode Stage) (acks : List ReceivedAck) (b b' : Bridge Stage) : Prop :=
  if acks = [] then b'.deliveries = b.deliveries
  else ∃ b₁ b₂, b₁.deliveries = b.deliveries ++ [.acks acks] ∧
    (host (.acks acks)).Ends b₁ b₂ ∧ b'.deliveries = b₂.deliveries

/-- What happens before and after without a delivery is left out of account. -/
theorem Told.between {host : HostCode Stage} {acks : List ReceivedAck} {b₀ b b' b₁ : Bridge Stage}
    (h : Told host acks b b') (hbefore : Unheard b₀ b) (hafter : Unheard b' b₁) :
    Told host acks b₀ b₁ := by
  unfold Told at h ⊢
  split at h
  · next hnone =>
    rw [if_pos hnone]
    exact hafter.trans (h.trans hbefore)
  · next hsome =>
    obtain ⟨b₂, b₃, hcalled, hends, hd⟩ := h
    rw [if_neg hsome]
    exact ⟨b₂, b₃, by rw [hcalled, hbefore], hends, hafter.trans hd⟩

theorem told_nil {host : HostCode Stage} {b b' : Bridge Stage} (h : Unheard b b') :
    Told host [] b b' := by
  rw [Told, if_pos rfl]
  exact h

/-! ## The batch on its way -/

private theorem deliveredAcks_ack {q : QueueHandle} {a : ScriptedAck} (hq : q.uri = a.queueUri)
    (token : Option Correlation) (messages : List Message) :
    deliveredAcks (.ack q a.guid a.status token :: messages) =
      (a.record? token).toList ++ deliveredAcks messages := by
  unfold deliveredAcks ScriptedAck.record?
  by_cases htold : a.status = Code.success ∨ token.isSome
  · have hkeep : (Message.ack q a.guid a.status token).isSuppressedAck = false := by
      rcases htold with hs | ht
      · simp [Message.isSuppressedAck, Message.ack, hs]
      · obtain ⟨c, rfl⟩ := Option.isSome_iff_exists.mp ht
        simp [Message.isSuppressedAck, Message.ack]
    rw [List.filter_cons_of_pos (by simp [hkeep]), if_pos htold]
    simp [ReceivedAck.ofMessage, Message.ack, hq]
  · have hdrop : (Message.ack q a.guid a.status token).isSuppressedAck = true := by
      simpa [Message.isSuppressedAck, Message.ack] using htold
    rw [List.filter_cons_of_neg (by simp [hdrop]), if_neg htold]
    rfl

namespace Stage

open Act

theorem openHandle_apply (uri : String) (b : Bridge Stage) : openHandle uri b =
    match b.native.ledger.queue? uri with
    | some q => .ok q b
    | none => .error (.panic (.queueMissing uri)) b := by
  show (match b.native.ledger.queue? uri with
    | some q => pure q
    | none => panic (.queueMissing uri) : Act Stage QueueHandle) b = _
  cases b.native.ledger.queue? uri <;> rfl

private theorem openHandle_ok {uri : String} {q : QueueHandle} {b b' : Bridge Stage}
    (h : openHandle uri b = .ok q b') : b' = b ∧ q.uri = uri := by
  rw [openHandle_apply] at h
  split at h
  · next hq =>
    cases h
    exact ⟨rfl, Ledger.uri_of_queue? hq⟩
  · cases h

private theorem ackMessages_ok {posted left : Option Correlation} {batch : List ScriptedAck}
    {messages : List Message} {b b' : Bridge Stage}
    (h : ackMessages posted batch b = .ok (messages, left) b') :
    b' = b ∧ deliveredAcks messages = ackRecords posted batch := by
  induction batch generalizing posted messages left b b' with
  | nil =>
    cases h
    exact ⟨rfl, rfl⟩
  | cons a rest ih =>
    rcases hclaim : claimToken posted a.correlation with ⟨token, posted'⟩
    rw [ackMessages, hclaim] at h
    obtain ⟨q, b₁, hopen, h₁⟩ := bind_eq_ok.mp h
    obtain ⟨⟨messages', left'⟩, b₂, hrest, h₂⟩ := bind_eq_ok.mp h₁
    obtain ⟨rfl, hq⟩ := openHandle_ok hopen
    obtain ⟨rfl, hrecords⟩ := ih hrest
    cases h₂
    exact ⟨rfl, by rw [deliveredAcks_ack hq, hrecords, ackRecords_cons hclaim]⟩

variable {host : HostCode Stage} {b b' : Bridge Stage}

private theorem callHost_ok {d : Delivery} {u : Unit} (h : callHost host d b = .ok u b') :
    ∃ b₁ b₂, b₁.deliveries = b.deliveries ++ [d] ∧ (host d).Ends b₁ b₂ ∧
      b'.deliveries = b₂.deliveries := by
  obtain ⟨_, b₁, hcall, h⟩ := bind_eq_ok.mp h
  cases hcall
  obtain ⟨outcome, b₂, hends, hreturned⟩ := bind_eq_ok.mp h
  refine ⟨_, b₂, ?_, ends_of_attempt hends, ?_⟩
  · rfl
  · exact (within_hostReturned unheard_frame d outcome).ok hreturned

private theorem tellAcked_ok {e : MessageEvent} {u : Unit} (h : e.tellAcked host b = .ok u b') :
    Told host (deliveredAcks e.messages) b b' := by
  obtain ⟨_, b₁, hcount, h⟩ := bind_eq_ok.mp h
  have hbefore := (within_observe unheard_frame _).ok hcount
  split at h
  · next hsome =>
    obtain ⟨_, b₂, hcount, h⟩ := bind_eq_ok.mp h
    have hbefore := unheard_frame.trans hbefore ((within_observe unheard_frame _).ok hcount)
    have hne : deliveredAcks e.messages ≠ [] := by simpa using hsome
    have htold : Told host (deliveredAcks e.messages) b₂ b' := by
      rw [Told, if_neg hne]
      exact callHost_ok h
    exact htold.between hbefore rfl
  · next hnone =>
    cases h
    have hnil : deliveredAcks e.messages = [] := by simpa using hnone
    rw [hnil]
    exact told_nil hbefore

theorem holding_ok {α : Type} {tokens : List Correlation} {body : Act Stage α} {x : α}
    (h : holding tokens body b = .ok x b') :
    ∃ b₁ b₂, b₁.native.ledger = b.native.ledger ∧ b₁.deliveries = b.deliveries ∧
      body b₁ = .ok x b₂ ∧ b'.deliveries = b₂.deliveries := by
  obtain ⟨_, b₁, hhold, h⟩ := bind_eq_ok.mp h
  cases hhold
  obtain ⟨b₂, _, hbody, hrelease⟩ := body_of_ensuring_ok h
  cases hrelease
  refine ⟨_, b₂, ?_, ?_, hbody, ?_⟩ <;> rfl

private theorem tell_ack_ok {messages : List Message} {u : Unit}
    (h : NativeEvent.tell host (.message (.ack messages)) b = .ok u b') :
    Told host (deliveredAcks messages) b b' := by
  obtain ⟨b₁, b₂, hbefore, hbody, hafter⟩ := inHost_ok h
  exact (tellAcked_ok hbody).between hbefore.deliveries hafter.deliveries

private theorem playAcks_ok (hpending : b.native.ledger.pending = []) {batch : List ScriptedAck}
    {posted : Option Correlation} {u : Unit} (h : playAcks host batch posted b = .ok u b') :
    Told host (ackRecords posted batch) b b' := by
  obtain ⟨⟨messages, left⟩, b₁, hmessages, hplay⟩ := bind_eq_ok.mp h
  obtain ⟨rfl, hrecords⟩ := ackMessages_ok hmessages
  obtain ⟨b₂, b₃, hledger, hbefore, hpass, hafter⟩ := holding_ok hplay
  rw [← hledger] at hpending
  rw [passOn_apply hpending] at hpass
  obtain ⟨b₄, b₅, _, hbefore', htell, hafter'⟩ := holding_ok hpass
  have htold := tell_ack_ok htell
  rw [← hrecords]
  exact htold.between (unheard_frame.trans hbefore hbefore') (unheard_frame.trans hafter' hafter)

def nextBatch (n : Stage) : List ScriptedAck := n.script.ack.head?.getD []

def tokenFor (e : MessageEvent) (code : Int) : Option Correlation :=
  if code = Code.success then e.correlations.head? else none

theorem acknowledge_ok (hpending : b.native.ledger.pending = []) {e : MessageEvent} {code : Int}
    {batch : List ScriptedAck} {u : Unit} (h : acknowledge host e code batch b = .ok u b') :
    Told host (ackRecords (tokenFor e code) batch) b b' := by
  unfold acknowledge at h
  unfold tokenFor
  split at h
  · next hcode =>
    rw [if_pos hcode]
    exact playAcks_ok hpending h
  · next hcode =>
    rw [if_neg hcode]
    obtain ⟨b₁, b₂, hledger, hbefore, hacks, hafter⟩ := holding_ok h
    rw [← hledger] at hpending
    exact (playAcks_ok hpending hacks).between hbefore hafter

/-- A post that is accepted has its token acknowledged; one that is not has its event back. -/
theorem decidePost_ok (hcalm : b.native.Calm) {call : NativeCall} {e : MessageEvent}
    {r : Except PostRejection Unit} (h : decidePost host call e b = .ok r b') :
    ∃ code, r = (if code = Code.success then .ok () else .error ⟨code, e⟩) ∧
      Told host (ackRecords (tokenFor e code) b.native.nextBatch) b b' := by
  obtain ⟨code, b₁, hsettle, hdecided⟩ := bind_eq_ok.mp h
  have hsilent := (silent_settle ..).ok hsettle
  obtain ⟨batch, b₂, hpop, hanswered⟩ := bind_eq_ok.mp hdecided
  have hpending : b₂.native.ledger.pending = [] := by
    cases hpop
    exact congrArg Prod.snd (hsilent.calm hcalm)
  have hheard : Unheard b b₂ := by
    cases hpop
    exact hsilent.deliveries
  have hbatch : batch.getD [] = b.native.nextBatch := by
    cases hpop
    show b₁.native.nextBatch = _
    unfold nextBatch
    rw [hsilent.script]
  refine ⟨code, ?_⟩
  rw [← hbatch]
  cases batch with
  | none =>
    cases hanswered
    exact ⟨rfl, told_nil hheard⟩
  | some batch =>
    obtain ⟨_, b₃, hacks, hanswer⟩ := bind_eq_ok.mp hanswered
    cases hanswer
    exact ⟨rfl, (acknowledge_ok hpending hacks).between hheard rfl⟩

private theorem post_ok (hcalm : b.native.Calm) {e : MessageEvent} {r : Except PostRejection Unit}
    (h : post host e b = .ok r b') :
    ∃ code, r = (if code = Code.success then .ok () else .error ⟨code, e⟩) ∧
      Told host (ackRecords (tokenFor e code) b.native.nextBatch) b b' := by
  obtain ⟨_, b₁, hobserve, hbuffer⟩ := bind_eq_ok.mp h
  have hsilent := (silent_observe _).ok hobserve
  have hcalm₁ := hsilent.calm hcalm
  have hbatch : b.native.nextBatch = b₁.native.nextBatch := by
    unfold nextBatch
    rw [hsilent.script]
  rcases bufferPost_apply hcalm₁ host (.ofPosted e) e with ⟨b₂, hwait⟩ | happly
  · rw [hwait] at hbuffer
    cases hbuffer
  · rw [happly] at hbuffer
    obtain ⟨b₂, b₃, hbefore, hdecide, hafter⟩ := inHost_ok hbuffer
    have hcalm₂ : b₂.native.Calm := by
      rw [hbefore.native]
      exact hcalm₁
    have hheard : Unheard b b₂ := unheard_frame.trans hsilent.deliveries hbefore.deliveries
    rw [hbatch, ← hbefore.native]
    obtain ⟨code, hr, htold⟩ := decidePost_ok hcalm₂ hdecide
    exact ⟨code, hr, htold.between hheard hafter.deliveries⟩

end Stage

theorem pack_error {builder : EventBuilder} {t : QueueTable} {guid : Guid} {q : QueueHandle}
    {m : OutgoingMessage} {refused : PackRejection} (h : builder.pack t guid q m = .error refused) :
    refused.message = m := by
  unfold EventBuilder.pack at h
  split at h
  · cases h
    rfl
  · cases h

theorem correlations_of_pack {limit : Nat} {t : QueueTable} {guid : Guid} {q : QueueHandle}
    {m : OutgoingMessage} {builder : EventBuilder}
    (h : (EventBuilder.empty limit).pack t guid q m = .ok builder) :
    builder.build.correlations.head? = m.correlation := by
  unfold EventBuilder.pack at h
  split at h
  · cases h
  · cases h
    cases hc : m.correlation <;>
      simp [EventBuilder.build, EventBuilder.empty, MessageEvent.correlations]

namespace Session

open Act

variable {s : Session Stage} {host : HostCode Stage} {b b' : Bridge Stage} {uri : String}
  {payload : ByteArray} {onAck : Option Correlation} {r : Except PostFailure Unit}

private theorem openHandle_ok (hs : s.client = Stage.client host) {ε : Type} {missing : ε}
    {r : Except ε QueueHandle} (h : (s.openHandle uri missing).run b = .ok r b') :
    Silent b b' ∧ ∀ e, r = .error e → e = missing := by
  obtain ⟨q, hq, rfl⟩ := queue?_of_openHandle h
  rw [hs] at hq
  refine ⟨(Stage.silent_queue? uri).ok hq, fun e he => ?_⟩
  cases q with
  | none => exact (Except.error.inj he).symm
  | some q => cases he

private theorem postEncoded_ok (hs : s.client = Stage.client host) (hcalm : b.native.Calm)
    {wire : Option WireProperties} (h : (s.postEncoded uri payload wire onAck).run b = .ok r b') :
    (r = .ok () ∧ Told host (ackRecords onAck b.native.nextBatch) b b') ∨
      ∃ error, r = .error ⟨error, onAck⟩ ∧
        (Unheard b b' ∨ Told host (ackRecords none b.native.nextBatch) b b') := by
  rcases opBind_ok h with ⟨e, hopen, rfl⟩ | ⟨q, b₁, hopen, hpacked⟩
  · obtain ⟨hsilent, hmissing⟩ := openHandle_ok hs hopen
    rw [hmissing e rfl]
    exact .inr ⟨_, rfl, .inl hsilent.deliveries⟩
  obtain ⟨hsilent, _⟩ := openHandle_ok hs hopen
  rcases opBind_ok hpacked with ⟨e, htable, rfl⟩ | ⟨table, b₂, htable, hpacked⟩
  · cases htable
  have hsame := (within_queueTable same_frame).ok htable
  have hheard : Unheard b b₂ := unheard_frame.trans hsilent.deliveries hsame.2
  have hcalm₂ : b₂.native.Calm := by
    rw [hsame.1]
    exact hsilent.calm hcalm
  have hbatch : b.native.nextBatch = b₂.native.nextBatch := by
    unfold Stage.nextBatch
    rw [hsame.1, hsilent.script]
  split at hpacked
  · next refused hpack =>
    cases hpacked
    rw [pack_error hpack]
    exact .inr ⟨_, rfl, .inl hheard⟩
  · next builder hpack =>
    rw [hs] at hpack
    have hcorrelation := correlations_of_pack hpack
    rcases opBind_ok hpacked with ⟨e, hpost, rfl⟩ | ⟨answer, b₃, hpost, hanswer⟩
    · obtain ⟨x, hx, _⟩ := op_ok hpost
      cases hx
    obtain ⟨x, hx, hpost⟩ := op_ok hpost
    cases hx
    rw [hs] at hpost
    obtain ⟨code, rfl, htold⟩ := Stage.post_ok hcalm₂ hpost
    rw [Stage.tokenFor, hcorrelation] at htold
    rw [hbatch]
    split at hanswer
    · next hok =>
      split at hok
      · next hcode =>
        rw [if_pos hcode] at htold
        cases hanswer
        exact .inl ⟨rfl, htold.between hheard rfl⟩
      · cases hok
    · next hrefused =>
      split at hrefused
      · cases hrefused
      · next hcode =>
        rw [if_neg hcode] at htold
        cases hrefused
        cases hanswer
        rw [hcorrelation]
        exact .inr ⟨_, rfl, .inr (htold.between hheard rfl)⟩

/-- What becomes of the token of a post. A failed post hands it back and no acknowledgement has it;
a post that succeeds has it acknowledged by the first acknowledgement that asks for it. Nothing is
left in the client's buffers or among the tokens in flight, so that the host alone holds a token
that is neither scripted nor was in flight before. -/
theorem post_keeps_token (hhost : host.KeepsCustody) (hs : s.client = Stage.client host)
    (hcalm : b.native.Calm) {properties : Option PropertySet}
    (h : (s.post uri payload properties onAck).run b = .ok r b') :
    (∃ records, Told host records b b' ∧
      match r with
      | .ok () => Acknowledged onAck b.native.nextBatch records
      | .error failure => failure.returned = onAck ∧
          (records = [] ∨ Acknowledged none b.native.nextBatch records)) ∧
    b'.native.Calm ∧ b'.native.inFlight = b.native.inFlight ∧
    ∀ c, c ∉ b.native.inFlight → c ∉ b'.native.scriptedTokens → b'.native.holders c ≤ 1 := by
  have hclient : s.client.Within Custody := by
    rw [hs]
    exact Stage.custody_client hhost
  obtain ⟨hcalm', hflight, _⟩ := (within_post custody_frame hclient ..).ok h hcalm
  refine ⟨?_, hcalm', hflight, ?_⟩
  case refine_2 =>
    intro c hc
    rw [← hflight] at hc
    exact Stage.holders_le_one hcalm' hc
  unfold post at h
  split at h
  · cases h
    exact ⟨[], told_nil rfl, rfl, .inl rfl⟩
  · have hstop : Within Unheard s.client.stop := by
      rw [hs]
      exact Stage.silent_stop.mono fun _ _ => Silent.deliveries
    rcases whileStarted_ok unheard_frame hstop h with
      ⟨rfl, hsame⟩ | ⟨b₁, b₂, hbefore, hbody, hafter⟩
    · exact ⟨[], told_nil hsame.2, rfl, .inl rfl⟩
    have hcalm₁ : b₁.native.Calm := by
      rw [hbefore.1]
      exact hcalm
    rcases postEncoded_ok hs hcalm₁ hbody with ⟨rfl, htold⟩ | ⟨error, rfl, hquiet | htold⟩
    · rw [hbefore.1] at htold
      exact ⟨_, htold.between hbefore.2 hafter, acknowledged_ackRecords ..⟩
    · have hheard := unheard_frame.trans hbefore.2 (unheard_frame.trans hquiet hafter)
      exact ⟨[], told_nil hheard, rfl, .inl rfl⟩
    · rw [hbefore.1] at htold
      exact ⟨_, htold.between hbefore.2 hafter, rfl, .inr (acknowledged_ackRecords ..)⟩

def rehearsed (batch : List ScriptedAck) : Bridge Stage where
  gate := { started := true }
  native :=
    { ledger := (Ledger.openQueue {} "bmq://d/q" (.ofAccess true true) {}).2
      script := { ack := [batch] } }

/-- A failure that nobody asked for, two acknowledgements of the post, and one of another. -/
def mixedBatch : List ScriptedAck :=
  [{ status := -1, guid := .zero, queueUri := "bmq://d/q", correlation := .unset },
    { status := -1, guid := .zero, queueUri := "bmq://d/q", correlation := .posted },
    { status := 0, guid := .zero, queueUri := "bmq://d/q", correlation := .posted },
    { status := 0, guid := .zero, queueUri := "bmq://d/q", correlation := .handle ⟨"other"⟩ }]

def plainSession (host : HostCode Stage) : Session Stage where
  client := Stage.client host
  options := .ofSettings "program" {}
  compression := .none
  label := "session"

theorem post_keeps_token_mixed : ∃ b',
    ((plainSession (.ending fun _ => .ok)).post "bmq://d/q" ⟨#[1]⟩ none (some ⟨"token"⟩)).run
      (rehearsed mixedBatch) = .ok (.ok ()) b' ∧
    (∃ records, Told (.ending fun _ => .ok) records (rehearsed mixedBatch) b' ∧
      Acknowledged (some ⟨"token"⟩) mixedBatch records) ∧
    b'.native.Calm ∧ b'.native.inFlight = [] := by
  have hrun : (match ((plainSession (.ending fun _ => .ok)).post "bmq://d/q" ⟨#[1]⟩ none
      (some ⟨"token"⟩)).run (rehearsed mixedBatch) with
      | .ok (.ok ()) _ => true
      | _ => false) = true := by decide +kernel
  split at hrun
  · next b' h =>
    have hhost : HostCode.KeepsCustody (.ending fun _ => .ok) :=
      fun _ => within_pure custody_frame _
    have hcalm : (rehearsed mixedBatch).native.Calm := rfl
    obtain ⟨htoken, hcalm', hflight, _⟩ := post_keeps_token hhost rfl hcalm h
    exact ⟨b', h, htoken, hcalm', hflight⟩
  · cases hrun

end Session

end BrokerBridge
