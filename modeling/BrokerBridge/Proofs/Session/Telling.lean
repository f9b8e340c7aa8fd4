import BrokerBridge.Proofs.Property.RoundTrip
import BrokerBridge.Proofs.Session.Failures

/-!
# What the host is told of a batch

Telling the host of an event goes in steps: something is counted, or host code is called. A batch of
pushed messages comes to one call with a record of each message, after a report of the properties
that were skipped, if any were. A batch of acknowledgements is parted into those that are suppressed
and those that one call delivers, and every acknowledgement is counted as one or the other.
-/

namespace BrokerBridge

variable {ν : Type}

/-! ## Steps -/

namespace Counters

def add (c d : Counters) : Counters where
  messagesPushed := c.messagesPushed + d.messagesPushed
  acksDelivered := c.acksDelivered + d.acksDelivered
  nacksSuppressed := c.nacksSuppressed + d.nacksSuppressed
  decodeErrors := c.decodeErrors + d.decodeErrors
  callbackFailures := c.callbackFailures + d.callbackFailures

instance : Add Counters := ⟨add⟩

def acks (c : Counters) : Nat := c.acksDelivered + c.nacksSuppressed

/-- What is counted of deliveries, whether or not the callbacks fail. -/
def delivered (c : Counters) : Counters := { c with callbackFailures := 0 }

private theorem add_assoc (c d e : Counters) : c + d + e = c + (d + e) := by
  show add (add c d) e = add c (add d e)
  simp only [add, Nat.add_assoc]

private theorem zero_add (c : Counters) : {} + c = c := by
  show add {} c = c
  simp only [add, Nat.zero_add]

private theorem delivered_add (c d : Counters) : (c + d).delivered =
    (c.delivered + d).delivered := by
  show (add c d).delivered = (add c.delivered d).delivered
  simp only [delivered, add]

private theorem acks_add (c d : Counters) : (c + d).acks = c.acks + d.acks := by
  show (add c d).acks = _
  simp only [acks, add]
  omega

end Counters

inductive TellStep where
  | count (amount : Counters)
  | call (d : Delivery)

namespace TellStep

def perform (host : HostCode ν) : TellStep → Act ν Unit
  | count amount => Act.observe (· + amount)
  | call d => Act.callHost host d

def calls : List TellStep → List Delivery
  | [] => []
  | count _ :: rest => calls rest
  | call d :: rest => d :: calls rest

def counts : List TellStep → Counters
  | [] => {}
  | count amount :: rest => amount + counts rest
  | call _ :: rest => counts rest

end TellStep

def Act.tellSteps (host : HostCode ν) (steps : List TellStep) : Act ν Unit :=
  steps.forM (·.perform host)

theorem Act.tellSteps_cons (host : HostCode ν) (step : TellStep) (rest : List TellStep) :
    tellSteps host (step :: rest) = (step.perform host >>= fun _ => tellSteps host rest) := rfl

private theorem Act.tellSteps_single (host : HostCode ν) (step : TellStep) :
    tellSteps host [step] = step.perform host :=
  bind_pure_unit

/-- Callbacks that come back, however they end, and that cause no deliveries of their own. -/
def HostCode.KeepsToItself (host : HostCode ν) : Prop :=
  ∀ d b, ∃ r b', Act.attempt (host d) b = .ok r b' ∧ b'.deliveries = b.deliveries ∧
    b'.metrics = b.metrics ∧ b'.host = b.host ∧ b'.thread = b.thread

/-- The host has been called with these deliveries and no others, and so much has been counted
besides failures of callbacks. -/
structure Heard (ds : List Delivery) (amount : Counters) (b b' : Bridge ν) : Prop where
  deliveries : b'.deliveries = b.deliveries ++ ds
  counters : b'.metrics.counters.map Counters.delivered =
    b.metrics.counters.map fun c => (c + amount).delivered
  host : b'.host = b.host
  thread : b'.thread = b.thread

namespace Heard

theorem refl (b : Bridge ν) : Heard [] {} b b := ⟨(List.append_nil _).symm, rfl, rfl, rfl⟩

theorem trans {ds more : List Delivery} {c d : Counters} {b₁ b₂ b₃ : Bridge ν}
    (h : Heard ds c b₁ b₂) (h' : Heard more d b₂ b₃) : Heard (ds ++ more) (c + d) b₁ b₃ where
  deliveries := by rw [h'.deliveries, h.deliveries, List.append_assoc]
  counters := by
    have hthen := congrArg (Option.map fun e => (e + d).delivered) h.counters
    rw [Option.map_map, Option.map_map] at hthen
    rw [h'.counters]
    calc b₂.metrics.counters.map (fun e => (e + d).delivered)
      _ = b₂.metrics.counters.map ((fun e => (e + d).delivered) ∘ Counters.delivered) :=
          congrArg (fun f => b₂.metrics.counters.map f)
            (funext fun e => Counters.delivered_add e d)
      _ = b₁.metrics.counters.map ((fun e => (e + d).delivered) ∘ fun e => (e + c).delivered) :=
          hthen
      _ = b₁.metrics.counters.map fun e => (e + (c + d)).delivered := by
          refine congrArg (fun f => b₁.metrics.counters.map f) (funext fun e => ?_)
          exact (Counters.delivered_add (e + c) d).symm.trans
            (congrArg Counters.delivered (Counters.add_assoc e c d))
  host := h'.host.trans h.host
  thread := h'.thread.trans h.thread

private theorem acks {ds : List Delivery} {amount : Counters} {b b' : Bridge ν}
    (h : Heard ds amount b b') : b'.metrics.counters.map Counters.acks =
      b.metrics.counters.map fun c => c.acks + amount.acks := by
  have hcounted := congrArg (Option.map Counters.acks) h.counters
  rw [Option.map_map, Option.map_map] at hcounted
  refine hcounted.trans (congrArg (fun f => b.metrics.counters.map f) (funext fun c => ?_))
  exact Counters.acks_add c amount

end Heard

namespace Act

private theorem observe_heard (amount : Counters) (b : Bridge ν) :
    ∃ b', observe (· + amount) b = .ok () b' ∧ Heard [] amount b b' := by
  refine ⟨_, rfl, (List.append_nil _).symm, ?_, rfl, rfl⟩
  exact Option.map_map ..

private theorem hostReturned_heard (d : Delivery) (outcome : Except Panic HostOutcome)
    (b : Bridge ν) :
    ∃ b', hostReturned d outcome b = .ok () b' ∧ Heard [] {} b b' := by
  refine ⟨_, hostReturned_apply d outcome b, ?_⟩
  cases hostFailure? outcome with
  | none => exact ⟨(List.append_nil _).symm, rfl, rfl, rfl⟩
  | some text => exact ⟨(List.append_nil _).symm, Option.map_map .., rfl, rfl⟩

variable {host : HostCode ν} (hhost : host.KeepsToItself)

include hhost

private theorem callHost_heard (d : Delivery) (b : Bridge ν) :
    ∃ b', callHost host d b = .ok () b' ∧ Heard [d] {} b b' := by
  obtain ⟨outcome, b₁, hrun, hdeliveries, hmetrics, hlock, hthread⟩ := hhost d
    { b with delivering := b.delivering + 1, deliveries := b.deliveries ++ [d] }
  obtain ⟨b', hreturned, hheard⟩ := hostReturned_heard d outcome b₁
  refine ⟨b', ?_, ?_⟩
  · show (attempt (host d) >>= hostReturned d) _ = _
    rw [bind_of_ok hrun]
    exact hreturned
  · have hcall : Heard [d] {} b b₁ :=
      ⟨hdeliveries, congrArg (fun m => m.counters.map Counters.delivered) hmetrics, hlock, hthread⟩
    exact hcall.trans hheard

/-- Callbacks that keep to themselves leave the calls and counts to the steps. -/
theorem tellSteps_heard (steps : List TellStep) (b : Bridge ν) :
    ∃ b', tellSteps host steps b = .ok () b' ∧
      Heard (TellStep.calls steps) (TellStep.counts steps) b b' := by
  induction steps generalizing b with
  | nil => exact ⟨b, rfl, .refl b⟩
  | cons step rest ih =>
    cases step with
    | count amount =>
      obtain ⟨b₁, hrun, hfirst⟩ := observe_heard amount b
      obtain ⟨b', hrest, hheard⟩ := ih b₁
      exact ⟨b', (bind_of_ok hrun).trans hrest, hfirst.trans hheard⟩
    | call d =>
      obtain ⟨b₁, hrun, hfirst⟩ := callHost_heard hhost d b
      obtain ⟨b', hrest, hheard⟩ := ih b₁
      have hthen := hfirst.trans hheard
      rw [Counters.zero_add] at hthen
      exact ⟨b', (bind_of_ok hrun).trans hrest, hthen⟩

end Act

private theorem Act.inHost_heard {body : Act ν Unit} {ds : List Delivery} {amount : Counters}
    (h : ∀ b : Bridge ν, ∃ b', body b = .ok () b' ∧ Heard ds amount b b') {b : Bridge ν}
    (hlock : b.host.WellFormed) (hfree : (b.host.enter? b.thread 1).isSome) :
    ∃ b', inHost body b = .ok () b' ∧ Heard ds amount b b' := by
  obtain ⟨host, henter⟩ := Option.isSome_iff_exists.mp hfree
  obtain ⟨b₁, hrun, hheard⟩ := h { b with host }
  have hleft : b₁.host.leave = b.host := by
    rw [hheard.host]
    exact HostLock.leave_enter? hlock henter
  exact ⟨_, inHost_of_ok henter hrun, hheard.deliveries, hheard.counters, hleft, hheard.thread⟩

/-! ## Pushed messages -/

def Message.entries (m : Message) : List (ByteArray × WireValue) :=
  match m.properties with
  | some wire => wire.entries
  | none => []

def Message.skipped (m : Message) : List DecodeError :=
  m.entries.filterMap Property.entrySkipped?

/-- The record of a pushed message: what it carries, and those of its properties that can be
read. -/
structure ReceivedMessage.Records (r : ReceivedMessage) (m : Message) : Prop where
  payload : r.payload = m.payload
  guid : r.guid = m.guid
  queueUri : r.queueUri = m.queue.uri
  properties : r.properties = .ofList (m.entries.filterMap Property.entryRead?)

theorem receiveBatch_cons (m : Message) (rest : List Message) :
    ∃ r, r.Records m ∧ receiveBatch (m :: rest) =
      (r :: (receiveBatch rest).1, m.skipped ++ (receiveBatch rest).2) := by
  cases hproperties : m.properties with
  | none =>
    refine ⟨⟨m.payload, m.guid, m.queue.uri, .empty⟩, ⟨rfl, rfl, rfl, ?_⟩, ?_⟩
    · rw [Message.entries, hproperties]
      rfl
    · rw [receiveBatch, Message.skipped, Message.entries, hproperties]
      rfl
  | some wire =>
    refine ⟨⟨m.payload, m.guid, m.queue.uri, (Property.decode wire).1⟩, ⟨rfl, rfl, rfl, ?_⟩, ?_⟩
    · rw [Message.entries, hproperties, Property.decode_eq]
    · simp only [receiveBatch, Message.skipped, Message.entries, hproperties, Property.decode_eq]

/-- No message and no error is lost, doubled or moved. -/
theorem receiveBatch_records (messages : List Message) :
    List.Forall₂ ReceivedMessage.Records (receiveBatch messages).1 messages ∧
      (receiveBatch messages).2 = messages.flatMap Message.skipped := by
  induction messages with
  | nil => exact ⟨.nil, rfl⟩
  | cons m rest ih =>
    obtain ⟨r, hr, hbatch⟩ := receiveBatch_cons m rest
    rw [hbatch, List.flatMap_cons]
    exact ⟨.cons hr ih.1, congrArg (m.skipped ++ ·) ih.2⟩

def skippedReport (skipped : List DecodeError) : Delivery :=
  .notification (.diagnostic (String.join (skipped.map fun e => e.message ++ "\n")))

def pushSteps (records : List ReceivedMessage) (skipped : List DecodeError) : List TellStep :=
  (if skipped = [] then []
    else [.count { decodeErrors := skipped.length }, .call (skippedReport skipped)]) ++
  [.count { messagesPushed := records.length }, .call (.messages records)]

theorem tellPushed_eq (messages : List Message) (host : HostCode ν) :
    (MessageEvent.push messages).tell host =
      Act.inHost (Act.tellSteps host
        (pushSteps (receiveBatch messages).1 (receiveBatch messages).2)) := by
  show Act.inHost ((MessageEvent.push messages).tellPushed host) = _
  refine congrArg Act.inHost ?_
  rw [MessageEvent.tellPushed, MessageEvent.push]
  obtain ⟨records, skipped⟩ := receiveBatch messages
  cases skipped with
  | nil =>
    rw [pushSteps, if_pos rfl, List.nil_append, Act.tellSteps_cons, Act.tellSteps_single]
    rfl
  | cons e rest =>
    rw [pushSteps, if_neg (List.cons_ne_nil e rest), List.cons_append, List.cons_append,
      List.nil_append, Act.tellSteps_cons, Act.tellSteps_cons, Act.tellSteps_cons,
      Act.tellSteps_single]
    rfl

theorem calls_pushSteps (records : List ReceivedMessage) (skipped : List DecodeError) :
    TellStep.calls (pushSteps records skipped) =
      (if skipped = [] then [] else [skippedReport skipped]) ++ [.messages records] := by
  unfold pushSteps
  split <;> rfl

private theorem counts_pushSteps (records : List ReceivedMessage) (skipped : List DecodeError) :
    TellStep.counts (pushSteps records skipped) =
      { messagesPushed := records.length, decodeErrors := skipped.length } := by
  unfold pushSteps
  split
  · next hnone =>
    rw [hnone]
    rfl
  · show Counters.add _ (Counters.add _ _) = _
    simp [Counters.add, TellStep.counts]

/-- Pushed messages are delivered by one call with a record of each, in their order. Before that the
skipped properties of all messages are reported, if there are any, by one call with a line for each.
Whatever callbacks do, these are the steps of telling the host; and where callbacks cause no
deliveries of their own, the host hears nothing else and exactly this is counted. -/
theorem push_told_whole (messages : List Message) :
    ∃ records : List ReceivedMessage, List.Forall₂ ReceivedMessage.Records records messages ∧
      (∀ host : HostCode ν, (MessageEvent.push messages).tell host =
        Act.inHost (Act.tellSteps host (pushSteps records (messages.flatMap Message.skipped)))) ∧
      ∀ (host : HostCode ν) (b : Bridge ν), host.KeepsToItself → b.host.WellFormed →
        (b.host.enter? b.thread 1).isSome →
        ∃ b', (MessageEvent.push messages).tell host b = .ok () b' ∧
          Heard
            ((if messages.flatMap Message.skipped = [] then []
              else [skippedReport (messages.flatMap Message.skipped)]) ++ [.messages records])
            { messagesPushed := messages.length
              decodeErrors := (messages.flatMap Message.skipped).length } b b' := by
  obtain ⟨hrecords, hskipped⟩ := receiveBatch_records messages
  have htell (host : HostCode ν) := tellPushed_eq messages host
  rw [hskipped] at htell
  refine ⟨_, hrecords, htell, fun host b hhost hlock hfree => ?_⟩
  have hheard := Act.inHost_heard (Act.tellSteps_heard hhost
    (pushSteps (receiveBatch messages).1 (messages.flatMap Message.skipped))) hlock hfree
  rw [calls_pushSteps, counts_pushSteps, hrecords.length_eq] at hheard
  rw [htell]
  exact hheard

private theorem assigned_keepsToItself (outcomes : Nat → Except Panic HostOutcome) :
    (HostCode.assigned outcomes : HostCode ν).KeepsToItself :=
  fun d b => ⟨_, b, attempt_assigned d b, rfl, rfl, rfl, rfl⟩

def mixedMessages : List Message :=
  [.push ⟨0, "bmq://d/q", {}⟩ .zero .empty none,
    .push ⟨0, "bmq://d/q", {}⟩ .zero ⟨#[1]⟩
      (some ⟨[(⟨#[107]⟩, .unrecognized 99), (⟨#[108]⟩, .bool true)]⟩),
    .push ⟨0, "bmq://d/q", {}⟩ .zero ⟨#[2]⟩ (some ⟨[(⟨#[109]⟩, .string ⟨#[255]⟩)]⟩)]

/-- Both callbacks fail, the second by a panic. -/
theorem push_told_whole_mixed : ∃ b' : Bridge Unit,
    (MessageEvent.push mixedMessages).tell (.assigned failingTwice)
      { metrics := ⟨some {}⟩, native := () } = .ok () b' ∧
    b'.deliveries.map Delivery.kind = [.notification, .messages] ∧
    b'.deliveries.head? = some (.notification (.diagnostic
      ("'k' property type is unrecognized, type 99 received.\n" ++
        "STRING property 'm' has non-UTF-8 data\n"))) ∧
    b'.metrics.counters.map (fun c => (c.messagesPushed, c.decodeErrors)) = some (3, 2) := by
  obtain ⟨records, _, _, htold⟩ := push_told_whole (ν := Unit) mixedMessages
  obtain ⟨b', hrun, hheard⟩ := htold (.assigned failingTwice)
    { metrics := ⟨some {}⟩, native := () } (assigned_keepsToItself _) HostLock.wellFormed_free rfl
  have hskipped : mixedMessages.flatMap Message.skipped =
      [.unrecognizedType ⟨#[107]⟩ 99, .nonUtf8String ⟨#[109]⟩] := by
    decide +kernel
  have hcounted := congrArg (Option.map fun c => (c.messagesPushed, c.decodeErrors))
    hheard.counters
  rw [hskipped] at hcounted
  refine ⟨b', hrun, ?_, ?_, ?_⟩
  · rw [hheard.deliveries, hskipped]
    rfl
  · rw [hheard.deliveries, hskipped]
    exact congrArg (fun text => some (Delivery.notification (.diagnostic text)))
      (by decide +kernel)
  · rw [Option.map_map] at hcounted
    exact hcounted

/-! ## Acknowledgements -/

/-- The record of an acknowledgement: what it carries, and its identifier only if it tells of a
success. -/
structure ReceivedAck.Records (r : ReceivedAck) (m : Message) : Prop where
  status : r.status = m.ackStatus
  statusName : r.statusName = Code.ack.name m.ackStatus
  guid : ∀ g, r.guid = some g ↔ m.ackStatus = Code.success ∧ g = m.guid
  queueUri : r.queueUri = m.queue.uri
  correlation : r.correlation = m.correlation

private theorem ofMessage_records (m : Message) : (ReceivedAck.ofMessage m).Records m := by
  refine ⟨rfl, rfl, fun g => ?_, rfl, rfl⟩
  by_cases h : m.ackStatus = Code.success
  · simp [ReceivedAck.ofMessage, h, eq_comm]
  · simp [ReceivedAck.ofMessage, h]

def ackSteps (suppressed : Nat) (records : List ReceivedAck) : List TellStep :=
  .count { nacksSuppressed := suppressed } ::
    if records = [] then []
    else [.count { acksDelivered := records.length }, .call (.acks records)]

private theorem tellAcked_eq (messages : List Message) (host : HostCode ν) :
    (MessageEvent.ack messages).tell host = Act.inHost (Act.tellSteps host
      (ackSteps (messages.filter (·.isSuppressedAck)).length (deliveredAcks messages))) := by
  show Act.inHost ((MessageEvent.ack messages).tellAcked host) = _
  refine congrArg Act.inHost ?_
  rw [MessageEvent.tellAcked, MessageEvent.ack, ackSteps, Act.tellSteps_cons]
  refine congrArg _ (funext fun _ => ?_)
  cases deliveredAcks messages with
  | nil => rfl
  | cons r rest =>
    rw [if_neg (List.cons_ne_nil r rest), Act.tellSteps_cons, Act.tellSteps_single]
    rfl

private theorem calls_ackSteps (suppressed : Nat) (records : List ReceivedAck) :
    TellStep.calls (ackSteps suppressed records) =
      if records = [] then [] else [.acks records] := by
  unfold ackSteps
  split <;> rfl

private theorem counts_ackSteps (suppressed : Nat) (records : List ReceivedAck) :
    TellStep.counts (ackSteps suppressed records) =
      { acksDelivered := records.length, nacksSuppressed := suppressed } := by
  unfold ackSteps
  split
  · next hnone =>
    rw [hnone]
    rfl
  · show Counters.add _ (Counters.add _ _) = _
    simp [Counters.add, TellStep.counts]

def Message.BelongsToNone (m : Message) : Prop :=
  m.ackStatus ≠ Code.success ∧ m.correlation = none

instance (m : Message) : Decidable m.BelongsToNone :=
  inferInstanceAs (Decidable (_ ∧ _))

private theorem isSuppressedAck_eq (m : Message) : m.isSuppressedAck = decide m.BelongsToNone := by
  rw [Bool.eq_iff_iff, decide_eq_true_iff]
  simp [Message.isSuppressedAck, Message.BelongsToNone]

private theorem deliveredAcks_records (messages : List Message) :
    List.Forall₂ ReceivedAck.Records (deliveredAcks messages)
      (messages.filter (¬ ·.BelongsToNone)) := by
  have hfilter : messages.filter (!·.isSuppressedAck) =
      messages.filter (¬ ·.BelongsToNone) := by
    refine List.filter_congr fun m _ => ?_
    rw [isSuppressedAck_eq, decide_not]
  rw [deliveredAcks, hfilter, List.forall₂_map_left_iff]
  exact List.forall₂_same.mpr fun m _ => ofMessage_records m

private theorem length_parts (messages : List Message) : (deliveredAcks messages).length +
    (messages.filter (·.isSuppressedAck)).length = messages.length := by
  rw [deliveredAcks, List.length_map, Nat.add_comm]
  exact (List.length_eq_length_filter_add Message.isSuppressedAck).symm

/-! ## All acknowledgements -/

/-- The counters account for as many acknowledgements as the client says it has handed over. -/
def Bridge.Tallies (received : ν → Nat) (b : Bridge ν) : Prop :=
  ∀ c ∈ b.metrics.counters, c.acks = received b.native

/-- The client notes how many acknowledgements there are and has the host told of them. -/
def Act.handOver (note : Nat → ν → ν) (host : HostCode ν) (messages : List Message) :
    Act ν Unit := do
  modifyNative (note messages.length)
  (MessageEvent.ack messages).tell host

namespace Act

variable {received : ν → Nat} {host : HostCode ν}
  (hhost : ∀ d r b b', (host d).EndsIn r b b' → b.Tallies received → b'.Tallies received)

include hhost

private theorem callHost_tallies {d : Delivery} {b b' : Bridge ν}
    (h : callHost host d b = .ok () b')
    (hb : b.Tallies received) : b'.Tallies received := by
  obtain ⟨_, b₁, hcalled, h⟩ := bind_eq_ok.mp h
  cases hcalled
  obtain ⟨outcome, b₂, hrun, hreturned⟩ := bind_eq_ok.mp h
  have hended := hhost d outcome _ b₂ (endsIn_of_attempt hrun) hb
  rw [hostReturned_apply] at hreturned
  split at hreturned
  · cases hreturned
    exact hended
  · cases hreturned
    intro c hc
    obtain ⟨c₂, hc₂, rfl⟩ := Option.map_eq_some_iff.mp hc
    exact hended c₂ hc₂

/-- All of a batch is counted before the host is called, and nothing of it afterwards. -/
theorem handOver_tallies {note : Nat → ν → ν}
    (hnote : ∀ k n, received (note k n) = received n + k) {messages : List Message}
    {b b' : Bridge ν} (h : handOver note host messages b = .ok () b')
    (hb : b.Tallies received) : b'.Tallies received := by
  have hcounted (c : Counters) (hc : c ∈ b.metrics.counters) :
      c.acksDelivered + (deliveredAcks messages).length +
        (c.nacksSuppressed + (messages.filter (·.isSuppressedAck)).length) =
        received (note messages.length b.native) := by
    rw [hnote, ← hb c hc, ← length_parts messages, Counters.acks]
    omega
  obtain ⟨_, _, hnoted, h⟩ := bind_eq_ok.mp h
  cases hnoted
  rw [tellAcked_eq] at h
  obtain ⟨_, _, henter, h⟩ := bind_eq_ok.mp h
  rw [enterHost_apply] at henter
  split at henter
  · cases henter
    obtain ⟨b₂, _, hrun, hleave⟩ := body_of_ensuring_ok h
    cases hleave
    show b₂.Tallies received
    rw [ackSteps, tellSteps_cons] at hrun
    obtain ⟨_, b₁, hcount, hrun⟩ := bind_eq_ok.mp hrun
    cases hcount
    split at hrun
    · next hnone =>
      cases hrun
      intro c' hc'
      obtain ⟨c, hc, rfl⟩ := Option.map_eq_some_iff.mp hc'
      rw [hnone] at hcounted
      exact hcounted c hc
    · rw [tellSteps_cons, tellSteps_single] at hrun
      obtain ⟨_, b₁, hcount, hcall⟩ := bind_eq_ok.mp hrun
      cases hcount
      -- A callback may have more handed over, so the tally has to hold when it is called.
      refine callHost_tallies hhost hcall ?_
      intro c' hc'
      obtain ⟨c₁, hc₁, rfl⟩ := Option.map_eq_some_iff.mp hc'
      obtain ⟨c, hc, rfl⟩ := Option.map_eq_some_iff.mp hc₁
      exact hcounted c hc
  · cases henter

private theorem forM_handOver_tallies {note : Nat → ν → ν}
    (hnote : ∀ k n, received (note k n) = received n + k) {events : List (List Message)}
    {b b' : Bridge ν} (h : events.forM (handOver note host) b = .ok () b')
    (hb : b.Tallies received) : b'.Tallies received := by
  induction events generalizing b with
  | nil =>
    cases h
    exact hb
  | cons messages rest ih =>
    obtain ⟨_, b₁, hfirst, hrest⟩ := bind_eq_ok.mp h
    exact ih hrest (handOver_tallies hhost hnote hfirst hb)

end Act

/-- What the host hears of a batch of acknowledgements accounts for each of them. -/
theorem tellAcked_heard {host : HostCode ν} (hhost : host.KeepsToItself) (messages : List Message)
    {b : Bridge ν} (hlock : b.host.WellFormed) (hfree : (b.host.enter? b.thread 1).isSome) :
    ∃ b', (MessageEvent.ack messages).tell host b = .ok () b' ∧
      Heard (if deliveredAcks messages = [] then [] else [.acks (deliveredAcks messages)])
        { acksDelivered := (deliveredAcks messages).length
          nacksSuppressed := (messages.filter (·.isSuppressedAck)).length } b b' := by
  have hheard := Act.inHost_heard (Act.tellSteps_heard hhost
    (ackSteps (messages.filter (·.isSuppressedAck)).length (deliveredAcks messages))) hlock hfree
  rw [calls_ackSteps, counts_ackSteps] at hheard
  rw [tellAcked_eq]
  exact hheard

private theorem forM_tellAcked_heard {host : HostCode ν} (hhost : host.KeepsToItself)
    (events : List (List Message)) {b : Bridge ν} (hlock : b.host.WellFormed)
    (hfree : (b.host.enter? b.thread 1).isSome) :
    ∃ b' ds amount, events.forM (fun messages => (MessageEvent.ack messages).tell host) b =
        .ok () b' ∧
      Heard ds amount b b' ∧ amount.acks = events.flatten.length := by
  induction events generalizing b with
  | nil => exact ⟨b, [], {}, rfl, .refl b, rfl⟩
  | cons messages rest ih =>
    obtain ⟨b₁, hfirst, hheard⟩ := tellAcked_heard hhost messages hlock hfree
    rw [← hheard.host] at hlock hfree
    rw [← hheard.thread] at hfree
    obtain ⟨b', ds, amount, hrest, hheard', hamount⟩ := ih hlock hfree
    refine ⟨b', _, _, (Act.bind_of_ok hfirst).trans hrest, hheard.trans hheard', ?_⟩
    rw [Counters.acks_add, hamount, List.flatten_cons, List.length_append, ← length_parts messages]
    rfl

/-- Of acknowledgements those that failed and belong to no post are counted as suppressed. Of the
others the host is told by one call with a record of each, in their order, or not at all if there
are none. Whatever callbacks do, these are the steps of telling the host; and where callbacks cause
no deliveries of their own, the host hears nothing else and exactly this is counted.

Over batches one after another, and over batches that callbacks have the host told of meanwhile,
what is counted either way adds up to all acknowledgements. -/
theorem acks_told_apart :
    (∀ messages : List Message, ∃ records : List ReceivedAck,
      List.Forall₂ ReceivedAck.Records records (messages.filter (¬ ·.BelongsToNone)) ∧
      (∀ host : HostCode ν, (MessageEvent.ack messages).tell host = Act.inHost (Act.tellSteps host
        (ackSteps (messages.filter (·.BelongsToNone)).length records))) ∧
      ∀ (host : HostCode ν) (b : Bridge ν), host.KeepsToItself → b.host.WellFormed →
        (b.host.enter? b.thread 1).isSome →
        ∃ b', (MessageEvent.ack messages).tell host b = .ok () b' ∧
          Heard (if records = [] then [] else [.acks records])
            { acksDelivered := records.length
              nacksSuppressed := (messages.filter (·.BelongsToNone)).length } b b') ∧
    (∀ (host : HostCode ν) (events : List (List Message)) (b : Bridge ν), host.KeepsToItself →
      b.host.WellFormed → (b.host.enter? b.thread 1).isSome →
      ∃ b', events.forM (fun messages => (MessageEvent.ack messages).tell host) b = .ok () b' ∧
        b'.metrics.counters.map Counters.acks =
          b.metrics.counters.map fun c => c.acks + events.flatten.length) ∧
    ∀ (received : ν → Nat) (note : Nat → ν → ν) (host : HostCode ν),
      (∀ k n, received (note k n) = received n + k) →
      (∀ d r b b', (host d).EndsIn r b b' → b.Tallies received → b'.Tallies received) →
      ∀ (events : List (List Message)) (b b' : Bridge ν), b.Tallies received →
        events.forM (Act.handOver note host) b = .ok () b' → b'.Tallies received := by
  refine ⟨fun messages => ?_, ?_, ?_⟩
  · have hsuppressed : messages.filter (·.isSuppressedAck) = messages.filter (·.BelongsToNone) :=
      List.filter_congr fun m _ => isSuppressedAck_eq m
    rw [← hsuppressed]
    exact ⟨_, deliveredAcks_records messages, fun host => tellAcked_eq messages host,
      fun host b hhost hlock hfree => tellAcked_heard hhost messages hlock hfree⟩
  · intro host events b hhost hlock hfree
    obtain ⟨b', _, _, hrun, hheard, hamount⟩ := forM_tellAcked_heard hhost events hlock hfree
    refine ⟨b', hrun, ?_⟩
    rw [hheard.acks, hamount]
  · intro received note host hnote hhost events b b' hb hrun
    exact Act.forM_handOver_tallies hhost hnote hrun hb

def mixedAcks : List Message :=
  [.ack ⟨0, "bmq://d/q", {}⟩ .zero (-2) (some ⟨"c"⟩),
    .ack ⟨0, "bmq://d/q", {}⟩ .zero (-3) none,
    .ack ⟨0, "bmq://d/q", {}⟩ .zero Code.success none]

def handingOver (messages : List Message) : HostCode Nat := fun _ => do
  if (← get).deliveries.length = 1 then
    Act.handOver (fun k n => n + k) (.ending fun _ => .ok) messages
  return .ok

private theorem handingOver_tallies (messages : List Message) {d : Delivery}
    {r : Except Panic HostOutcome} {b b' : Bridge Nat}
    (h : (handingOver messages d).EndsIn r b b') (hb : b.Tallies id) : b'.Tallies id := by
  have hending {d : Delivery} {r : Except Panic HostOutcome} {b b' : Bridge Nat}
      (h : ((HostCode.ending fun _ => .ok : HostCode Nat) d).EndsIn r b b')
      (hb : b.Tallies id) : b'.Tallies id := by
    rw [(Act.endsIn_pure h).2]
    exact hb
  obtain ⟨_, _, hget, h⟩ := Act.endsIn_of_bind_quiet Act.neverPanics_get h
  cases hget
  split at h
  · have hquiet : (Act.handOver (fun k n => n + k) (.ending fun _ => .ok) messages).NeverPanics :=
      Act.neverPanics_bind (Act.neverPanics_modify _) fun _ =>
        Act.neverPanics_tell _ (.message (.ack messages))
    obtain ⟨_, b₁, hover, h⟩ := Act.endsIn_of_bind_quiet hquiet h
    rw [(Act.endsIn_pure h).2]
    exact Act.handOver_tallies (fun _ _ _ _ => hending) (fun _ _ => rfl) hover hb
  · rw [(Act.endsIn_pure h).2]
    exact hb

theorem acks_told_apart_nested : ∃ b b₁ b₂ : Bridge Nat,
    (MessageEvent.ack mixedAcks).tell (.assigned failingTwice)
      { metrics := ⟨some {}⟩, native := 0 } = .ok () b ∧
    b.deliveries.map Delivery.kind = [.acks] ∧
    b.metrics.counters.map (fun c => (c.acksDelivered, c.nacksSuppressed)) = some (2, 1) ∧
    [mixedAcks, [], mixedAcks].forM (fun messages => (MessageEvent.ack messages).tell
      (.assigned failingTwice)) { metrics := ⟨some {}⟩, native := 0 } = .ok () b₁ ∧
    b₁.metrics.counters.map Counters.acks = some 6 ∧
    [mixedAcks, mixedAcks].forM (Act.handOver (fun k n => n + k) (handingOver mixedAcks))
      { metrics := ⟨some {}⟩, native := 0 } = .ok () b₂ ∧
    b₂.Tallies id ∧ b₂.native = 9 := by
  obtain ⟨hone, hmany, hnested⟩ := acks_told_apart (ν := Nat)
  obtain ⟨records, hrecords, _, htold⟩ := hone mixedAcks
  obtain ⟨b, hrun, hheard⟩ := htold (.assigned failingTwice)
    { metrics := ⟨some {}⟩, native := 0 } (assigned_keepsToItself _) HostLock.wellFormed_free rfl
  obtain ⟨b₁, hrun₁, hacks⟩ := hmany (.assigned failingTwice) [mixedAcks, [], mixedAcks]
    { metrics := ⟨some {}⟩, native := 0 } (assigned_keepsToItself _) HostLock.wellFormed_free rfl
  obtain ⟨b₂, hrun₂, hnative⟩ : ∃ b', [mixedAcks, mixedAcks].forM
      (Act.handOver (fun k n => n + k) (handingOver mixedAcks))
      { metrics := ⟨some {}⟩, native := 0 } = .ok () b' ∧ b'.native = 9 := ⟨_, rfl, rfl⟩
  have hlength : records.length = 2 := hrecords.length_eq
  have hsome : records ≠ [] := List.ne_nil_of_length_pos (hlength ▸ Nat.two_pos)
  have hcounted := congrArg (Option.map fun c => (c.acksDelivered, c.nacksSuppressed))
    hheard.counters
  rw [Option.map_map, hlength] at hcounted
  refine ⟨b, b₁, b₂, hrun, ?_, hcounted, hrun₁, hacks, hrun₂, ?_, hnative⟩
  · rw [hheard.deliveries, if_neg hsome]
    rfl
  · refine hnested id (fun k n => n + k) (handingOver mixedAcks) (fun _ _ => rfl)
      (fun _ _ _ _ => handingOver_tallies mixedAcks) [mixedAcks, mixedAcks] _ _ ?_ hrun₂
    intro c hc
    cases hc
    rfl

end BrokerBridge
