import BrokerBridge.Message.Packing

/-!
# What an event is built of

Messages are offered to a builder one after another, and in between queues are closed, held back or
let go. An offer is judged by how its queue stands at that moment. The event that is built holds the
messages that were acceptable when they were offered, in the order of the offers, and its tokens
are taken out of it once.
-/

namespace BrokerBridge

/-! ## Rules -/

section

variable (limit : Nat) (t : QueueTable) (q : QueueHandle) (m : OutgoingMessage)

/-- What is asked of a message, in the order in which it is looked at, under the name of the code
for a message that falls short of it. -/
def packingRules : List (String × Prop) :=
  [("QUEUE_INVALID", t.isValid q = true),
    ("QUEUE_READONLY", q.flags.write = true),
    ("QUEUE_SUSPENDED", t.isSuspended q = false),
    ("MISSING_CORRELATION_ID", q.flags.ack = true → m.correlation ≠ none),
    ("PAYLOAD_EMPTY", m.payload.size ≠ 0),
    ("PAYLOAD_TOO_BIG", m.payload.size ≤ limit)]

def Acceptable : Prop := ∀ rule ∈ packingRules limit t q m, rule.2

def BreaksFirst (name : String) : Prop :=
  ∃ before rule after, packingRules limit t q m = before ++ (name, rule) :: after ∧
    (∀ r ∈ before, r.2) ∧ ¬rule

end

section

variable {limit : Nat} {t : QueueTable} {q : QueueHandle} {m : OutgoingMessage}

def PackingRule.codeName : PackingRule → String
  | queueValid => "QUEUE_INVALID"
  | queueWritable => "QUEUE_READONLY"
  | queueNotSuspended => "QUEUE_SUSPENDED"
  | correlationPresent => "MISSING_CORRELATION_ID"
  | payloadNonempty => "PAYLOAD_EMPTY"
  | payloadWithinLimit => "PAYLOAD_TOO_BIG"

private theorem packingRules_eq :
    packingRules limit t q m =
      PackingRule.all.map fun r => (r.codeName, r.holds limit t q m = true) := by
  have hcorrelation : (!q.flags.ack || m.correlation.isSome) = true ↔
      (q.flags.ack = true → m.correlation ≠ none) := by
    cases q.flags.ack <;> cases m.correlation <;> simp
  simp only [packingRules, PackingRule.all, List.map_cons, List.map_nil, PackingRule.holds,
    hcorrelation, Bool.not_eq_true', bne_iff_ne, decide_eq_true_eq]
  rfl

theorem acceptable_iff :
    Acceptable limit t q m ↔ ∀ r ∈ PackingRule.all, r.holds limit t q m = true := by
  rw [Acceptable, packingRules_eq, List.forall_mem_map]

instance : Decidable (Acceptable limit t q m) := decidable_of_iff _ acceptable_iff.symm

private theorem PackingRule.find?_codeName (r : PackingRule) :
    all.find? (fun r' => r'.codeName == r.codeName) = some r := by
  cases r <;> rfl

theorem PackingRule.codeName_injective : Function.Injective PackingRule.codeName := by
  intro r r' h
  have hfound := find?_codeName r
  rw [h, find?_codeName r'] at hfound
  exact (Option.some.inj hfound).symm

/-- The code for a message that breaks the rule is the one that bears its name. -/
theorem PackingRule.mem_entries_iff {r : PackingRule} {code : Int} :
    (code, r.codeName) ∈ Code.packing.entries ↔ code = r.code := by
  cases r <;> simp [codeName, Code.packing, PackingRule.code]

theorem breaksFirst_codeName_iff {r : PackingRule} :
    BreaksFirst limit t q m r.codeName ↔
      PackingRule.all.find? (fun r => !r.holds limit t q m) = some r := by
  rw [List.find?_eq_some_iff_append, BreaksFirst, packingRules_eq]
  constructor
  · rintro ⟨before, rule, after, hsplit, hbefore, hbroken⟩
    obtain ⟨as, rest, hall, rfl, hrest⟩ := List.map_eq_append_iff.mp hsplit
    obtain ⟨r', bs, rfl, hr', rfl⟩ := List.map_eq_cons_iff.mp hrest
    obtain ⟨hname, rfl⟩ := Prod.mk.inj hr'
    obtain rfl := PackingRule.codeName_injective hname
    refine ⟨by simpa using hbroken, as, bs, hall, fun a ha => ?_⟩
    simpa using hbefore _ (List.mem_map_of_mem ha)
  · rintro ⟨hbroken, as, bs, hall, hbefore⟩
    refine ⟨_, _, _, by rw [hall, List.map_append, List.map_cons], ?_, by simpa using hbroken⟩
    rw [List.forall_mem_map]
    intro a ha
    simpa using hbefore a ha

private theorem exists_codeName {name : String} (h : BreaksFirst limit t q m name) :
    ∃ r : PackingRule, r.codeName = name := by
  obtain ⟨before, rule, after, hsplit, -, -⟩ := h
  have hmem : (name, rule) ∈ packingRules limit t q m := by simp [hsplit]
  rw [packingRules_eq] at hmem
  obtain ⟨r, -, hr⟩ := List.mem_map.mp hmem
  exact ⟨r, congrArg Prod.fst hr⟩

/-! ## One offer -/

def OutgoingMessage.bound (m : OutgoingMessage) (guid : Guid) (q : QueueHandle) : Message where
  queue := q
  guid := guid
  payload := m.payload
  properties := m.properties
  correlation := m.correlation
  compression := m.compression

def EventBuilder.add (b : EventBuilder) (m : Message) : EventBuilder :=
  { b with messages := b.messages ++ [m] }

variable {b b' : EventBuilder} {guid : Guid} {refused : PackRejection}

private theorem pack_of_find? {r : PackingRule}
    (h : PackingRule.all.find? (fun r => !r.holds b.maxPayload t q m) = some r) :
    b.pack t guid q m = .error ⟨r.code, m⟩ := by
  rw [EventBuilder.pack, h]

private theorem pack_of_find?_none
    (h : PackingRule.all.find? (fun r => !r.holds b.maxPayload t q m) = none) :
    b.pack t guid q m = .ok (b.add (m.bound guid q)) := by
  rw [EventBuilder.pack, h]
  rfl

private theorem find?_eq_none_iff_acceptable :
    PackingRule.all.find? (fun r => !r.holds limit t q m) = none ↔ Acceptable limit t q m := by
  rw [List.find?_eq_none, acceptable_iff]
  simp

theorem pack_eq_ok_iff :
    b.pack t guid q m = .ok b' ↔ Acceptable b.maxPayload t q m ∧ b' = b.add (m.bound guid q) := by
  rw [← find?_eq_none_iff_acceptable]
  cases hfind : PackingRule.all.find? (fun r => !r.holds b.maxPayload t q m) with
  | none => simp [pack_of_find?_none hfind, eq_comm]
  | some r => simp [pack_of_find? hfind]

theorem pack_eq_error_iff :
    b.pack t guid q m = .error refused ↔
      refused.message = m ∧ ∃ name, (refused.code, name) ∈ Code.packing.entries ∧
        BreaksFirst b.maxPayload t q m name := by
  constructor
  · intro h
    cases hfind : PackingRule.all.find? (fun r => !r.holds b.maxPayload t q m) with
    | none => simp [pack_of_find?_none hfind] at h
    | some r =>
      rw [pack_of_find? hfind] at h
      cases h
      exact ⟨rfl, r.codeName, PackingRule.mem_entries_iff.mpr rfl,
        breaksFirst_codeName_iff.mpr hfind⟩
  · rintro ⟨hmessage, name, hcode, hbreaks⟩
    obtain ⟨r, rfl⟩ := exists_codeName hbreaks
    obtain ⟨code, message⟩ := refused
    obtain rfl := PackingRule.mem_entries_iff.mp hcode
    obtain rfl := hmessage
    exact pack_of_find? (breaksFirst_codeName_iff.mp hbreaks)

end

/-! ## One step after another -/

inductive BuildingStep where
  | offer (guid : Guid) (queue : QueueHandle) (message : OutgoingMessage)
  | invalidate (queue : QueueHandle)
  | suspend (queue : QueueHandle) (held : Bool)

structure Building where
  table : QueueTable
  builder : EventBuilder

namespace Building

/-- A message that is refused leaves the builder as it is. -/
def step (s : Building) : BuildingStep → Building
  | .offer guid q m =>
      match s.builder.pack s.table guid q m with
      | .ok builder => { s with builder }
      | .error _ => s
  | .invalidate q => { s with table := s.table.invalidate q }
  | .suspend q held => { s with table := s.table.setSuspended q held }

def run (s : Building) (steps : List BuildingStep) : Building := steps.foldl step s

end Building

structure Offer where
  table : QueueTable
  guid : Guid
  queue : QueueHandle
  message : OutgoingMessage

def offers (t : QueueTable) : List BuildingStep → List Offer
  | [] => []
  | .offer guid q m :: rest => ⟨t, guid, q, m⟩ :: offers t rest
  | .invalidate q :: rest => offers (t.invalidate q) rest
  | .suspend q held :: rest => offers (t.setSuspended q held) rest

/-- The offers that were acceptable when they were made. -/
def accepted (limit : Nat) (t : QueueTable) (steps : List BuildingStep) : List Offer :=
  (offers t steps).filter fun o => Acceptable limit o.table o.queue o.message

def acceptedMessages (limit : Nat) (t : QueueTable) (steps : List BuildingStep) : List Message :=
  (accepted limit t steps).map fun o => o.message.bound o.guid o.queue

namespace BuildingStep

def invalidates (q : QueueHandle) : BuildingStep → Bool
  | .invalidate r => q.sameQueue r
  | _ => false

/-- Whether the queue is held back from this step on, if the step says so. -/
def holds? (q : QueueHandle) : BuildingStep → Option Bool
  | .suspend r held => if q.sameQueue r then some held else none
  | _ => none

end BuildingStep

namespace Building

variable {s : Building} {q : QueueHandle}

@[simp] theorem run_cons (s : Building) (x : BuildingStep) (rest : List BuildingStep) :
    s.run (x :: rest) = (s.step x).run rest := rfl

private theorem step_offer_of_acceptable {guid : Guid} {m : OutgoingMessage}
    (h : Acceptable s.builder.maxPayload s.table q m) :
    s.step (.offer guid q m) = { s with builder := s.builder.add (m.bound guid q) } := by
  simp only [step, pack_eq_ok_iff.mpr ⟨h, rfl⟩]

private theorem step_offer_of_not_acceptable {guid : Guid} {m : OutgoingMessage}
    (h : ¬Acceptable s.builder.maxPayload s.table q m) : s.step (.offer guid q m) = s := by
  cases hpack : s.builder.pack s.table guid q m with
  | ok b => exact absurd (pack_eq_ok_iff.mp hpack).1 h
  | error refused => simp only [step, hpack]

private theorem builder_run (s : Building) (steps : List BuildingStep) :
    (s.run steps).builder =
      { s.builder with messages :=
          s.builder.messages ++ acceptedMessages s.builder.maxPayload s.table steps } := by
  induction steps generalizing s with
  | nil => simp [run, acceptedMessages, accepted, offers]
  | cons x rest ih =>
    rw [run_cons, ih]
    cases x with
    | offer guid q m =>
      by_cases h : Acceptable s.builder.maxPayload s.table q m
      · have haccepted : acceptedMessages s.builder.maxPayload s.table (.offer guid q m :: rest) =
            m.bound guid q :: acceptedMessages s.builder.maxPayload s.table rest := by
          simp [acceptedMessages, accepted, offers, h]
        rw [step_offer_of_acceptable h, haccepted]
        simp [EventBuilder.add]
      · rw [step_offer_of_not_acceptable h]
        simp [acceptedMessages, accepted, offers, h]
    | invalidate q => rfl
    | suspend q held => rfl

private theorem table_step_offer (s : Building) (guid : Guid) (q : QueueHandle)
    (m : OutgoingMessage) :
    (s.step (.offer guid q m)).table = s.table := by
  simp only [step]
  split <;> rfl

private theorem length_step (s : Building) (x : BuildingStep) :
    (s.step x).table.states.length = s.table.states.length := by
  cases x with
  | offer guid q m => rw [table_step_offer]
  | invalidate q => exact s.table.length_modify q _
  | suspend q held => exact s.table.length_modify q _

private theorem isValid_step (hq : q.id < s.table.states.length) (x : BuildingStep) :
    (s.step x).table.isValid q = (s.table.isValid q && !x.invalidates q) := by
  cases x with
  | offer guid r m => simp [table_step_offer, BuildingStep.invalidates]
  | invalidate r => exact QueueTable.isValid_invalidate hq
  | suspend r held =>
    have hopen : (BuildingStep.suspend r held).invalidates q = false := rfl
    rw [hopen, Bool.not_false, Bool.and_true]
    exact QueueTable.isValid_setSuspended hq held

private theorem isSuspended_step (hq : q.id < s.table.states.length) (x : BuildingStep) :
    (s.step x).table.isSuspended q = (x.holds? q).getD (s.table.isSuspended q) := by
  cases x with
  | offer guid r m => rw [table_step_offer]; rfl
  | invalidate r => exact QueueTable.isSuspended_invalidate hq
  | suspend r held =>
    refine (QueueTable.isSuspended_setSuspended hq held).trans ?_
    by_cases h : q.id = r.id <;> simp [BuildingStep.holds?, QueueHandle.sameQueue, h]

private theorem isValid_run (hq : q.id < s.table.states.length) (steps : List BuildingStep) :
    (s.run steps).table.isValid q = (s.table.isValid q && !steps.any (·.invalidates q)) := by
  induction steps generalizing s with
  | nil => simp [run]
  | cons x rest ih =>
    rw [run_cons, ih (s.length_step x ▸ hq), isValid_step hq, List.any_cons, Bool.not_or,
      Bool.and_assoc]

/-- A queue is held back if the last step that says anything of it says so. -/
theorem isSuspended_run (hq : q.id < s.table.states.length) (steps : List BuildingStep) :
    (s.run steps).table.isSuspended q =
      (steps.filterMap (·.holds? q)).getLast?.getD (s.table.isSuspended q) := by
  induction steps generalizing s with
  | nil => rfl
  | cons x rest ih =>
    rw [run_cons, ih (s.length_step x ▸ hq), isSuspended_step hq]
    cases h : x.holds? q with
    | none => rw [List.filterMap_cons_none h]; rfl
    | some held => simp [List.filterMap_cons_some h, List.getLast?_cons]

end Building

/-! ## The event -/

/-- An offer is taken exactly if the message is acceptable as its queue stands, which is valid until
a step closes it and held back as the last step says. A message that is refused comes back as it is,
under the code of the first rule it breaks, and nothing changes. The event holds the messages that
were acceptable when they were offered. Its tokens are theirs, and they are taken out once. -/
theorem event_holds_acceptable (limit : Nat) (t : QueueTable) (steps : List BuildingStep) :
    let s := Building.run ⟨t, .empty limit⟩ steps
    let event := s.builder.build
    (∀ guid q m,
      (∀ b, s.builder.pack s.table guid q m = .ok b ↔
        Acceptable limit s.table q m ∧ b = s.builder.add (m.bound guid q)) ∧
      (∀ refused, s.builder.pack s.table guid q m = .error refused ↔
        refused.message = m ∧ ∃ name, (refused.code, name) ∈ Code.packing.entries ∧
          BreaksFirst limit s.table q m name) ∧
      (¬Acceptable limit s.table q m → s.step (.offer guid q m) = s)) ∧
    (∀ q : QueueHandle, q.id < t.states.length →
      s.table.isValid q = (t.isValid q && !steps.any (·.invalidates q)) ∧
      s.table.isSuspended q =
        (steps.filterMap (·.holds? q)).getLast?.getD (t.isSuspended q)) ∧
    event.kind = MessageEventKind.put.code ∧
    event.messages = acceptedMessages limit t steps ∧
    event.takeCorrelations.1 = (accepted limit t steps).filterMap (·.message.correlation) ∧
    event.takeCorrelations.2.takeCorrelations.1 = [] := by
  intro s event
  have hbuilder : s.builder = ⟨acceptedMessages limit t steps, limit⟩ := by
    rw [Building.builder_run]
    simp [EventBuilder.empty]
  have hlimit : s.builder.maxPayload = limit := by rw [hbuilder]
  have hmessages : event.messages = acceptedMessages limit t steps :=
    congrArg EventBuilder.messages hbuilder
  refine ⟨fun guid q m => ⟨fun b => ?_, fun refused => ?_, fun h => ?_⟩, fun q hq => ?_, rfl,
    hmessages, ?_, event.correlations_takeCorrelations⟩
  · rw [pack_eq_ok_iff, hlimit]
  · rw [pack_eq_error_iff, hlimit]
  · exact Building.step_offer_of_not_acceptable (hlimit.symm ▸ h)
  · exact ⟨Building.isValid_run hq steps, Building.isSuspended_run hq steps⟩
  · show event.messages.filterMap (·.correlation) = _
    rw [hmessages, acceptedMessages, List.filterMap_map]
    rfl

def ackedQueue : QueueHandle := ⟨0, "bmq://d/q", { write := true, ack := true }⟩

def tokenMessage (byte : UInt8) (token : Option String) : OutgoingMessage :=
  ⟨⟨#[byte]⟩, none, token.map Correlation.mk, .zlib⟩

/-- The second message has no token, the third finds the queue held back and the last one finds it
closed. -/
def ackedSteps : List BuildingStep :=
  [.offer .zero ackedQueue (tokenMessage 1 "a"), .offer .zero ackedQueue (tokenMessage 2 none),
    .suspend ackedQueue true, .offer .zero ackedQueue (tokenMessage 3 "c"),
    .suspend ackedQueue false, .offer .zero ackedQueue (tokenMessage 4 "d"),
    .invalidate ackedQueue, .offer .zero ackedQueue (tokenMessage 5 "e")]

theorem event_holds_acceptable_acked :
    let s := Building.run ⟨⟨[{}]⟩, .empty 1⟩ ackedSteps
    s.table.isValid ackedQueue = false ∧ s.table.isSuspended ackedQueue = false ∧
    s.step (.offer .zero ackedQueue (tokenMessage 6 "f")) = s ∧
    s.builder.build.messages =
      [(tokenMessage 1 "a").bound .zero ackedQueue, (tokenMessage 4 "d").bound .zero ackedQueue] ∧
    s.builder.build.takeCorrelations.1 = [⟨"a"⟩, ⟨"d"⟩] ∧
    s.builder.build.takeCorrelations.2.takeCorrelations.1 = [] := by
  intro s
  obtain ⟨hoffer, htable, -, hmessages, htokens, hagain⟩ :=
    event_holds_acceptable 1 ⟨[{}]⟩ ackedSteps
  obtain ⟨hvalid, hsuspended⟩ := htable ackedQueue (by decide)
  obtain ⟨-, -, hunchanged⟩ := hoffer .zero ackedQueue (tokenMessage 6 "f")
  have hclosed : s.table.isValid ackedQueue = false := hvalid.trans (by decide)
  refine ⟨hclosed, hsuspended.trans (by decide), hunchanged (by decide),
    hmessages.trans (by decide), htokens.trans (by decide), hagain⟩

end BrokerBridge
