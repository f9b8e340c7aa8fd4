import Mathlib.Data.List.Forall2
import BrokerBridge.Proofs.Property.Offences
import BrokerBridge.Proofs.Text.JsonText
import BrokerBridge.Replay.ScriptFile

/-!
# Lines of a script

What a line of a script holds: a blank line holds nothing, and a record holds one batch if each of
its messages can be scripted. A batch whose payloads and keys are text can be written as a record,
and the line that is written holds the batch that was meant.
-/

namespace BrokerBridge

inductive ScriptBatch where
  | push (batch : List ScriptedPush)
  | ack (batch : List ScriptedAck)

namespace ScriptBatch

def push? : ScriptBatch → Option (List ScriptedPush)
  | push batch => some batch
  | ack _ => none

def ack? : ScriptBatch → Option (List ScriptedAck)
  | push _ => none
  | ack batch => some batch

def alone : ScriptBatch → Script
  | push batch => { push := [batch] }
  | ack batch => { ack := [batch] }

end ScriptBatch

namespace Script

def ofBatches (batches : List ScriptBatch) : Script where
  push := batches.filterMap (·.push?)
  ack := batches.filterMap (·.ack?)

theorem ofBatches_singleton (x : ScriptBatch) : ofBatches [x] = x.alone := by cases x <;> rfl

theorem ofBatches_cons (x : ScriptBatch) (batches : List ScriptBatch) :
    ofBatches (x :: batches) = x.alone.extend (ofBatches batches) := by
  cases x <;> rfl

end Script

/-! ## Lines -/

inductive ScriptRecord.Holds : ScriptRecord → ScriptBatch → Prop where
  | push {records : List WrittenPush} {batch : List ScriptedPush}
      (h : List.Forall₂ (fun r p => r.scripted = .ok p) records batch) :
      Holds (.push records) (.push batch)
  | ack {records : List WrittenAck} {batch : List ScriptedAck}
      (h : List.Forall₂ (fun r a => r.scripted = .ok a) records batch) :
      Holds (.ack records) (.ack batch)

/-- What a line holds: a blank one nothing, and any other the batch of its record. -/
inductive LineHolds (bytes : List UInt8) : Option ScriptBatch → Prop where
  | blank {line : String} (htext : String.fromUTF8? ⟨bytes.toArray⟩ = some line)
      (hblank : Text.isBlank line = true) : LineHolds bytes none
  | record {line : String} {record : ScriptRecord} {batch : ScriptBatch}
      (htext : String.fromUTF8? ⟨bytes.toArray⟩ = some line) (hblank : Text.isBlank line = false)
      (hrecord : ScriptRecord.ofLine? line = some record) (hbatch : record.Holds batch) :
      LineHolds bytes (some batch)

/-! ## One by one -/

private theorem mapM_of_forall₂ {m : Type → Type} [Monad m] [LawfulMonad m] {α β : Type}
    {f : α → m β}
    {l : List α} {out : List β} (h : List.Forall₂ (fun x y => f x = pure y) l out) :
    l.mapM f = pure out := by
  induction h with
  | nil => exact List.mapM_nil
  | cons hx _ ih => rw [List.mapM_cons, hx, pure_bind, ih, pure_bind]

private theorem mapM_map_of_forall {m : Type → Type} [Monad m] [LawfulMonad m] {α β γ : Type}
    {f : β → m γ}
    {g : α → β} {k : α → γ} {l : List α} (h : ∀ x ∈ l, f (g x) = pure (k x)) :
    (l.map g).mapM f = pure (l.map k) :=
  mapM_of_forall₂ (List.forall₂_map_left_iff.mpr (List.forall₂_map_right_iff.mpr
    (List.forall₂_same.mpr h)))

/-- Each element has its counterpart. -/
theorem exists_of_forall₂ {α β : Type} {R : α → β → Prop} {l : List α} {out : List β}
    (h : List.Forall₂ R l out) : ∀ x ∈ l, ∃ y ∈ out, R x y := by
  induction h with
  | nil => exact nofun
  | cons hxy _ ih =>
    refine List.forall_mem_cons.mpr ⟨⟨_, List.mem_cons_self, hxy⟩, fun x hx => ?_⟩
    obtain ⟨y, hy, h⟩ := ih x hx
    exact ⟨y, List.mem_cons_of_mem _ hy, h⟩

theorem mapM_eq_ok_iff {ε α β : Type} {f : α → Except ε β} {l : List α} {out : List β} :
    l.mapM f = .ok out ↔ List.Forall₂ (fun x y => f x = .ok y) l out := by
  refine ⟨fun h => ?_, mapM_of_forall₂⟩
  induction l generalizing out with
  | nil =>
    cases h
    exact .nil
  | cons x l ih =>
    rw [List.mapM_cons] at h
    cases hx : f x with
    | error e =>
      rw [hx] at h
      cases h
    | ok y =>
      rw [hx] at h
      cases hl : l.mapM f with
      | error e =>
        rw [hl] at h
        cases h
      | ok more =>
        rw [hl] at h
        cases h
        exact .cons hx (ih hl)

namespace Script

variable {e e' : Script}

/-- A line is queued exactly if its record holds a batch. -/
theorem addLine_eq_ok_iff {line : String} :
    e.addLine line = .ok e' ↔ ∃ record batch, ScriptRecord.ofLine? line = some record ∧
      record.Holds batch ∧ e' = e.extend batch.alone := by
  unfold addLine
  constructor
  · intro h
    split at h
    · cases h
    · next records hrecord =>
      cases hbatch : records.mapM WrittenPush.scripted with
      | error fault =>
        rw [hbatch] at h
        cases h
      | ok batch =>
        rw [hbatch] at h
        cases h
        exact ⟨_, _, hrecord, .push (mapM_eq_ok_iff.mp hbatch), e.enqueuePush_eq batch⟩
    · next records hrecord =>
      cases hbatch : records.mapM WrittenAck.scripted with
      | error fault =>
        rw [hbatch] at h
        cases h
      | ok batch =>
        rw [hbatch] at h
        cases h
        exact ⟨_, _, hrecord, .ack (mapM_eq_ok_iff.mp hbatch), e.enqueueAck_eq batch⟩
  · rintro ⟨record, batch, hrecord, hbatch, rfl⟩
    rw [hrecord]
    cases hbatch with
    | push h =>
      simp only [mapM_eq_ok_iff.mpr h]
      exact congrArg Except.ok (e.enqueuePush_eq _)
    | ack h =>
      simp only [mapM_eq_ok_iff.mpr h]
      exact congrArg Except.ok (e.enqueueAck_eq _)

end Script

/-! ## What is written -/

/-- The text that bytes are; bytes that are no text have none to be written. -/
def textOf (data : ByteArray) : String := (String.fromUTF8? data).getD ""

private theorem toUTF8_textOf {data : ByteArray} (h : data.IsValidUTF8) :
    (textOf data).toUTF8 = data := by
  rw [textOf, String.fromUTF8?, dif_pos h]
  rfl

section Writing

-- how bytes are written in hexadecimal digits
variable (hex : ByteArray → String)

def HostValue.written : HostValue → JsonValue
  | .bool flag => .boolean flag
  | .int n => .integer n
  | .bytes data => .text (hex data)
  | .str text => .text text

def writtenEntry (e : ByteArray × HostValue × PropertyTag) : String × JsonValue :=
  (textOf e.1, .array [e.2.1.written hex, .integer e.2.2.code])

def ScriptedPush.written (p : ScriptedPush) : JsonValue :=
  .object [("payload", .text (textOf p.payload)), ("guid", .text p.guid.render),
    ("queue_uri", .text p.queueUri),
    ("properties", .object (p.properties.entries.map (writtenEntry hex)))]

def AckToken.written : AckToken → String
  | .posted | .handle _ => "posted"
  | .unset => "unset"

def ScriptedAck.written (a : ScriptedAck) : JsonValue :=
  .object [("status", .integer a.status), ("guid", .text a.guid.render),
    ("queue_uri", .text a.queueUri), ("correlation", .text a.correlation.written)]

def ScriptBatch.written : ScriptBatch → JsonValue
  | .push batch => .object [("push", .array (batch.map (·.written hex)))]
  | .ack batch => .object [("ack", .array (batch.map (·.written)))]

end Writing

/-! ## What can be written -/

/-- A message whose payload and keys are text and whose properties can be sent, with text for
what is sent as text. -/
structure ScriptedPush.Expressible (p : ScriptedPush) : Prop where
  payload : p.payload.IsValidUTF8
  encodes : ∃ w, Property.encode p.properties = .ok w
  keys : ∀ e ∈ p.properties.entries, e.1.IsValidUTF8
  texts : ∀ e ∈ p.properties.entries, e.2.2 = .ofType .string → e.2.1.shape = .str
  notVerbatim : p.verbatim = none

/-- An acknowledgement whose status has 32 bits, of the token that was posted or of none. -/
structure ScriptedAck.Expressible (a : ScriptedAck) : Prop where
  status : Word.isSigned 32 a.status = true
  token : a.correlation = .posted ∨ a.correlation = .unset

def ScriptBatch.Expressible : ScriptBatch → Prop
  | .push batch => ∀ p ∈ batch, p.Expressible
  | .ack batch => ∀ a ∈ batch, a.Expressible

/-! ## What is read -/

private theorem signed?_integer {bits : Nat} {n : Int} (h : Word.isSigned bits n = true)
    (hbits : bits ≤ 64) : (JsonValue.integer n).tree.signed? bits = some n := by
  have hn : (JsonTree.numberOf n).int64? = some n :=
    JsonTree.int64?_numberOf (Word.isSigned_mono h hbits)
  show ((JsonTree.numberOf n).int64?).filter (Word.isSigned bits) = some n
  rw [hn]
  exact if_pos h

private theorem isSigned_of_width {width : IntWidth} {n : Int} (hmin : width.min ≤ n)
    (hmax : n ≤ width.max) : Word.isSigned 64 n = true := by
  have hcount : Word.count (64 - 1) = 9223372036854775808 := by decide
  rw [Word.isSigned_iff, hcount]
  -- the limits of the narrower widths lie within those of the widest
  cases width <;> simp only [IntWidth.min, IntWidth.max] at hmin hmax <;> omega

section Reading

variable {hex : ByteArray → String} {value : HostValue} {t : PropertyType} {wire : WireValue}

def WrittenProperty.of (hex : ByteArray → String) (e : HostValue × PropertyTag) :
    WrittenProperty where
  value := (e.1.written hex).tree
  shown := ((e.1.written hex).tree.render? ScriptRecord.valueDepth).getD ""
  code := e.2.code

private theorem exists_shown (hex : ByteArray → String) (h : Property.Typed value t wire) :
    ∃ shown, (value.written hex).tree.render? ScriptRecord.valueDepth = some shown := by
  cases h with
  | bool flag => exact ⟨_, rfl⟩
  | int width n hmin hmax =>
    have hword := JsonTree.word?_numberOf (isSigned_of_width hmin hmax)
    refine ⟨toString n, ?_⟩
    show (JsonTree.numberOf n).render? = _
    rw [JsonNumber.render?, hword]
  | char | text | textBytes | binary => exact ⟨_, rfl⟩

private theorem property?_written {e : HostValue × PropertyTag}
    (h : Property.GoesWith e.1 e.2.code) :
    ScriptRecord.property? (JsonValue.array [e.1.written hex, .integer e.2.code]).tree =
      some (.of hex e) := by
  obtain ⟨value, tag⟩ := e
  obtain ⟨t, wire, rfl, htyped⟩ := Property.goesWith_iff.mp h
  obtain ⟨shown, hshown⟩ := exists_shown hex htyped
  have hcode : (JsonValue.integer t.code).tree.signed? 64 = some t.code :=
    signed?_integer (by cases t <;> decide) (Nat.le_refl 64)
  have htree : (JsonValue.array [value.written hex, .integer t.code]).tree =
      .array [(value.written hex).tree, (JsonValue.integer t.code).tree] := rfl
  show ScriptRecord.property? (JsonValue.array [value.written hex, .integer t.code]).tree = _
  rw [htree, ScriptRecord.property?, hshown, hcode, WrittenProperty.of, hshown]
  rfl

/-- The value is read back that was written, by the type that is written beside it. -/
theorem hostValue_of (hhex : Hex.Writes hex) {e : HostValue × PropertyTag}
    (h : Property.GoesWith e.1 e.2.code) (htext : e.2 = .ofType .string → e.1.shape = .str) :
    (WrittenProperty.of hex e).hostValue = .ok e.1 := by
  obtain ⟨value, tag⟩ := e
  obtain ⟨t, wire, rfl, h⟩ := Property.goesWith_iff.mp h
  have hhexadecimal (data : ByteArray) (ht : t = .char ∨ t = .binary) :
      (WrittenProperty.of hex (.bytes data, .ofType t)).hostValue = .ok (.bytes data) := by
    have hvalue : (WrittenProperty.of hex (.bytes data, .ofType t)).value =
        .string (some (hex data)) := rfl
    have htype : (PropertyTag.mk (WrittenProperty.of hex (.bytes data, .ofType t)).code).type? =
        some t := PropertyTag.type?_ofType t
    rw [WrittenProperty.hostValue, hvalue, htype]
    rcases ht with rfl | rfl <;> simp only [hhex.decode? data]
  cases h with
  | bool flag => rfl
  | int width n hmin hmax =>
    have hn : (JsonTree.numberOf n).int64? = some n :=
      JsonTree.int64?_numberOf (isSigned_of_width hmin hmax)
    have hvalue : (WrittenProperty.of hex (.int n, .ofType width.type)).value =
        .number (JsonTree.numberOf n) := rfl
    rw [WrittenProperty.hostValue, hvalue]
    simp only [hn]
  | char byte => exact hhexadecimal _ (.inl rfl)
  | text text => rfl
  | textBytes data => cases htext rfl
  | binary data => exact hhexadecimal data (.inr rfl)

def WrittenPush.of (hex : ByteArray → String) (p : ScriptedPush) : WrittenPush where
  payload := textOf p.payload
  guid := p.guid.render
  queueUri := p.queueUri
  properties := p.properties.entries.map fun e => (textOf e.1, .of hex e.2)

def WrittenAck.of (a : ScriptedAck) : WrittenAck where
  status := a.status
  guid := a.guid.render
  queueUri := a.queueUri
  correlation := a.correlation

variable {p : ScriptedPush}

private theorem ScriptedPush.Expressible.goesWith (h : p.Expressible) :
    ∀ e ∈ p.properties.entries, Property.GoesWith e.2.1 e.2.2.code := by
  obtain ⟨w, hw⟩ := h.encodes
  obtain ⟨sent, hsent, -⟩ := Property.sent_of_encodeInto (w := .empty) p.properties.nodup_keys hw
  intro e he
  obtain ⟨f, -, hf⟩ := exists_of_forall₂ hsent e he
  obtain ⟨t, ht, htyped⟩ := Property.encodeValue_eq_ok_iff.mp hf.value
  exact Property.goesWith_iff.mpr ⟨t, f.2, ht, htyped⟩

private theorem ScriptedPush.Expressible.nodup_keys (h : p.Expressible) :
    (p.properties.entries.map fun e => textOf e.1).Nodup := by
  have hkeys := p.properties.nodup_keys
  have htexts : p.properties.entries.map (fun e => textOf e.1) =
      (p.properties.entries.map Prod.fst).map textOf := by
    rw [List.map_map]
    rfl
  rw [htexts]
  refine hkeys.map_on ?_
  intro a ha b hb heq
  obtain ⟨e, he, rfl⟩ := List.mem_map.mp ha
  obtain ⟨f, hf, rfl⟩ := List.mem_map.mp hb
  rw [← toUTF8_textOf (h.keys e he), heq, toUTF8_textOf (h.keys f hf)]

private theorem properties?_written (h : p.Expressible) :
    ScriptRecord.properties? (JsonValue.object (p.properties.entries.map (writtenEntry hex))).tree =
      some (p.properties.entries.map fun e => (textOf e.1, .of hex e.2)) := by
  have hkeys : (([] : List (String × WrittenProperty)).map Prod.fst ++
      (p.properties.entries.map fun e => (textOf e.1, WrittenProperty.of hex e.2)).map
        Prod.fst).Nodup := by
    rw [List.map_map]
    exact h.nodup_keys
  have htree : (JsonValue.object (p.properties.entries.map (writtenEntry hex))).tree =
      .object (p.properties.entries.map fun e =>
        (some (textOf e.1), (JsonValue.array [e.2.1.written hex, .integer e.2.2.code]).tree)) := by
    rw [JsonValue.tree, JsonValue.memberTrees_eq_map, List.map_map]
    rfl
  rw [htree, ScriptRecord.properties?,
    mapM_map_of_forall (k := fun e => (textOf e.1, WrittenProperty.of hex e.2)) fun e he => ?_]
  -- the texts of the keys differ as the keys do, so that each property keeps its place
  · exact congrArg some (foldl_upsert_of_nodup hkeys)
  · simp only [property?_written (h.goesWith e he)]
    rfl

private theorem push?_written (h : p.Expressible) :
    ScriptRecord.push? (p.written hex).tree = some (.of hex p) := by
  have hfields : (p.written hex).tree.fields? ["payload", "guid", "queue_uri", "properties"] =
      some [some (.string (some (textOf p.payload))), some (.string (some p.guid.render)),
        some (.string (some p.queueUri)),
        some (JsonValue.object (p.properties.entries.map (writtenEntry hex))).tree] := rfl
  rw [ScriptRecord.push?, hfields]
  simp only [Option.bind_eq_bind, Option.bind_some, JsonTree.text?, Option.map_some,
    Option.getD_some, properties?_written h]
  rfl

private theorem scriptedGuid_render (g : Guid) : scriptedGuid g.render = .ok g := by
  rw [scriptedGuid, Guid.ofHex?_render]

private theorem scriptedProperties_of (hhex : Hex.Writes hex) (h : p.Expressible) :
    scriptedProperties (p.properties.entries.map fun e => (textOf e.1, .of hex e.2)) =
      .ok p.properties := by
  unfold scriptedProperties
  rw [mapM_map_of_forall (k := id) fun e he => ?_, List.map_id]
  · exact congrArg Except.ok p.properties.ofList_entries
  · have hvalue := hostValue_of hhex (h.goesWith e he) (h.texts e he)
    simp only [hvalue, toUTF8_textOf (h.keys e he)]
    rfl

private theorem scripted_of (hhex : Hex.Writes hex) (h : p.Expressible) :
    (WrittenPush.of hex p).scripted = .ok p := by
  have hproperties : scriptedProperties (WrittenPush.of hex p).properties = .ok p.properties :=
    scriptedProperties_of hhex h
  have hguid : scriptedGuid (WrittenPush.of hex p).guid = .ok p.guid := scriptedGuid_render p.guid
  have hpayload : (WrittenPush.of hex p).payload.toUTF8 = p.payload := toUTF8_textOf h.payload
  rw [WrittenPush.scripted, hproperties, hguid, hpayload]
  obtain ⟨payload, guid, queueUri, properties, verbatim⟩ := p
  have hverbatim : verbatim = none := h.notVerbatim
  rw [hverbatim]
  rfl

private theorem ack?_written {a : ScriptedAck} (h : a.Expressible) :
    ScriptRecord.ack? a.written.tree = some (.of a) := by
  have hfields : a.written.tree.fields? ["status", "guid", "queue_uri", "correlation"] =
      some [some (JsonValue.integer a.status).tree, some (.string (some a.guid.render)),
        some (.string (some a.queueUri)), some (.string (some a.correlation.written))] := rfl
  have hstatus : (JsonValue.integer a.status).tree.signed? 32 = some a.status :=
    signed?_integer h.status (by decide)
  have htoken : ScriptRecord.correlation? (.string (some a.correlation.written)) =
      some a.correlation := by
    rcases h.token with htoken | htoken <;> rw [htoken] <;> rfl
  rw [ScriptRecord.ack?, hfields]
  simp only [Option.bind_eq_bind, Option.bind_some, JsonTree.text?, Option.map_some,
    Option.getD_some, hstatus, htoken]
  rfl

private theorem scripted_ofAck (a : ScriptedAck) : (WrittenAck.of a).scripted = .ok a := by
  have hguid : scriptedGuid (WrittenAck.of a).guid = .ok a.guid := scriptedGuid_render a.guid
  rw [WrittenAck.scripted, hguid]
  rfl

end Reading

/-! ## The line of a batch -/

namespace ScriptRecord

variable {items : List JsonTree}

theorem ofTree?_push {records : List WrittenPush} (h : items.mapM push? = some records) :
    ofTree? (.object [(some "push", .array items)]) = some (.push records) := by
  show (do return push (← items.mapM push?) : Option ScriptRecord) = _
  rw [h]
  rfl

private theorem ofTree?_ack {records : List WrittenAck} (h : items.mapM ack? = some records) :
    ofTree? (.object [(some "ack", .array items)]) = some (.ack records) := by
  show (do return ack (← items.mapM ack?) : Option ScriptRecord) = _
  rw [h]
  rfl

end ScriptRecord

namespace ScriptBatch

variable {batch : ScriptBatch} {hex : ByteArray → String}

private theorem Expressible.holds (hhex : Hex.Writes hex) (h : batch.Expressible) :
    ∃ record, ScriptRecord.ofTree? (batch.written hex).tree = some record ∧ record.Holds batch := by
  cases batch with
  | push batch =>
    have htree : (written hex (.push batch)).tree =
        .object [(some "push", .array (batch.map fun p => (p.written hex).tree))] := by
      show JsonTree.object [(some "push", .array (JsonValue.itemTrees _))] = _
      rw [JsonValue.itemTrees_eq_map, List.map_map]
      rfl
    refine ⟨.push (batch.map (.of hex)), ?_, .push ?_⟩
    · rw [htree]
      exact ScriptRecord.ofTree?_push (mapM_map_of_forall fun p hp => push?_written (h p hp))
    · refine List.forall₂_map_left_iff.mpr (List.forall₂_same.mpr fun p hp => ?_)
      exact scripted_of hhex (h p hp)
  | ack batch =>
    have htree : (written hex (.ack batch)).tree =
        .object [(some "ack", .array (batch.map fun a => a.written.tree))] := by
      show JsonTree.object [(some "ack", .array (JsonValue.itemTrees _))] = _
      rw [JsonValue.itemTrees_eq_map, List.map_map]
      rfl
    refine ⟨.ack (batch.map .of), ?_, .ack ?_⟩
    · rw [htree]
      exact ScriptRecord.ofTree?_ack (mapM_map_of_forall fun a ha => ack?_written (h a ha))
    · exact List.forall₂_map_left_iff.mpr (List.forall₂_same.mpr fun a _ => scripted_ofAck a)

private theorem not_isBlank_render (batch : ScriptBatch) (hex : ByteArray → String) :
    Text.isBlank (batch.written hex).render = false := by
  have hopen : ∃ cs, (batch.written hex).chars = '\x7b' :: cs := by
    cases batch <;> exact ⟨_, rfl⟩
  obtain ⟨cs, hcs⟩ := hopen
  rw [Text.isBlank, JsonValue.render, String.toList_ofList, hcs]
  rfl

/-- The line that is written of a batch holds the batch. -/
theorem Expressible.lineHolds (hhex : Hex.Writes hex) (h : batch.Expressible) :
    LineHolds (batch.written hex).render.toUTF8.data.toList (some batch) := by
  obtain ⟨record, hrecord, hholds⟩ := h.holds hhex
  refine .record ?_ (not_isBlank_render batch hex) ?_ hholds
  · rw [Array.toArray_toList]
    exact Property.fromUTF8?_bytes _
  · rw [ScriptRecord.ofLine?, JsonValue.parse?_render]
    exact hrecord

/-- A batch of messages or of acknowledgements that can be written is replayed by the line that is
written. Its text has no line end in it, and as a line of a file it holds the batch. Whatever the
text, if it is read as what was meant, the batch that is queued is the same, message by message,
and each message of it is sent with the properties that it had. -/
theorem written_line_replays (h : batch.Expressible) (hhex : Hex.Writes hex) :
    (JsonValue.Printable (batch.written hex).render.toList ∧
      JsonTree.parse? (batch.written hex).render = some (batch.written hex).tree ∧
      LineHolds (batch.written hex).render.toUTF8.data.toList (some batch)) ∧
    (∀ line, JsonTree.parse? line = some (batch.written hex).tree →
      (∃ record, ScriptRecord.ofLine? line = some record ∧ record.Holds batch) ∧
      ∀ e : Script, e.addLine line = .ok (e.extend batch.alone)) ∧
    ∀ messages, batch = .push messages → ∀ p ∈ messages,
      ∃ w, Property.encode p.properties = .ok w ∧ p.wire = .ok w := by
  refine ⟨⟨?_, JsonValue.parse?_render _, h.lineHolds hhex⟩, fun line hline => ?_, ?_⟩
  · rw [JsonValue.render, String.toList_ofList]
    exact JsonValue.printable_chars _
  · obtain ⟨record, hrecord, hholds⟩ := h.holds hhex
    have hline : ScriptRecord.ofLine? line = some record := by
      rw [ScriptRecord.ofLine?, hline]
      exact hrecord
    exact ⟨⟨record, hline, hholds⟩,
      fun e => Script.addLine_eq_ok_iff.mpr ⟨record, batch, hline, hholds, rfl⟩⟩
  · rintro messages rfl p hp
    obtain ⟨w, hw⟩ := (h p hp).encodes
    refine ⟨w, hw, ?_⟩
    rw [ScriptedPush.wire, (h p hp).notVerbatim]
    exact hw

def variedPush : ScriptedPush where
  payload := "line\n\"é\"".toUTF8
  guid := ⟨⟨#[0, 1, 2, 3, 4, 5, 6, 7, 8, 9, 10, 11, 12, 13, 14, 255]⟩, rfl⟩
  queueUri := "bmq://d/q"
  properties := .ofList [("b".toUTF8, .bool true, .ofType .bool),
    ("c".toUTF8, .bytes ⟨#[0xFF]⟩, .ofType .char),
    ("s".toUTF8, .int (-32768), .ofType .short),
    ("i".toUTF8, .int 2147483647, .ofType .int32),
    ("least".toUTF8, .int (-9223372036854775808), .ofType .int64),
    ("most".toUTF8, .int 9223372036854775807, .ofType .int64),
    ("é".toUTF8, .str "\x00\\", .ofType .string),
    ("d".toUTF8, .bytes ⟨#[0x00, 0xC3]⟩, .ofType .binary)]

private theorem expressible_variedPush : variedPush.Expressible where
  payload := by decide +kernel
  encodes := by
    have hencode : (Property.encode variedPush.properties).toOption.isSome = true := by
      decide +kernel
    cases h : Property.encode variedPush.properties with
    | error e =>
      rw [h] at hencode
      cases hencode
    | ok w => exact ⟨w, rfl⟩
  keys := by decide +kernel
  texts := by decide +kernel
  notVerbatim := rfl

def variedMessages : ScriptBatch := .push [variedPush]

private theorem expressible_variedMessages : variedMessages.Expressible :=
  List.forall_mem_singleton.mpr expressible_variedPush

def variedAcks : ScriptBatch :=
  .ack [⟨-2147483648, .zero, "bmq://d/q", .posted⟩, ⟨2147483647, .zero, "é", .unset⟩]

private theorem expressible_variedAcks : variedAcks.Expressible := by
  refine List.forall_mem_cons.mpr ⟨⟨by decide, .inl rfl⟩, ?_⟩
  exact List.forall_mem_singleton.mpr ⟨by decide, .inr rfl⟩

theorem written_line_replays_varied :
    (variedMessages.Expressible ∧ Script.addLine {} (variedMessages.written Hex.lower).render =
      .ok { push := [[variedPush]] }) ∧
    (variedAcks.Expressible ∧ Script.addLine {} (variedAcks.written Hex.upper).render =
      .ok (Script.extend {} variedAcks.alone)) :=
  have hpush := written_line_replays expressible_variedMessages Hex.writes_lower
  have hack := written_line_replays expressible_variedAcks Hex.writes_upper
  ⟨⟨expressible_variedMessages, (hpush.2.1 _ (JsonValue.parse?_render _)).2 {}⟩,
    expressible_variedAcks, (hack.2.1 _ (JsonValue.parse?_render _)).2 {}⟩

end ScriptBatch

end BrokerBridge
