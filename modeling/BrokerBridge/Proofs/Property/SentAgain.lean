import BrokerBridge.Proofs.Property.RoundTrip

/-!
# Properties that are read and sent again

A container holds what its setters stored, whatever it was. The entries that the host has a value
for are read in their order and are sent again as they were; each of the others is one error.
-/

namespace BrokerBridge

/-- The host has a value for all but bytes that are no text and types it does not know. -/
def WireValue.isReadable : WireValue → Bool
  | string data => (String.fromUTF8? data).isSome
  | unrecognized _ => false
  | bool _ | char _ | short _ | int32 _ | int64 _ | binary _ => true

namespace WireProperties

structure Named (w : WireProperties) : Prop where
  nodup : (w.entries.map Prod.fst).Nodup
  named : ∀ f ∈ w.entries, f.1.isEmpty = false

theorem named_empty : empty.Named := ⟨List.nodup_nil, nofun⟩

private theorem Named.set {w : WireProperties} (hw : w.Named) (key : ByteArray)
    (value : WireValue) :
    (w.set key value).2.Named := by
  unfold WireProperties.set
  split
  · exact hw
  · next hkey =>
    have hkey : key.isEmpty = false := by simpa using hkey
    refine ⟨nodup_keys_upsert hw.nodup, fun f hf => ?_⟩
    rcases mem_keys_upsert.mp (List.mem_map_of_mem (f := Prod.fst) hf) with hnew | hold
    · rw [hnew]
      exact hkey
    · obtain ⟨g, hg, heq⟩ := List.mem_map.mp hold
      rw [← heq]
      exact hw.named g hg

theorem Named.setAll {w : WireProperties} (hw : w.Named) (l : List (ByteArray × WireValue)) :
    (w.setAll l).2.Named := by
  induction l generalizing w with
  | nil => exact hw
  | cons e rest ih => exact ih (hw.set e.1 e.2)

end WireProperties

namespace Property

/-! ## What a wire value means -/

/-- What a wire value says to the host, and as which type. -/
inductive Says : WireValue → HostValue → PropertyType → Prop where
  | bool (flag : Bool) : Says (.bool flag) (.bool flag) .bool
  | char (byte : UInt8) : Says (.char byte) (.bytes ⟨#[byte]⟩) .char
  | short (n : Int16) : Says (.short n) (.int n.toInt) .short
  | int32 (n : Int32) : Says (.int32 n) (.int n.toInt) .int32
  | int64 (n : Int64) : Says (.int64 n) (.int n.toInt) .int64
  | string (text : String) : Says (.string text.toUTF8) (.str text) .string
  | binary (data : ByteArray) : Says (.binary data) (.bytes data) .binary

/-- Why a wire value under a key says nothing to the host. -/
inductive Silent (key : ByteArray) : WireValue → DecodeError → Prop where
  | noText (data : ByteArray) (invalid : ¬data.IsValidUTF8) :
      Silent key (.string data) (.nonUtf8String key)
  | unknown (typeCode : Int) :
      Silent key (.unrecognized typeCode) (.unrecognizedType key typeCode)

private theorem says_string_of_fromUTF8? {data : ByteArray} {text : String}
    (h : String.fromUTF8? data = some text) : Says (.string data) (.str text) .string := by
  unfold String.fromUTF8? at h
  split at h
  · cases h
    exact .string (String.ofByteArray data _)
  · cases h

private theorem not_isValidUTF8_of_fromUTF8? {data : ByteArray} (h : String.fromUTF8? data = none) :
    ¬data.IsValidUTF8 := by
  intro hvalid
  rw [String.fromUTF8?, dif_pos hvalid] at h
  cases h

private theorem readEntry_cases (f : ByteArray × WireValue) :
    (∃ value t, f.2.isReadable = true ∧ Says f.2 value t ∧
      readEntry f = .ok (value, .ofType t)) ∨
    ∃ e, f.2.isReadable = false ∧ Silent f.1 f.2 e ∧ readEntry f = .error e := by
  obtain ⟨key, wire⟩ := f
  cases wire with
  | bool flag => exact .inl ⟨_, _, rfl, .bool flag, rfl⟩
  | char byte => exact .inl ⟨_, _, rfl, .char byte, rfl⟩
  | short n => exact .inl ⟨_, _, rfl, .short n, rfl⟩
  | int32 n => exact .inl ⟨_, _, rfl, .int32 n, rfl⟩
  | int64 n => exact .inl ⟨_, _, rfl, .int64 n, rfl⟩
  | binary data => exact .inl ⟨_, _, rfl, .binary data, rfl⟩
  | unrecognized typeCode => exact .inr ⟨_, rfl, .unknown typeCode, rfl⟩
  | string data =>
    cases htext : String.fromUTF8? data with
    | some text =>
      refine .inl ⟨.str text, .string, ?_, says_string_of_fromUTF8? htext, ?_⟩
      · simp [WireValue.isReadable, htext]
      · simp [readEntry, decodeValue, htext, Except.map]
    | none =>
      refine .inr ⟨.nonUtf8String key, ?_, .noText data (not_isValidUTF8_of_fromUTF8? htext), ?_⟩
      · simp [WireValue.isReadable, htext]
      · simp [readEntry, decodeValue, htext, Except.map]

/-- What a wire value says goes with its type, and is sent as that wire value. -/
theorem Says.typed {wire : WireValue} {value : HostValue} {t : PropertyType}
    (h : Says wire value t) : Typed value t wire := by
  cases h with
  | bool flag => exact .bool flag
  | char byte => exact .char byte
  | string text => exact .text text
  | binary data => exact .binary data
  | short n =>
    have hsent : IntWidth.short.wire n.toInt = .short n := by simp [IntWidth.wire]
    rw [← hsent]
    exact .int .short n.toInt n.le_toInt (Int.le_of_lt_add_one n.toInt_lt)
  | int32 n =>
    have hsent : IntWidth.int32.wire n.toInt = .int32 n := by simp [IntWidth.wire]
    rw [← hsent]
    exact .int .int32 n.toInt n.le_toInt (Int.le_of_lt_add_one n.toInt_lt)
  | int64 n =>
    have hsent : IntWidth.int64.wire n.toInt = .int64 n := by simp [IntWidth.wire]
    rw [← hsent]
    exact .int .int64 n.toInt n.le_toInt (Int.le_of_lt_add_one n.toInt_lt)

/-! ## Entry by entry -/

structure Read (f : ByteArray × WireValue) (e : ByteArray × HostValue × PropertyTag) : Prop where
  key : e.1 = f.1
  value : ∃ t, Says f.2 e.2.1 t ∧ e.2.2 = .ofType t

private theorem Read.sent {f : ByteArray × WireValue} {e : ByteArray × HostValue × PropertyTag}
    (h : Read f e) (hnamed : f.1.isEmpty = false) : Sent e f := by
  obtain ⟨t, hsays, htag⟩ := h.value
  exact ⟨h.key.symm, by rw [h.key]; exact hnamed, encodeValue_eq_ok_iff.mpr ⟨t, htag, hsays.typed⟩⟩

/-- The entries that say something are read, the others are skipped, both in their order. -/
theorem read_and_skipped (l : List (ByteArray × WireValue)) :
    List.Forall₂ Read (l.filter (·.2.isReadable)) (l.filterMap entryRead?) ∧
      List.Forall₂ (fun f => Silent f.1 f.2) (l.filter (!·.2.isReadable))
        (l.filterMap entrySkipped?) := by
  induction l with
  | nil => exact ⟨.nil, .nil⟩
  | cons f rest ih =>
    obtain ⟨hread, hskipped⟩ := ih
    rcases readEntry_cases f with ⟨value, t, hreadable, hsays, hentry⟩ | ⟨e, hreadable, he, hentry⟩
    · have hread? : entryRead? f = some (f.1, value, .ofType t) := by
        simp [entryRead?, hentry, Except.toOption]
      have hskipped? : entrySkipped? f = none := by simp [entrySkipped?, hentry]
      rw [List.filterMap_cons_some hread?, List.filterMap_cons_none hskipped?,
        List.filter_cons_of_pos (by simpa using hreadable),
        List.filter_cons_of_neg (by simpa using hreadable)]
      exact ⟨.cons ⟨rfl, t, hsays, rfl⟩ hread, hskipped⟩
    · have hread? : entryRead? f = none := by simp [entryRead?, hentry, Except.toOption]
      have hskipped? : entrySkipped? f = some e := by simp [entrySkipped?, hentry]
      rw [List.filterMap_cons_none hread?, List.filterMap_cons_some hskipped?,
        List.filter_cons_of_neg (by simpa using hreadable),
        List.filter_cons_of_pos (by simpa using hreadable)]
      exact ⟨hread, .cons he hskipped⟩

private theorem sent_of_read {l : List (ByteArray × WireValue)}
    {read : List (ByteArray × HostValue × PropertyTag)} (h : List.Forall₂ Read l read)
    (hnamed : ∀ f ∈ l, f.1.isEmpty = false) : List.Forall₂ Sent read l := by
  induction h with
  | nil => exact .nil
  | cons hf _ ih =>
    refine .cons (hf.sent (hnamed _ (List.mem_cons_self ..))) (ih fun f hf => ?_)
    exact hnamed f (List.mem_cons_of_mem _ hf)

private theorem encodeInto_of_sent {w : WireProperties}
    {l : List (ByteArray × HostValue × PropertyTag)}
    {sent : List (ByteArray × WireValue)} (h : List.Forall₂ Sent l sent)
    (hkeys : (w.entries.map Prod.fst ++ sent.map Prod.fst).Nodup) :
    encodeInto w l = .ok ⟨w.entries ++ sent⟩ := by
  induction h generalizing w with
  | nil => simp [encodeInto]
  | @cons e f l sent he _ ih =>
    obtain ⟨key, value, tag⟩ := e
    obtain ⟨key', wire⟩ := f
    obtain ⟨hkey, hnamed, hvalue⟩ := he
    cases hkey
    have hnew : key ∉ w.entries.map Prod.fst := by
      intro hmem
      exact (List.nodup_append.mp hkeys).2.2 key hmem key (List.mem_cons_self ..) rfl
    have hkeys' : ((w.entries ++ [(key, wire)]).map Prod.fst ++ sent.map Prod.fst).Nodup := by
      simpa using hkeys
    simp only [encodeInto, hvalue, set_eq wire hnamed hnew, if_true]
    rw [ih hkeys', List.append_assoc]
    rfl

/-! ## Back and there -/

/-- Whatever the setters stored: reading lists in their order the entries that the host has a value
for, with one error for each of the others, which says why. Sending what was read again gives the
container without those others, hence the container itself where nothing was skipped. -/
theorem encode_of_decode (l : List (ByteArray × WireValue)) :
    let w := WireProperties.ofList l
    List.Forall₂ Read (w.entries.filter (·.2.isReadable)) (decode w).1.entries ∧
    List.Forall₂ (fun f => Silent f.1 f.2) (w.entries.filter (!·.2.isReadable)) (decode w).2 ∧
    encode (decode w).1 = .ok ⟨w.entries.filter (·.2.isReadable)⟩ ∧
    ((decode w).2 = [] → encode (decode w).1 = .ok w) := by
  intro w
  have hw : w.Named := WireProperties.named_empty.setAll l
  obtain ⟨hset, herrors⟩ := decodeInto_eq (s := .empty) hw.nodup
  obtain ⟨hread, hskipped⟩ := read_and_skipped w.entries
  have hset : (decode w).1.entries = w.entries.filterMap entryRead? := hset
  have herrors : (decode w).2 = w.entries.filterMap entrySkipped? := herrors
  rw [← hset] at hread
  rw [← herrors] at hskipped
  have hagain : encode (decode w).1 = .ok ⟨w.entries.filter (·.2.isReadable)⟩ := by
    have hsent := sent_of_read hread fun f hf => hw.named f (List.mem_of_mem_filter hf)
    have hkeys : ((w.entries.filter (·.2.isReadable)).map Prod.fst).Nodup :=
      hw.nodup.sublist (List.filter_sublist.map _)
    exact encodeInto_of_sent hsent hkeys
  refine ⟨hread, hskipped, hagain, fun hnone => ?_⟩
  rw [hnone] at hskipped
  have hall : ∀ f ∈ w.entries, f.2.isReadable = true := by
    have hempty := List.forall₂_nil_right_iff.mp hskipped
    simpa [List.filter_eq_nil_iff] using hempty
  rw [hagain, List.filter_eq_self.mpr hall]

example : let w := WireProperties.ofList [(⟨#[0x61]⟩, .int32 5), (⟨#[0x62]⟩, .unrecognized 9),
      (⟨#[]⟩, .bool true), (⟨#[0x63]⟩, .string ⟨#[0xC3, 0x28]⟩), (⟨#[0x61]⟩, .short (-1)),
      (⟨#[0x64]⟩, .string ⟨#[0xC3, 0xA9]⟩)]
    (decode w).2 = [.unrecognizedType ⟨#[0x62]⟩ 9, .nonUtf8String ⟨#[0x63]⟩] ∧
    (encode (decode w).1).toOption =
      some ⟨[(⟨#[0x61]⟩, .short (-1)), (⟨#[0x64]⟩, .string ⟨#[0xC3, 0xA9]⟩)]⟩ := by
  decide +kernel

end Property

end BrokerBridge
