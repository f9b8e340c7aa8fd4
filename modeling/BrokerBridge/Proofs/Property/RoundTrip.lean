import Mathlib.Data.List.Forall2
import Mathlib.Data.List.Nodup
import BrokerBridge.Property.Codec

/-!
# What comes back of properties that were sent

A set that is encoded reaches the wire entry by entry, and is read back entry by entry. Only bytes
that are sent as text come back as something else: as the text they are, or not at all.
-/

namespace BrokerBridge

def IntWidth.type : IntWidth → PropertyType
  | short => .short
  | int32 => .int32
  | int64 => .int64

namespace Property

/-! ## Values and their types -/

/-- The values that go with a type, and what each is sent as. -/
inductive Typed : HostValue → PropertyType → WireValue → Prop where
  | bool (flag : Bool) : Typed (.bool flag) .bool (.bool flag)
  | char (byte : UInt8) : Typed (.bytes ⟨#[byte]⟩) .char (.char byte)
  | int (width : IntWidth) (n : Int) (hmin : width.min ≤ n) (hmax : n ≤ width.max) :
      Typed (.int n) width.type (width.wire n)
  | text (text : String) : Typed (.str text) .string (.string text.toUTF8)
  | textBytes (data : ByteArray) : Typed (.bytes data) .string (.string data)
  | binary (data : ByteArray) : Typed (.bytes data) .binary (.binary data)

private theorem typed_of_narrow {key : ByteArray} {width : IntWidth} {value : HostValue}
    {wire : WireValue} (h : narrow key width value = .ok wire) : Typed value width.type wire := by
  unfold narrow at h
  split at h
  · next n =>
    split at h
    · next hn =>
      cases h
      exact .int width n hn.1 hn.2
    · cases h
  · cases h

private theorem narrow_of_typed {width : IntWidth} {n : Int} (hmin : width.min ≤ n)
    (hmax : n ≤ width.max)
    (key : ByteArray) : narrow key width (.int n) = .ok (width.wire n) :=
  if_pos ⟨hmin, hmax⟩

theorem eq_ofType_of_type? {tag : PropertyTag} {t : PropertyType} (h : tag.type? = some t) :
    tag = .ofType t := by
  cases tag
  exact congrArg PropertyTag.mk (PropertyType.code_of_ofCode? h).symm

/-- A value is encoded exactly if its tag declares a type that it goes with. -/
theorem encodeValue_eq_ok_iff {key : ByteArray} {value : HostValue} {tag : PropertyTag}
    {wire : WireValue} :
    encodeValue key value tag = .ok wire ↔ ∃ t, tag = .ofType t ∧ Typed value t wire := by
  constructor
  · intro h
    unfold encodeValue at h
    split at h
    case h_3 htag =>
      cases h
      exact ⟨_, eq_ofType_of_type? htag, .bool _⟩
    case h_5 data htag =>
      split at h
      · next hsize =>
        cases h
        obtain ⟨⟨l⟩⟩ := data
        obtain ⟨byte, rfl⟩ := List.length_eq_one_iff.mp hsize
        exact ⟨_, eq_ofType_of_type? htag, .char byte⟩
      · cases h
    case h_7 htag => exact ⟨_, eq_ofType_of_type? htag, typed_of_narrow h⟩
    case h_8 htag => exact ⟨_, eq_ofType_of_type? htag, typed_of_narrow h⟩
    case h_9 htag => exact ⟨_, eq_ofType_of_type? htag, typed_of_narrow h⟩
    case h_10 htag =>
      cases h
      exact ⟨_, eq_ofType_of_type? htag, .text _⟩
    case h_11 htag =>
      cases h
      exact ⟨_, eq_ofType_of_type? htag, .textBytes _⟩
    case h_13 htag =>
      cases h
      exact ⟨_, eq_ofType_of_type? htag, .binary _⟩
    -- the tag names no type, or one that the value does not go with
    all_goals cases h
  · rintro ⟨t, rfl, h⟩
    cases h with
    | int width n hmin hmax =>
      have hnarrow := narrow_of_typed hmin hmax key
      cases width <;> simpa [encodeValue, IntWidth.type] using hnarrow
    | char byte =>
      simp only [encodeValue, PropertyTag.type?_ofType]
      exact dif_pos rfl
    | bool | text | textBytes | binary => simp [encodeValue]

/-! ## Entry by entry -/

structure Sent (e : ByteArray × HostValue × PropertyTag) (f : ByteArray × WireValue) : Prop where
  key : f.1 = e.1
  named : e.1.isEmpty = false
  value : encodeValue e.1 e.2.1 e.2.2 = .ok f.2

private theorem keys_of_sent {l : List (ByteArray × HostValue × PropertyTag)}
    {sent : List (ByteArray × WireValue)} (h : List.Forall₂ Sent l sent) :
    sent.map Prod.fst = l.map Prod.fst := by
  induction h with
  | nil => rfl
  | cons he _ ih => rw [List.map_cons, List.map_cons, he.key, ih]

theorem set_eq {w : WireProperties} {key : ByteArray} (value : WireValue)
    (hnamed : key.isEmpty = false) (hnew : key ∉ w.entries.map Prod.fst) :
    w.set key value = (Code.success, ⟨w.entries ++ [(key, value)]⟩) := by
  simp [WireProperties.set, hnamed, upsert_of_notMem hnew]

/-- Encoding succeeds only entry by entry, and keeps what the container holds already. -/
theorem sent_of_encodeInto {w w' : WireProperties}
    {l : List (ByteArray × HostValue × PropertyTag)}
    (hkeys : (w.entries.map Prod.fst ++ l.map Prod.fst).Nodup) (h : encodeInto w l = .ok w') :
    ∃ sent, List.Forall₂ Sent l sent ∧ w'.entries = w.entries ++ sent := by
  induction l generalizing w with
  | nil =>
    cases h
    exact ⟨[], .nil, (List.append_nil _).symm⟩
  | cons e rest ih =>
    obtain ⟨key, value, tag⟩ := e
    unfold encodeInto at h
    split at h
    · cases h
    · next wire hwire =>
      by_cases hnamed : key.isEmpty
      · -- the container refuses an entry without a name
        simp [WireProperties.set, hnamed, Code.invalidArgument, Code.success] at h
      · have hnew : key ∉ w.entries.map Prod.fst := by
          intro hmem
          exact (List.nodup_append.mp hkeys).2.2 key hmem key List.mem_cons_self rfl
        rw [set_eq wire (by simpa using hnamed) hnew] at h
        simp only [if_true] at h
        have hkeys' : ((w.entries ++ [(key, wire)]).map Prod.fst ++ rest.map Prod.fst).Nodup := by
          simpa using hkeys
        obtain ⟨sent, hsent, hentries⟩ := ih hkeys' h
        refine ⟨(key, wire) :: sent, .cons ⟨rfl, by simpa using hnamed, hwire⟩ hsent, ?_⟩
        simpa using hentries

def readEntry (f : ByteArray × WireValue) : Except DecodeError (HostValue × PropertyTag) :=
  (decodeValue f.1 f.2).map fun r => (r.1, .ofType r.2)

def entryRead? (f : ByteArray × WireValue) : Option (ByteArray × HostValue × PropertyTag) :=
  (readEntry f).toOption.map (f.1, ·)

def entrySkipped? (f : ByteArray × WireValue) : Option DecodeError :=
  match readEntry f with
  | .ok _ => none
  | .error e => some e

theorem decodeInto_cons (s : PropertySet) (f : ByteArray × WireValue)
    (rest : List (ByteArray × WireValue)) :
    decodeInto s (f :: rest) =
      match readEntry f with
      | .ok e => decodeInto (s.insert f.1 e) rest
      | .error e => ((decodeInto s rest).1, e :: (decodeInto s rest).2) := by
  simp only [decodeInto, readEntry]
  cases decodeValue f.1 f.2 <;> rfl

private theorem decodeInto_eq_foldl (s : PropertySet) (l : List (ByteArray × WireValue)) :
    decodeInto s l =
      ((l.filterMap entryRead?).foldl (fun t e => t.insert e.1 e.2) s,
        l.filterMap entrySkipped?) := by
  induction l generalizing s with
  | nil => rfl
  | cons f rest ih =>
    rw [decodeInto_cons]
    cases hread : readEntry f with
    | ok e =>
      have hread? : entryRead? f = some (f.1, e) := by simp [entryRead?, hread, Except.toOption]
      have hskipped? : entrySkipped? f = none := by simp [entrySkipped?, hread]
      rw [List.filterMap_cons_some hread?, List.filterMap_cons_none hskipped?]
      exact ih _
    | error e =>
      have hread? : entryRead? f = none := by simp [entryRead?, hread, Except.toOption]
      have hskipped? : entrySkipped? f = some e := by simp [entrySkipped?, hread]
      rw [List.filterMap_cons_none hread?, List.filterMap_cons_some hskipped?, ih]

/-- What can be read of a container is read, and the rest is skipped, both in its order. -/
theorem decode_eq (w : WireProperties) :
    decode w =
      (.ofList (w.entries.filterMap entryRead?), w.entries.filterMap entrySkipped?) :=
  decodeInto_eq_foldl ..

private theorem keys_read_sublist (l : List (ByteArray × WireValue)) :
    ((l.filterMap entryRead?).map Prod.fst).Sublist (l.map Prod.fst) := by
  induction l with
  | nil => exact .slnil
  | cons f rest ih =>
    cases hread? : entryRead? f with
    | none =>
      rw [List.filterMap_cons_none hread?]
      exact ih.cons f.1
    | some e =>
      have hkey : e.1 = f.1 := by
        obtain ⟨_, _, rfl⟩ := Option.map_eq_some_iff.mp hread?
        rfl
      rw [List.filterMap_cons_some hread?, List.map_cons, List.map_cons, hkey]
      exact ih.cons_cons f.1

/-- Decoding reads entry by entry, and keeps what the set holds already. -/
theorem decodeInto_eq {s : PropertySet} {l : List (ByteArray × WireValue)}
    (hkeys : (s.entries.map Prod.fst ++ l.map Prod.fst).Nodup) :
    (decodeInto s l).1.entries = s.entries ++ l.filterMap entryRead? ∧
      (decodeInto s l).2 = l.filterMap entrySkipped? := by
  rw [decodeInto_eq_foldl]
  refine ⟨(OrderedMap.entries_foldl_insert ..).trans
    (foldl_upsert_of_nodup (hkeys.sublist ?_)), rfl⟩
  exact List.Sublist.append_left (keys_read_sublist l) _

/-! ## There and back -/

/-- What comes back of a value with its tag: bytes sent as text come back as the text that has
these bytes, if there is one. -/
def returned? : HostValue × PropertyTag → Option (HostValue × PropertyTag)
  | (.bytes data, tag) =>
      if tag = .ofType .string then (String.fromUTF8? data).map fun text => (.str text, tag)
      else some (.bytes data, tag)
  | e => some e

theorem fromUTF8?_bytes (text : String) : String.fromUTF8? text.toUTF8 = some text := by
  have hvalid : text.toUTF8.IsValidUTF8 := text.isValidUTF8
  rw [String.fromUTF8?, dif_pos hvalid]
  rfl

private theorem decodeValue_wire {width : IntWidth} {n : Int} (hmin : width.min ≤ n)
    (hmax : n ≤ width.max)
    (key : ByteArray) : decodeValue key (width.wire n) = .ok (.int n, width.type) := by
  cases width with
  | short =>
    have hback : (Int16.ofInt n).toInt = n :=
      Int16.toInt_ofInt_of_le hmin (Int.lt_of_le_of_lt hmax (by decide))
    simp [IntWidth.wire, decodeValue, IntWidth.type, hback]
  | int32 =>
    have hback : (Int32.ofInt n).toInt = n :=
      Int32.toInt_ofInt_of_le hmin (Int.lt_of_le_of_lt hmax (by decide))
    simp [IntWidth.wire, decodeValue, IntWidth.type, hback]
  | int64 =>
    have hback : (Int64.ofInt n).toInt = n :=
      Int64.toInt_ofInt_of_le hmin (Int.lt_of_le_of_lt hmax (by decide))
    simp [IntWidth.wire, decodeValue, IntWidth.type, hback]

private theorem readEntry_of_typed {value : HostValue} {t : PropertyType} {wire : WireValue}
    (h : Typed value t wire) (key : ByteArray) :
    readEntry (key, wire) =
      match returned? (value, .ofType t) with
      | some r => .ok r
      | none => .error (.nonUtf8String key) := by
  cases h with
  | bool | char | binary => rfl
  | int width n hmin hmax =>
    rw [readEntry, decodeValue_wire hmin hmax]
    rfl
  | text text =>
    rw [readEntry, decodeValue, fromUTF8?_bytes]
    rfl
  | textBytes data =>
    rw [readEntry, decodeValue, returned?, if_pos rfl]
    cases String.fromUTF8? data <;> rfl

private theorem readEntry_of_sent {e : ByteArray × HostValue × PropertyTag}
    {f : ByteArray × WireValue}
    (h : Sent e f) :
    readEntry f =
      match returned? e.2 with
      | some r => .ok r
      | none => .error (.nonUtf8String e.1) := by
  obtain ⟨key, value, tag⟩ := e
  obtain ⟨key', wire⟩ := f
  obtain ⟨rfl, -, hvalue⟩ := h
  obtain ⟨t, rfl, htyped⟩ := encodeValue_eq_ok_iff.mp hvalue
  exact readEntry_of_typed htyped key'

private theorem entryRead?_of_sent {e : ByteArray × HostValue × PropertyTag}
    {f : ByteArray × WireValue}
    (h : Sent e f) : entryRead? f = (returned? e.2).map (e.1, ·) := by
  rw [entryRead?, readEntry_of_sent h, h.key]
  cases returned? e.2 <;> rfl

private theorem entrySkipped?_of_sent {e : ByteArray × HostValue × PropertyTag}
    {f : ByteArray × WireValue} (h : Sent e f) :
    entrySkipped? f = if (returned? e.2).isNone then some (.nonUtf8String e.1) else none := by
  rw [entrySkipped?, readEntry_of_sent h]
  cases returned? e.2 <;> rfl

private theorem read_of_sent {l : List (ByteArray × HostValue × PropertyTag)}
    {sent : List (ByteArray × WireValue)} (h : List.Forall₂ Sent l sent) :
    sent.filterMap entryRead? = l.filterMap (fun e => (returned? e.2).map (e.1, ·)) ∧
      sent.filterMap entrySkipped? =
        (l.filter fun e => (returned? e.2).isNone).map fun e => .nonUtf8String e.1 := by
  induction h with
  | nil => exact ⟨rfl, rfl⟩
  | @cons e f l sent he _ ih =>
    simp only [List.filterMap_cons, List.filter_cons, entryRead?_of_sent he,
      entrySkipped?_of_sent he, ih.1, ih.2, true_and]
    cases returned? e.2 <;> rfl

theorem returned?_eq_self {e : HostValue × PropertyTag}
    (h : e.2 = .ofType .string → ∀ data, e.1 ≠ .bytes data) : returned? e = some e := by
  obtain ⟨value, tag⟩ := e
  cases value with
  | bytes data =>
    have htag : tag ≠ .ofType .string := fun ht => h ht data rfl
    exact if_neg htag
  | bool | int | str => rfl

/-- What a set is sent as lists its entries in their order under their keys and tags, each with its
value; but bytes that were sent as text come back as the text they are, or they are lost with one
error that names their key. A set that sends no bytes as text comes back as it is. -/
theorem decode_of_encode {s : PropertySet} {w : WireProperties} (h : encode s = .ok w) :
    (decode w).1.entries = s.entries.filterMap (fun e => (returned? e.2).map (e.1, ·)) ∧
    (decode w).2 =
      (s.entries.filter fun e => (returned? e.2).isNone).map (fun e => .nonUtf8String e.1) ∧
    ((∀ e ∈ s.entries, e.2.2 = .ofType .string → ∀ data, e.2.1 ≠ .bytes data) →
      decode w = (s, [])) := by
  -- encoding and decoding meet at the entries that are sent
  obtain ⟨sent, hsent, hentries⟩ := sent_of_encodeInto (w := .empty) s.nodup_keys h
  have hw : w.entries = sent := hentries
  have hkeys : (w.entries.map Prod.fst).Nodup := by
    rw [hw, keys_of_sent hsent]
    exact s.nodup_keys
  obtain ⟨hread, hskipped⟩ := decodeInto_eq (s := .empty) hkeys
  obtain ⟨hback, hlost⟩ := read_of_sent hsent
  have hset : (decode w).1.entries =
      s.entries.filterMap (fun e => (returned? e.2).map (e.1, ·)) := by
    rw [← hback, ← hw]
    exact hread
  have herrors : (decode w).2 =
      (s.entries.filter fun e => (returned? e.2).isNone).map (fun e => .nonUtf8String e.1) := by
    rw [← hlost, ← hw]
    exact hskipped
  refine ⟨hset, herrors, fun hplain => ?_⟩
  have hself : ∀ e ∈ s.entries, returned? e.2 = some e.2 :=
    fun e he => returned?_eq_self (hplain e he)
  have hall : s.entries.filterMap (fun e => (returned? e.2).map (e.1, ·)) = s.entries := by
    calc s.entries.filterMap (fun e => (returned? e.2).map (e.1, ·))
      _ = s.entries.filterMap some := List.filterMap_congr fun e he => by rw [hself e he]; rfl
      _ = s.entries := List.filterMap_some
  have hnone : (s.entries.filter fun e => (returned? e.2).isNone) = [] := by
    rw [List.filter_eq_nil_iff]
    intro e he
    simp [hself e he]
  refine Prod.ext (OrderedMap.ext ?_) ?_
  · rw [hset, hall]
  · rw [herrors, hnone, List.map_nil]

def mixedSet : PropertySet :=
  .ofList [(⟨#[0x61]⟩, .int (-9223372036854775808), .ofType .int64),
    (⟨#[0x62]⟩, .bytes ⟨#[0xC3, 0xA9]⟩, .ofType .string),
    (⟨#[0x63]⟩, .bytes ⟨#[0xC3]⟩, .ofType .string),
    (⟨#[0xFF]⟩, .bytes ⟨#[0xC3]⟩, .ofType .char),
    (⟨#[0x64]⟩, .int 32767, .ofType .short)]

theorem decode_of_encode_mixed : ∃ w, encode mixedSet = .ok w ∧
    (decode w).1.entries =
      [(⟨#[0x61]⟩, .int (-9223372036854775808), .ofType .int64),
        (⟨#[0x62]⟩, .str "é", .ofType .string),
        (⟨#[0xFF]⟩, .bytes ⟨#[0xC3]⟩, .ofType .char),
        (⟨#[0x64]⟩, .int 32767, .ofType .short)] ∧
    (decode w).2 = [.nonUtf8String ⟨#[0x63]⟩] := by
  have hencode : (encode mixedSet).toOption.isSome = true := by decide +kernel
  cases h : encode mixedSet with
  | error e =>
    rw [h] at hencode
    cases hencode
  | ok w =>
    obtain ⟨hset, herrors, _⟩ := decode_of_encode h
    refine ⟨w, rfl, hset.trans ?_, herrors.trans ?_⟩
    · decide +kernel
    · decide +kernel

end Property

end BrokerBridge
