import Mathlib.Data.List.Induction
import BrokerBridge.Proofs.Property.Offences

/-!
# Sets made of values and overrides

A set that is made of values holds each key once, in the place where it comes first and with the
value that comes last. An override retags a key that is there, and the last one for the key holds.
What is tagged by the shapes of the values alone is sent unless a number is too large for its type
or a key is empty.
-/

namespace BrokerBridge

/-! ## Maps made of lists -/

section Lists

variable {κ α β : Type} [DecidableEq κ]

/-- What a list says of a key in the end. -/
def lastOf? (l : List (κ × α)) (k : κ) : Option α := l.reverse.lookup k

/-- The keys of a list, each once and where it comes first. -/
def firstKeys (l : List (κ × α)) : List κ := (l.map Prod.fst).eraseDups

private theorem mem_firstKeys {l : List (κ × α)} {k : κ} : k ∈ firstKeys l ↔ k ∈ l.map Prod.fst :=
  List.mem_eraseDups

theorem firstKeys_map (f : α → β) (l : List (κ × α)) :
    firstKeys (l.map fun e => (e.1, f e.2)) = firstKeys l := by
  rw [firstKeys, List.map_map]
  rfl

theorem firstKeys_concat (l : List (κ × α)) (e : κ × α) :
    firstKeys (l ++ [e]) = if e.1 ∈ l.map Prod.fst then firstKeys l else firstKeys l ++ [e.1] := by
  rw [firstKeys, List.map_append, List.eraseDups_append]
  by_cases h : e.1 ∈ l.map Prod.fst
  · simp only [List.map_cons, List.map_nil, List.removeAll, List.filter_cons]
    simp [h, firstKeys]
  · simp only [List.map_cons, List.map_nil, List.removeAll, List.filter_cons]
    simp [h, firstKeys, List.eraseDups_cons]

theorem lastOf?_concat (l : List (κ × α)) (e : κ × α) (k : κ) :
    lastOf? (l ++ [e]) k = if k = e.1 then some e.2 else lastOf? l k := by
  rw [lastOf?, List.reverse_append, List.reverse_singleton, List.singleton_append, List.lookup_cons]
  by_cases h : k = e.1
  · simp [h]
  · have hb : (k == e.1) = false := beq_eq_false_iff_ne.mpr h
    rw [hb, if_neg h, lastOf?]

theorem lastOf?_cons (e : κ × α) (l : List (κ × α)) (k : κ) :
    lastOf? (e :: l) k = (lastOf? l k).or (if k = e.1 then some e.2 else none) := by
  rw [lastOf?, List.reverse_cons, List.lookup_append, lastOf?, List.lookup_cons]
  by_cases h : k = e.1
  · simp [h]
  · have hb : (k == e.1) = false := beq_eq_false_iff_ne.mpr h
    simp [hb, h]

theorem lastOf?_map (f : α → β) (l : List (κ × α)) (k : κ) :
    lastOf? (l.map fun e => (e.1, f e.2)) k = (lastOf? l k).map f := by
  induction l with
  | nil => rfl
  | cons e rest ih =>
    rw [List.map_cons, lastOf?_cons, lastOf?_cons, ih]
    cases lastOf? rest k <;> split <;> simp

private theorem keys_upsert_of_mem {k : κ} {v : α} {l : List (κ × α)} (h : k ∈ l.map Prod.fst) :
    (upsert k v l).map Prod.fst = l.map Prod.fst := by
  induction l with
  | nil => cases h
  | cons e rest ih =>
    by_cases hk : e.1 = k
    · simp [upsert, hk]
    · have hrest : k ∈ rest.map Prod.fst := by
        rcases List.mem_cons.mp h with hfirst | hrest
        · exact absurd hfirst.symm hk
        · exact hrest
      simp [upsert, hk, ih hrest]

theorem mem_of_lookup {k : κ} {v : α} {l : List (κ × α)} (h : l.lookup k = some v) :
    (k, v) ∈ l := by
  obtain ⟨before, after, rfl, -⟩ := List.lookup_eq_some_iff.mp h
  exact List.mem_append_cons_self

namespace OrderedMap

variable {m : OrderedMap κ α} {k : κ}

private theorem mem_keys_of_get? {v : α} (h : m.get? k = some v) : k ∈ m.keys :=
  List.mem_map.mpr ⟨_, mem_of_lookup h, rfl⟩

private theorem exists_get?_of_mem_keys (h : k ∈ m.keys) : ∃ v, m.get? k = some v := by
  obtain ⟨e, he, rfl⟩ := List.mem_map.mp h
  exact ⟨e.2, get?_of_mem he⟩

private theorem keys_insert_of_mem (h : k ∈ m.keys) (v : α) : (m.insert k v).keys = m.keys :=
  keys_upsert_of_mem h

private theorem keys_insert_of_notMem (h : k ∉ m.keys) (v : α) : (m.insert k v).keys = m.keys ++
    [k] := by
  rw [keys, entries_insert, upsert_of_notMem h, List.map_append]
  rfl

theorem ofList_concat (l : List (κ × α)) (e : κ × α) :
    ofList (l ++ [e]) = (ofList l).insert e.1 e.2 := by
  simp [ofList]

/-- A key has its place where it comes first. -/
theorem keys_ofList (l : List (κ × α)) : (ofList l).keys = firstKeys l := by
  induction l using List.reverseRecOn with
  | nil => rfl
  | append_singleton l e ih =>
    have hmem : e.1 ∈ (ofList l).keys ↔ e.1 ∈ l.map Prod.fst := by rw [ih, mem_firstKeys]
    rw [ofList_concat, firstKeys_concat, ← ih]
    split
    · next h => exact keys_insert_of_mem (hmem.mpr h) e.2
    · next h => exact keys_insert_of_notMem (mt hmem.mp h) e.2

/-- A key has the value that comes last. -/
theorem get?_ofList (l : List (κ × α)) (k : κ) : (ofList l).get? k = lastOf? l k := by
  induction l using List.reverseRecOn with
  | nil => rfl
  | append_singleton l e ih => rw [ofList_concat, get?_insert, lastOf?_concat, ih]

end OrderedMap

end Lists

namespace Property

/-! ## Overrides -/

variable {values : List (ByteArray × HostValue)} {overrides : List (ByteArray × PropertyTag)}
  {s : PropertySet}

/-- An override names a key without a value, and none before it does. -/
def NamedFirst (keys : List ByteArray) (overrides : List (ByteArray × PropertyTag))
    (key : ByteArray) : Prop :=
  ∃ before tag after, overrides = before ++ (key, tag) :: after ∧
    (∀ o ∈ before, o.1 ∈ keys) ∧ key ∉ keys

/-- Overrides of keys that are there change nothing but the tags, and the last one holds. -/
theorem applyOverrides_append (h : ∀ o ∈ overrides, o.1 ∈ s.keys) :
    ∃ s' : PropertySet, s'.keys = s.keys ∧
      (∀ k, s'.get? k = (s.get? k).map fun e => (e.1, (lastOf? overrides k).getD e.2)) ∧
      ∀ rest, applyOverrides s (overrides ++ rest) = applyOverrides s' rest := by
  induction overrides generalizing s with
  | nil => exact ⟨s, rfl, fun k => by simp [lastOf?], fun rest => rfl⟩
  | cons o later ih =>
    obtain ⟨key, tag⟩ := o
    simp only [List.forall_mem_cons] at h
    obtain ⟨hkey, hlater⟩ := h
    obtain ⟨⟨value, old⟩, hvalue⟩ := OrderedMap.exists_get?_of_mem_keys hkey
    have hkeys : (s.insert key (value, tag)).keys = s.keys := OrderedMap.keys_insert_of_mem hkey _
    obtain ⟨s', hsame, hget, hrest⟩ := ih (s := s.insert key (value, tag)) (hkeys.symm ▸ hlater)
    refine ⟨s', hsame.trans hkeys, fun k => ?_, fun rest => ?_⟩
    · rw [hget, OrderedMap.get?_insert, lastOf?_cons]
      by_cases hk : k = key
      · subst hk
        cases lastOf? later k <;> simp [hvalue]
      · simp [hk]
    · rw [List.cons_append, applyOverrides, hvalue]
      exact hrest rest

private theorem known_or_namedFirst (keys : List ByteArray)
    (overrides : List (ByteArray × PropertyTag)) :
    (∀ o ∈ overrides, o.1 ∈ keys) ∨ ∃ key, NamedFirst keys overrides key := by
  induction overrides with
  | nil => simp
  | cons o rest ih =>
    by_cases ho : o.1 ∈ keys
    · rcases ih with hall | ⟨key, before, tag, after, rfl, hbefore, hkey⟩
      · exact .inl (List.forall_mem_cons.mpr ⟨ho, hall⟩)
      · exact .inr ⟨key, o :: before, tag, after, rfl, List.forall_mem_cons.mpr ⟨ho, hbefore⟩, hkey⟩
    · exact .inr ⟨o.1, [], o.2, rest, rfl, by simp, ho⟩

private theorem applyOverrides_of_namedFirst {key : ByteArray}
    (h : NamedFirst s.keys overrides key) :
    applyOverrides s overrides = .error (.overrideWithoutValue key) := by
  obtain ⟨before, tag, after, rfl, hbefore, hkey⟩ := h
  obtain ⟨s', hkeys, -, hrest⟩ := applyOverrides_append hbefore
  have hnone : s'.get? key = none := by
    by_contra hsome
    obtain ⟨e, he⟩ := Option.ne_none_iff_exists'.mp hsome
    exact hkey (hkeys ▸ OrderedMap.mem_keys_of_get? he)
  rw [hrest, applyOverrides, hnone]

/-! ## Values by their shapes -/

def byShape (values : List (ByteArray × HostValue)) : PropertySet :=
  .ofList (values.map fun e => (e.1, e.2, e.2.defaultTag))

private theorem keys_byShape (values : List (ByteArray × HostValue)) :
    (byShape values).keys = firstKeys values := by
  rw [byShape, OrderedMap.keys_ofList]
  exact firstKeys_map (fun v => (v, v.defaultTag)) values

private theorem get?_byShape (values : List (ByteArray × HostValue)) (k : ByteArray) :
    (byShape values).get? k = (lastOf? values k).map fun v => (v, v.defaultTag) := by
  rw [byShape, OrderedMap.get?_ofList]
  exact lastOf?_map (fun v => (v, v.defaultTag)) values k

private theorem mem_keys_byShape {k : ByteArray} : k ∈
    (byShape values).keys ↔ k ∈ values.map Prod.fst := by
  rw [keys_byShape, mem_firstKeys]

private theorem namedFirst_byShape {key : ByteArray} :
    NamedFirst (byShape values).keys overrides key ↔
      NamedFirst (values.map Prod.fst) overrides key := by
  simp only [NamedFirst, mem_keys_byShape]

/-- Nothing is wrong with a value under the tag of its shape, save that a number is too large. -/
theorem offence_of_defaultTag {key : ByteArray} {value : HostValue} {error : PropertyError}
    (h : Offence (key, value, value.defaultTag) error) :
    (∃ n, value = .int n ∧ ¬Within 64 n ∧ error = .outOfRange key .int64) ∨
      key.size = 0 ∧ error = .rejected key Code.invalidArgument := by
  by_cases hplace : place error < 3
  · have herror := h.encodeValue_eq hplace
    by_cases hgoes : GoesWith value value.defaultTag.code
    · obtain ⟨wire, hwire⟩ := exists_wire hgoes key
      rw [hwire] at herror
      cases herror
    · cases value with
      | bool flag => exact absurd (.bool flag) hgoes
      | bytes data => exact absurd (.binary data) hgoes
      | str text => exact absurd (.text text) hgoes
      | int n =>
        have hout : ¬Within 64 n := fun fits => hgoes (.int64 n fits)
        have hrange := (Offence.range key n .int64 hout).encodeValue_eq (by simp [place])
        exact .inl ⟨n, rfl, hout, Except.error.inj (herror.symm.trans hrange)⟩
  · exact .inr (h.of_place hplace)

private theorem infer_of_known (h : ∀ o ∈ overrides, o.1 ∈ values.map Prod.fst) :
    ∃ s, infer values overrides = .ok s ∧ s.keys = firstKeys values ∧
      ∀ k, s.get? k =
        (lastOf? values k).map fun v => (v, (lastOf? overrides k).getD v.defaultTag) := by
  obtain ⟨s, hkeys, hget, hrest⟩ :=
    applyOverrides_append (s := byShape values) fun o ho => mem_keys_byShape.mpr (h o ho)
  refine ⟨s, ?_, hkeys.trans (keys_byShape values), fun k => ?_⟩
  · have hdone := hrest []
    rwa [List.append_nil] at hdone
  · rw [hget, get?_byShape, Option.map_map]
    rfl

private theorem infer_of_namedFirst {key : ByteArray}
    (h : NamedFirst (values.map Prod.fst) overrides key) :
    infer values overrides = .error (.overrideWithoutValue key) :=
  applyOverrides_of_namedFirst (s := byShape values) (namedFirst_byShape.mpr h)

private theorem encode_byShape_error {error : PropertyError}
    (h : encode (byShape values) = .error error) :
    (∃ key n, lastOf? values key = some (.int n) ∧ ¬Within 64 n ∧ error = .outOfRange key .int64) ∨
      ∃ key ∈ values.map Prod.fst, key.size = 0 ∧
        error = .rejected key Code.invalidArgument := by
  rcases wellTyped_or_reportsFirst (byShape values).entries with hall | ⟨reported, hfirst⟩
  · obtain ⟨w, hw⟩ := encodeInto_of_wellTyped hall .empty
    rw [encode, hw] at h
    cases h
  · rw [encode, encodeInto_of_reportsFirst hfirst] at h
    cases h
    obtain ⟨before, ⟨key, value, tag⟩, after, hentries, -, hoffence, -⟩ := hfirst
    have hget : (byShape values).get? key = some (value, tag) :=
      OrderedMap.get?_of_mem (hentries ▸ List.mem_append_cons_self)
    have hkey : key ∈ values.map Prod.fst :=
      mem_keys_byShape.mp (OrderedMap.mem_keys_of_get? hget)
    rw [get?_byShape, Option.map_eq_some_iff] at hget
    obtain ⟨_, hlast, hshape⟩ := hget
    cases hshape
    rcases offence_of_defaultTag hoffence with ⟨n, rfl, hout, herror⟩ | ⟨hempty, herror⟩
    · exact .inl ⟨key, n, hlast, hout, herror⟩
    · exact .inr ⟨key, hkey, hempty, herror⟩

/-- A set that is made of values and overrides is not made exactly if an override names a key
without a value, and then the error names the first such key. Otherwise the set has every key once,
in the order in which the keys come first, with the value that comes last, under the tag that the
last override for the key gives it, or else under the tag of the value's shape. Without overrides
the set is made, and it is encoded unless a number is outside 64 bits or a key is empty. -/
theorem infer_takes_last (values : List (ByteArray × HostValue))
    (overrides : List (ByteArray × PropertyTag)) :
    ((∃ error, infer values overrides = .error error) ↔
      ∃ o ∈ overrides, o.1 ∉ values.map Prod.fst) ∧
    (∀ error, infer values overrides = .error error ↔
      ∃ key, NamedFirst (values.map Prod.fst) overrides key ∧
        error = .overrideWithoutValue key) ∧
    (∀ s, infer values overrides = .ok s →
      s.keys = firstKeys values ∧
      ∀ k, s.get? k =
        (lastOf? values k).map fun v => (v, (lastOf? overrides k).getD v.defaultTag)) ∧
    ∃ s, infer values [] = .ok s ∧
      ∀ error, encode s = .error error →
        (∃ key n, lastOf? values key = some (.int n) ∧ ¬Within 64 n ∧
          error = .outOfRange key .int64) ∨
        ∃ key ∈ values.map Prod.fst, key.size = 0 ∧
          error = .rejected key Code.invalidArgument := by
  refine ⟨⟨?_, ?_⟩, fun error => ⟨fun h => ?_, ?_⟩, fun s h => ?_, byShape values, rfl,
    fun error h => encode_byShape_error h⟩
  · rintro ⟨error, h⟩
    by_contra hnone
    obtain ⟨s, hs, -⟩ := infer_of_known (by simpa using hnone)
    rw [hs] at h
    cases h
  · rintro ⟨o, ho, hkey⟩
    rcases known_or_namedFirst (values.map Prod.fst) overrides with hall | ⟨key, hfirst⟩
    · exact absurd (hall o ho) hkey
    · exact ⟨_, infer_of_namedFirst hfirst⟩
  · rcases known_or_namedFirst (values.map Prod.fst) overrides with hall | ⟨key, hfirst⟩
    · obtain ⟨s, hs, -⟩ := infer_of_known hall
      rw [hs] at h
      cases h
    · rw [infer_of_namedFirst hfirst] at h
      cases h
      exact ⟨key, hfirst, rfl⟩
  · rintro ⟨key, hfirst, rfl⟩
    exact infer_of_namedFirst hfirst
  · rcases known_or_namedFirst (values.map Prod.fst) overrides with hall | ⟨key, hfirst⟩
    · obtain ⟨s', hs', hkeys, hget⟩ := infer_of_known hall
      rw [hs'] at h
      cases h
      exact ⟨hkeys, hget⟩
    · rw [infer_of_namedFirst hfirst] at h
      cases h

def letter (byte : UInt8) : ByteArray := ⟨#[byte]⟩

/-- The second key comes between two values of the first, the later one of which is too large. -/
def repeatedValues : List (ByteArray × HostValue) :=
  [(letter 0x62, .int 1), (letter 0x61, .bool true), (letter 0x62, .int 9223372036854775808)]

def repeatedOverrides : List (ByteArray × PropertyTag) :=
  [(letter 0x62, .ofType .short), (letter 0x61, .ofType .string), (letter 0x62, .ofType .int32)]

theorem infer_takes_last_repeated :
    (∃ s, infer repeatedValues repeatedOverrides = .ok s ∧ s.keys = [letter 0x62, letter 0x61] ∧
      s.get? (letter 0x62) = some (.int 9223372036854775808, .ofType .int32) ∧
      s.get? (letter 0x61) = some (.bool true, .ofType .string)) ∧
    infer repeatedValues ((letter 0x62, .ofType .short) :: (letter 0x63, .ofType .bool) ::
      repeatedOverrides) = .error (.overrideWithoutValue (letter 0x63)) ∧
    ∃ s error, infer repeatedValues [] = .ok s ∧ encode s = .error error ∧
      ((∃ key n, lastOf? repeatedValues key = some (.int n) ∧ ¬Within 64 n ∧
        error = .outOfRange key .int64) ∨
        ∃ key ∈ repeatedValues.map Prod.fst, key.size = 0 ∧
          error = .rejected key Code.invalidArgument) := by
  refine ⟨?_, ?_, ?_⟩
  · obtain ⟨-, -, hset, -⟩ := infer_takes_last repeatedValues repeatedOverrides
    cases hinfer : infer repeatedValues repeatedOverrides with
    | error error =>
      have hok : (infer repeatedValues repeatedOverrides).toOption.isSome = true := by
        decide +kernel
      simp [hinfer, Except.toOption] at hok
    | ok s =>
      obtain ⟨hkeys, hget⟩ := hset s hinfer
      exact ⟨s, rfl, hkeys.trans (by decide +kernel), (hget _).trans (by decide +kernel),
        (hget _).trans (by decide +kernel)⟩
  · obtain ⟨-, herror, -⟩ := infer_takes_last repeatedValues
      ((letter 0x62, .ofType .short) :: (letter 0x63, .ofType .bool) :: repeatedOverrides)
    refine (herror _).mpr ⟨letter 0x63, ⟨[(letter 0x62, .ofType .short)], .ofType .bool,
      repeatedOverrides, rfl, by decide +kernel, by decide +kernel⟩, rfl⟩
  · obtain ⟨-, -, -, s, hs, hencode⟩ := infer_takes_last repeatedValues []
    cases hfails : encode s with
    | error error => exact ⟨s, error, hs, hfails, hencode error hfails⟩
    | ok w =>
      have hnone : ((infer repeatedValues []).toOption.bind fun s =>
          (encode s).toOption).isNone = true := by
        decide +kernel
      simp [hs, hfails, Except.toOption] at hnone

end Property

end BrokerBridge
