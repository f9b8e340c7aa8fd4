import BrokerBridge.Proofs.Property.Inferred
import BrokerBridge.Proofs.Property.SentAgain

/-!
# What a container stores

A container is changed by a setter for each type of value, and by one for any value at all. It holds
what the accepted calls stored: each key where it was first stored, with the value stored last.
-/

namespace BrokerBridge

/-! ## Insertion in place -/

section InPlace

variable {κ α : Type} [DecidableEq κ]

/-- A key that is there keeps its place and has its value replaced; a new key comes last. -/
def insertInPlace (l : List (κ × α)) (e : κ × α) : List (κ × α) :=
  if e.1 ∈ l.map Prod.fst then l.map fun f => if f.1 = e.1 then (f.1, e.2) else f
  else l ++ [e]

private theorem upsert_eq_insertInPlace {l : List (κ × α)} (hkeys : (l.map Prod.fst).Nodup)
    (e : κ × α) :
    upsert e.1 e.2 l = insertInPlace l e := by
  induction l with
  | nil => simp [upsert, insertInPlace]
  | cons f rest ih =>
    obtain ⟨hnew, hrest⟩ := List.nodup_cons.mp hkeys
    by_cases hf : f.1 = e.1
    · have hothers : rest.map (fun g => if g.1 = e.1 then (g.1, e.2) else g) = rest := by
        refine (List.map_congr_left ?_).trans (List.map_id rest)
        intro g hg
        have hne : g.1 ≠ e.1 := fun heq => hnew (hf ▸ heq ▸ List.mem_map_of_mem hg)
        simp [hne]
      simp [upsert, insertInPlace, hf, hothers]
    · have hmem : e.1 ∈ (f :: rest).map Prod.fst ↔ e.1 ∈ rest.map Prod.fst := by
        simp only [List.map_cons, List.mem_cons, Ne.symm hf, false_or]
      simp only [upsert, hf, if_false, ih hrest, insertInPlace, hmem]
      split <;> simp [hf]

private theorem foldl_upsert_eq_insertInPlace {l₀ : List (κ × α)} (hkeys : (l₀.map Prod.fst).Nodup)
    (l : List (κ × α)) :
    l.foldl (fun m e => upsert e.1 e.2 m) l₀ = l.foldl insertInPlace l₀ := by
  induction l generalizing l₀ with
  | nil => rfl
  | cons e rest ih =>
    rw [List.foldl_cons, List.foldl_cons, ih (nodup_keys_upsert hkeys),
      upsert_eq_insertInPlace hkeys]

end InPlace

/-! ## The setters -/

/-- What a call hands to its setter: a value of the setter's own type, or any value at all. -/
inductive WireSetter where
  | bool (flag : Bool)
  | char (byte : UInt8)
  | short (value : Int16)
  | int32 (value : Int32)
  | int64 (value : Int64)
  | string (data : ByteArray)
  | binary (data : ByteArray)
  | any (value : WireValue)

def WireSetter.value : WireSetter → WireValue
  | bool flag => .bool flag
  | char byte => .char byte
  | short value => .short value
  | int32 value => .int32 value
  | int64 value => .int64 value
  | string data => .string data
  | binary data => .binary data
  | any value => value

structure WireCall where
  key : ByteArray
  setter : WireSetter

def WireCall.entry (c : WireCall) : ByteArray × WireValue := (c.key, c.setter.value)

/-- The entries that the container does not refuse, in the order of their calls. -/
def WireCall.accepted (calls : List WireCall) : List (ByteArray × WireValue) :=
  (calls.map entry).filter (!·.1.isEmpty)

namespace WireProperties

def keys (w : WireProperties) : List ByteArray := w.entries.map Prod.fst

def perform (w : WireProperties) (c : WireCall) : Int × WireProperties := w.set c.key c.setter.value

def performAll (w : WireProperties) (calls : List WireCall) : List Int × WireProperties :=
  w.setAll (calls.map WireCall.entry)

private theorem set_of_isEmpty (w : WireProperties) {key : ByteArray} (h : key.isEmpty = true)
    (value : WireValue) : w.set key value = (Code.invalidArgument, w) := by
  simp [set, h]

private theorem set_of_named (w : WireProperties) {key : ByteArray} (h : key.isEmpty = false)
    (value : WireValue) : w.set key value = (Code.success, ⟨upsert key value w.entries⟩) := by
  simp [set, h]

private theorem get?_eq_lookup (w : WireProperties) (k : ByteArray) :
    w.get? k = @List.lookup _ _ instBEqOfDecidableEq k w.entries := by
  have hbeq : (ByteArray.instBEq : BEq ByteArray) = instBEqOfDecidableEq :=
    lawful_beq_subsingleton ..
  rw [get?, hbeq]

private theorem get?_set_of_named (w : WireProperties) {key : ByteArray} (h : key.isEmpty = false)
    (value : WireValue) (k : ByteArray) :
    (w.set key value).2.get? k = if k = key then some value else w.get? k := by
  rw [set_of_named w h, get?_eq_lookup, get?_eq_lookup, lookup_upsert]

private theorem performAll_eq (w : WireProperties) (calls : List WireCall) :
    w.performAll calls =
      (calls.map fun c => if c.key.isEmpty then Code.invalidArgument else Code.success,
        ⟨(WireCall.accepted calls).foldl (fun m e => upsert e.1 e.2 m) w.entries⟩) := by
  induction calls generalizing w with
  | nil => rfl
  | cons c rest ih =>
    have hcons : w.performAll (c :: rest) =
        ((w.perform c).1 :: ((w.perform c).2.performAll rest).1,
          ((w.perform c).2.performAll rest).2) := rfl
    rw [hcons, ih]
    cases hkey : c.key.isEmpty with
    | true => simp [perform, set_of_isEmpty w hkey, hkey, WireCall.accepted, WireCall.entry]
    | false => simp [perform, set_of_named w hkey, hkey, WireCall.accepted, WireCall.entry]

private theorem perform_eq {w : WireProperties} (hw : w.Named) (c : WireCall) :
    w.perform c =
      if c.key.isEmpty then (Code.invalidArgument, w)
      else (Code.success, ⟨insertInPlace w.entries c.entry⟩) := by
  cases hkey : c.key.isEmpty with
  | true => simp [perform, set_of_isEmpty w hkey]
  | false =>
    rw [perform, set_of_named w hkey, ← upsert_eq_insertInPlace hw.nodup]
    simp [WireCall.entry]

private theorem get?_perform (w : WireProperties) (c : WireCall) (k : ByteArray) :
    (w.perform c).2.get? k =
      if k = c.key ∧ c.key.isEmpty = false then some c.setter.value else w.get? k := by
  cases hkey : c.key.isEmpty with
  | true => simp [perform, set_of_isEmpty w hkey]
  | false => simp [perform, get?_set_of_named w hkey]

private theorem named_performAll (calls : List WireCall) : (empty.performAll calls).2.Named :=
  named_empty.setAll (calls.map WireCall.entry)

private theorem entries_performAll (calls : List WireCall) :
    (empty.performAll calls).2.entries = (OrderedMap.ofList (WireCall.accepted calls)).entries := by
  rw [performAll_eq, OrderedMap.ofList, OrderedMap.entries_foldl_insert]
  rfl

private theorem entries_performAll_inPlace (calls : List WireCall) :
    (empty.performAll calls).2.entries = (WireCall.accepted calls).foldl insertInPlace [] := by
  rw [performAll_eq]
  exact foldl_upsert_eq_insertInPlace (by simp [empty]) _

private theorem keys_performAll (calls : List WireCall) :
    (empty.performAll calls).2.keys = firstKeys (WireCall.accepted calls) := by
  rw [← OrderedMap.keys_ofList, keys, entries_performAll]
  rfl

private theorem get?_performAll (calls : List WireCall) (k : ByteArray) :
    (empty.performAll calls).2.get? k = lastOf? (WireCall.accepted calls) k := by
  rw [← OrderedMap.get?_ofList, get?_eq_lookup, entries_performAll]
  rfl

/-- After every run of calls the keys differ, none is empty, and they stand in the order in which
they were first stored; a key has the value that was stored last. A call with an empty key is
refused and changes nothing; any other is accepted, and changes what its own key holds and nothing
else. The container is the map that inserts the accepted entries in place, one after another. -/
theorem container_replays_accepted (calls : List WireCall) :
    let w := (empty.performAll calls).2
    (empty.performAll calls).1 =
        calls.map (fun c => if c.key.isEmpty then Code.invalidArgument else Code.success) ∧
      w.keys.Nodup ∧ w.keys.all (!·.isEmpty) = true ∧
      w.keys = firstKeys (WireCall.accepted calls) ∧
      (∀ k, w.get? k = lastOf? (WireCall.accepted calls) k) ∧
      (∀ c : WireCall, w.perform c =
        if c.key.isEmpty then (Code.invalidArgument, w)
        else (Code.success, ⟨insertInPlace w.entries c.entry⟩)) ∧
      (∀ (c : WireCall) (k : ByteArray), (w.perform c).2.get? k =
        if k = c.key ∧ c.key.isEmpty = false then some c.setter.value else w.get? k) ∧
      w.entries = (WireCall.accepted calls).foldl insertInPlace [] ∧
      w.entries = (OrderedMap.ofList (WireCall.accepted calls)).entries := by
  intro w
  have hw : w.Named := named_performAll calls
  have hnamed : w.keys.all (!·.isEmpty) = true := by
    simp only [keys, List.all_map, List.all_eq_true]
    intro e he
    simp [hw.named e he]
  exact ⟨congrArg Prod.fst (performAll_eq empty calls), hw.nodup, hnamed, keys_performAll calls,
    get?_performAll calls, perform_eq hw, get?_perform w, entries_performAll_inPlace calls,
    entries_performAll calls⟩

/-- A key keeps its place when a value of another type is stored under it, and an empty key is
refused. -/
theorem container_replays_accepted_retyped :
    let calls : List WireCall := [⟨⟨#[0x61]⟩, .int32 5⟩, ⟨⟨#[0x62]⟩, .bool true⟩, ⟨⟨#[]⟩, .short 1⟩,
      ⟨⟨#[0x61]⟩, .string ⟨#[0x7A]⟩⟩]
    (empty.performAll calls).1 =
        [Code.success, Code.success, Code.invalidArgument, Code.success] ∧
      (empty.performAll calls).2.keys = [⟨#[0x61]⟩, ⟨#[0x62]⟩] ∧
      (empty.performAll calls).2.get? ⟨#[0x61]⟩ = some (.string ⟨#[0x7A]⟩) := by
  intro calls
  obtain ⟨hanswers, -, -, hkeys, hget, -⟩ := container_replays_accepted calls
  rw [hanswers, hkeys, hget]
  decide +kernel

end WireProperties

end BrokerBridge
