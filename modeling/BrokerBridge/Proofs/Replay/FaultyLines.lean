import Mathlib
import BrokerBridge.Proofs.Replay.Loading

/-!
# Faulty lines of a script

A script that is not loaded has a first line that holds nothing and is not blank. Where that line is
text, the fault that is reported names the file, the number of the line and what is wrong with its
record; a line that is no text is reported by nothing at all.
-/

namespace BrokerBridge

/-! ## The first of several -/

def FirstFailing {ε α β : Type} (f : α → Except ε β) (l : List α) (e : ε) : Prop :=
  ∃ before x after, l = before ++ x :: after ∧ (∀ y ∈ before, ∃ z, f y = .ok z) ∧ f x = .error e

private theorem firstFailing_cons_of_ok {ε α β : Type} {f : α → Except ε β} {x : α} {y : β}
    {l : List α}
    {e : ε} (hx : f x = .ok y) : FirstFailing f (x :: l) e ↔ FirstFailing f l e := by
  constructor
  · rintro ⟨before, z, after, hl, hbefore, hz⟩
    cases before with
    | nil =>
      obtain ⟨rfl, rfl⟩ := List.cons.inj hl
      cases hx.symm.trans hz
    | cons w before =>
      obtain ⟨rfl, rfl⟩ := List.cons.inj hl
      exact ⟨before, z, after, rfl, fun u hu => hbefore u (List.mem_cons_of_mem _ hu), hz⟩
  · rintro ⟨before, z, after, rfl, hbefore, hz⟩
    exact ⟨x :: before, z, after, rfl, List.forall_mem_cons.mpr ⟨⟨y, hx⟩, hbefore⟩, hz⟩

private theorem firstFailing_cons_of_error {ε α β : Type} {f : α → Except ε β} {x : α} {l : List α}
    {e e' : ε} (hx : f x = .error e) : FirstFailing f (x :: l) e' ↔ e = e' := by
  constructor
  · rintro ⟨before, z, after, hl, hbefore, hz⟩
    cases before with
    | nil =>
      obtain ⟨rfl, rfl⟩ := List.cons.inj hl
      exact Except.error.inj (hx.symm.trans hz)
    | cons w before =>
      obtain ⟨rfl, rfl⟩ := List.cons.inj hl
      obtain ⟨y, hy⟩ := hbefore x List.mem_cons_self
      cases hx.symm.trans hy
  · rintro rfl
    exact ⟨[], x, l, rfl, nofun, hx⟩

/-- What is done with each element in turn fails at the first one that fails. -/
theorem mapM_eq_error_iff {ε α β : Type} {f : α → Except ε β} {l : List α} {e : ε} :
    l.mapM f = .error e ↔ FirstFailing f l e := by
  induction l with
  | nil =>
    refine ⟨nofun, ?_⟩
    rintro ⟨before, x, after, hl, -⟩
    simp at hl
  | cons x l ih =>
    rw [List.mapM_cons]
    cases hx : f x with
    | error e₁ =>
      rw [firstFailing_cons_of_error hx]
      exact ⟨Except.error.inj, congrArg Except.error⟩
    | ok y =>
      rw [firstFailing_cons_of_ok hx, ← ih]
      cases l.mapM f with
      | error e₁ => exact Iff.rfl
      | ok more => exact ⟨nofun, nofun⟩

theorem bind_pure_eq_error_iff {ε α β : Type} {x : Except ε α} {g : α → β} {e : ε} :
    (x >>= fun a => pure (g a)) = .error e ↔ x = .error e := by
  cases x with
  | error e₁ => exact ⟨fun h => congrArg Except.error (Except.error.inj h),
      fun h => congrArg Except.error (Except.error.inj h)⟩
  | ok a => exact ⟨nofun, nofun⟩

/-! ## Records that hold no batch -/

/-- Why a message cannot be scripted: its identifier, or else the first property that has no
value. -/
inductive WrittenPush.Fails (r : WrittenPush) : RecordFault → Prop where
  | guid (hguid : Guid.ofHex? r.guid = none) : r.Fails (.invalidGuid r.guid)
  | property {guid : Guid} {before after : List (String × WrittenProperty)} {key : String}
      {p : WrittenProperty} {fault : PropertyFault} (hguid : Guid.ofHex? r.guid = some guid)
      (hproperties : r.properties = before ++ (key, p) :: after)
      (hbefore : ∀ e ∈ before, ∃ v, e.2.hostValue = .ok v) (hp : p.hostValue = .error fault) :
      r.Fails (.property key fault)

inductive WrittenAck.Fails (r : WrittenAck) : RecordFault → Prop where
  | guid (hguid : Guid.ofHex? r.guid = none) : r.Fails (.invalidGuid r.guid)

/-- Why a record holds no batch: its first message that cannot be scripted. -/
inductive ScriptRecord.Fails : ScriptRecord → RecordFault → Prop where
  | push {before after : List WrittenPush} {r : WrittenPush} {fault : RecordFault}
      (hbefore : ∀ q ∈ before, ∃ p, q.scripted = .ok p) (hr : r.Fails fault) :
      Fails (.push (before ++ r :: after)) fault
  | ack {before after : List WrittenAck} {r : WrittenAck} {fault : RecordFault}
      (hbefore : ∀ q ∈ before, ∃ a, q.scripted = .ok a) (hr : r.Fails fault) :
      Fails (.ack (before ++ r :: after)) fault

/-- Why a line is neither blank nor holds a batch; none where it is no text. -/
inductive LineFails (bytes : List UInt8) : Option RecordFault → Prop where
  | notText (htext : String.fromUTF8? ⟨bytes.toArray⟩ = none) : LineFails bytes none
  | malformed {line : String} (htext : String.fromUTF8? ⟨bytes.toArray⟩ = some line)
      (hblank : Text.isBlank line = false) (hrecord : ScriptRecord.ofLine? line = none) :
      LineFails bytes (some .malformed)
  | record {line : String} {record : ScriptRecord} {fault : RecordFault}
      (htext : String.fromUTF8? ⟨bytes.toArray⟩ = some line) (hblank : Text.isBlank line = false)
      (hrecord : ScriptRecord.ofLine? line = some record) (hfails : record.Fails fault) :
      LineFails bytes (some fault)

theorem scriptedGuid_eq_ok_iff {text : String} {guid : Guid} :
    scriptedGuid text = .ok guid ↔ Guid.ofHex? text = some guid := by
  unfold scriptedGuid
  cases Guid.ofHex? text <;> simp

theorem scriptedGuid_eq_error_iff {text : String} {fault : RecordFault} :
    scriptedGuid text = .error fault ↔ Guid.ofHex? text = none ∧ fault = .invalidGuid text := by
  unfold scriptedGuid
  cases Guid.ofHex? text <;> simp [eq_comm]

def scriptedEntry (e : String × WrittenProperty) :
    Except RecordFault (ByteArray × HostValue × PropertyTag) :=
  match e.2.hostValue with
  | .ok v => .ok (e.1.toUTF8, v, PropertyTag.mk e.2.code)
  | .error fault => .error (.property e.1 fault)

theorem scriptedEntry_eq_error_iff {e : String × WrittenProperty} {fault : RecordFault} :
    scriptedEntry e = .error fault ↔
      ∃ f, e.2.hostValue = .error f ∧ fault = .property e.1 f := by
  unfold scriptedEntry
  cases e.2.hostValue <;> simp [eq_comm]

theorem exists_scriptedEntry_iff {e : String × WrittenProperty} :
    (∃ y, scriptedEntry e = .ok y) ↔ ∃ v, e.2.hostValue = .ok v := by
  unfold scriptedEntry
  cases e.2.hostValue <;> simp

theorem scriptedProperties_eq_error_iff {properties : List (String × WrittenProperty)}
    {fault : RecordFault} :
    scriptedProperties properties = .error fault ↔
      FirstFailing scriptedEntry properties fault := by
  rw [← mapM_eq_error_iff]
  exact bind_pure_eq_error_iff

theorem WrittenPush.scripted_eq_error_iff {r : WrittenPush} {fault : RecordFault} :
    r.scripted = .error fault ↔ r.Fails fault := by
  unfold scripted
  cases hguid : Guid.ofHex? r.guid with
  | none =>
    rw [scriptedGuid_eq_error_iff.mpr ⟨hguid, rfl⟩]
    constructor
    · intro h
      cases h
      exact .guid hguid
    · rintro (_ | ⟨hsome, -, -, -⟩)
      · rfl
      · cases hguid.symm.trans hsome
  | some guid =>
    rw [scriptedGuid_eq_ok_iff.mpr hguid]
    -- the identifier is right, so a failure is one of the properties
    have hproperties : scriptedProperties r.properties = .error fault ↔ r.Fails fault := by
      rw [scriptedProperties_eq_error_iff]
      constructor
      · rintro ⟨before, ⟨key, p⟩, after, hsplit, hbefore, hp⟩
        obtain ⟨f, hf, rfl⟩ := scriptedEntry_eq_error_iff.mp hp
        exact .property hguid hsplit
          (fun e he => exists_scriptedEntry_iff.mp (hbefore e he)) hf
      · rintro (hnone | ⟨-, hsplit, hbefore, hf⟩)
        · cases hguid.symm.trans hnone
        · exact ⟨_, _, _, hsplit, fun e he => exists_scriptedEntry_iff.mpr (hbefore e he),
            scriptedEntry_eq_error_iff.mpr ⟨_, hf, rfl⟩⟩
    rw [← hproperties]
    exact bind_pure_eq_error_iff

theorem WrittenAck.scripted_eq_error_iff {r : WrittenAck} {fault : RecordFault} :
    r.scripted = .error fault ↔ r.Fails fault := by
  unfold scripted
  cases hguid : Guid.ofHex? r.guid with
  | none =>
    rw [scriptedGuid_eq_error_iff.mpr ⟨hguid, rfl⟩]
    constructor
    · intro h
      cases h
      exact .guid hguid
    · rintro ⟨-⟩
      rfl
  | some guid =>
    rw [scriptedGuid_eq_ok_iff.mpr hguid]
    refine ⟨nofun, ?_⟩
    rintro ⟨hnone⟩
    cases hguid.symm.trans hnone

namespace Script

variable {e : Script} {path : String} {files : Files}

/-- A line is refused exactly if it holds no record, or one that holds no batch. -/
theorem addLine_eq_error_iff {line : String} {fault : RecordFault} :
    e.addLine line = .error fault ↔
      (ScriptRecord.ofLine? line = none ∧ fault = .malformed) ∨
        ∃ record, ScriptRecord.ofLine? line = some record ∧ record.Fails fault := by
  unfold addLine
  cases hrecord : ScriptRecord.ofLine? line with
  | none => simp [eq_comm]
  | some record =>
    simp only [reduceCtorEq, false_and, false_or, Option.some.injEq, exists_eq_left']
    cases record with
    | push batch =>
      have hfails : batch.mapM WrittenPush.scripted = .error fault ↔
          (ScriptRecord.push batch).Fails fault := by
        rw [mapM_eq_error_iff]
        constructor
        · rintro ⟨before, r, after, rfl, hbefore, hr⟩
          exact .push hbefore (WrittenPush.scripted_eq_error_iff.mp hr)
        · intro h
          cases h with
          | push hbefore hr =>
            exact ⟨_, _, _, rfl, hbefore, WrittenPush.scripted_eq_error_iff.mpr hr⟩
      rw [← hfails]
      exact bind_pure_eq_error_iff
    | ack batch =>
      have hfails : batch.mapM WrittenAck.scripted = .error fault ↔
          (ScriptRecord.ack batch).Fails fault := by
        rw [mapM_eq_error_iff]
        constructor
        · rintro ⟨before, r, after, rfl, hbefore, hr⟩
          exact .ack hbefore (WrittenAck.scripted_eq_error_iff.mp hr)
        · intro h
          cases h with
          | ack hbefore hr =>
            exact ⟨_, _, _, rfl, hbefore, WrittenAck.scripted_eq_error_iff.mpr hr⟩
      rw [← hfails]
      exact bind_pure_eq_error_iff

end Script

theorem exists_lineFails_iff {bytes : List UInt8} :
    (∃ fault, LineFails bytes fault) ↔ ¬∃ held, LineHolds bytes held := by
  constructor
  · rintro ⟨fault, hfails⟩ ⟨held, hheld⟩
    cases hheld with
    | blank htext hblank => cases hfails <;> simp_all
    | @record line record batch htext hblank hrecord hbatch =>
      have hok := Script.addLine_eq_ok_iff (e := {}).mpr ⟨record, batch, hrecord, hbatch, rfl⟩
      cases hfails with
      | notText hnone => cases hnone.symm.trans htext
      | malformed htext' _ hnone =>
        cases htext'.symm.trans htext
        cases hnone.symm.trans hrecord
      | record htext' _ hrecord' hfails =>
        cases htext'.symm.trans htext
        have herror := Script.addLine_eq_error_iff (e := {}).mpr (.inr ⟨_, hrecord', hfails⟩)
        cases herror.symm.trans hok
  · intro hnot
    cases htext : String.fromUTF8? ⟨bytes.toArray⟩ with
    | none => exact ⟨none, .notText htext⟩
    | some line =>
      cases hblank : Text.isBlank line with
      | true => exact absurd ⟨none, .blank htext hblank⟩ hnot
      | false =>
        cases hline : Script.addLine {} line with
        | ok e =>
          obtain ⟨record, batch, hrecord, hbatch, -⟩ := Script.addLine_eq_ok_iff.mp hline
          exact absurd ⟨_, .record htext hblank hrecord hbatch⟩ hnot
        | error fault =>
          obtain ⟨hnone, rfl⟩ | ⟨record, hrecord, hfails⟩ := Script.addLine_eq_error_iff.mp hline
          · exact ⟨_, .malformed htext hblank hnone⟩
          · exact ⟨_, .record htext hblank hrecord hfails⟩

/-! ## Lines in a file -/

namespace Script

theorem splitLines_eq_nil_iff {content : List UInt8} : splitLines content = [] ↔ content = [] := by
  fun_induction splitLines content with
  | case1 => simp
  | case2 => simp
  | case3 b rest hb hreturn ih =>
    rw [ih]
    cases rest <;> simp_all
  | case4 => simp
  | case5 => simp

/-- Where a line stands: behind as many line feeds as there are lines before it, the last of which
is right before it, and up to the line feed that ends it, if one does. -/
structure LineAt (content bytes : List UInt8) (before : Nat) (start rest : List UInt8) : Prop where
  content_eq : content = start ++ bytes ++ rest
  feeds : start.count 0x0A = before
  begins : start = [] ∨ start.getLast? = some 0x0A
  within : 0x0A ∉ bytes
  ends : rest = [] ∨ [0x0A] <+: rest ∨ [0x0D, 0x0A] <+: rest

theorem LineAt.start_eq_nil {content bytes start rest : List UInt8}
    (h : LineAt content bytes 0 start rest) : start = [] := by
  refine h.begins.resolve_right fun hlast => ?_
  exact List.count_eq_zero.mp h.feeds (List.mem_of_getLast? hlast)

theorem LineAt.start_ne_nil {content bytes start rest : List UInt8} {n : Nat}
    (h : LineAt content bytes (n + 1) start rest) : start ≠ [] := by
  rintro rfl
  exact absurd h.feeds (by simp)

private theorem exists_lineAt {content : List UInt8} {before after : List (List UInt8)}
    {bytes : List UInt8} (h : splitLines content = before ++ bytes :: after) :
    ∃ start rest, LineAt content bytes before.length start rest := by
  fun_induction splitLines content generalizing before bytes with
  | case1 => simp at h
  | case2 rest ih =>
    cases before with
    | nil =>
      obtain ⟨rfl, -⟩ := List.cons.inj h
      exact ⟨[], 0x0A :: rest, rfl, rfl, .inl rfl, List.not_mem_nil, .inr (.inl ⟨rest, rfl⟩)⟩
    | cons line before =>
      obtain ⟨start, after, hat⟩ := ih (List.cons.inj h).2
      refine ⟨0x0A :: start, after, congrArg _ hat.content_eq, ?_, .inr ?_, hat.within, hat.ends⟩
      · rw [List.count_cons_self, hat.feeds, List.length_cons]
      · obtain rfl | hlast := hat.begins
        · rfl
        · rw [List.getLast?_cons, hlast, Option.getD_some]
  | case3 b rest hfeed hreturn ih =>
    obtain ⟨start, after, hat⟩ := ih h
    obtain ⟨rfl, hnext⟩ := hreturn
    cases before with
    | nil =>
      -- nothing stands between the carriage return and the line feed
      have hstart := hat.start_eq_nil
      have hbytes : bytes = [] := by
        cases bytes with
        | nil => rfl
        | cons b bytes =>
          have hb : b = 0x0A := by simpa [hat.content_eq, hstart] using hnext
          exact absurd (hb ▸ List.mem_cons_self) hat.within
      have hrest : rest = after := by simpa [hstart, hbytes] using hat.content_eq
      obtain ⟨more, rfl⟩ : ∃ more, rest = 0x0A :: more := List.head?_eq_some_iff.mp hnext
      subst hbytes
      exact ⟨[], _, rfl, rfl, .inl rfl, List.not_mem_nil, .inr (.inr ⟨more, rfl⟩)⟩
    | cons line before =>
      have hlast := hat.begins.resolve_left hat.start_ne_nil
      refine ⟨0x0D :: start, after, congrArg _ hat.content_eq, ?_, .inr ?_, hat.within, hat.ends⟩
      · rw [List.count_cons_of_ne (by decide), hat.feeds]
      · rw [List.getLast?_cons, hlast, Option.getD_some]
  | case4 b rest hfeed hreturn hnil ih =>
    obtain rfl := splitLines_eq_nil_iff.mp hnil
    cases before with
    | nil =>
      obtain ⟨rfl, -⟩ := List.cons.inj h
      exact ⟨[], [], rfl, rfl, .inl rfl, by simpa [eq_comm] using hfeed, .inl rfl⟩
    | cons line before => simp at h
  | case5 b rest hfeed hreturn first lines hlines ih =>
    cases before with
    | nil =>
      obtain ⟨rfl, rfl⟩ := List.cons.inj h
      obtain ⟨start, after, hat⟩ := @ih [] first hlines
      have hstart := hat.start_eq_nil
      refine ⟨[], after, ?_, rfl, .inl rfl, ?_, hat.ends⟩
      · rw [hat.content_eq, hstart]
        rfl
      · exact fun hmem => (List.mem_cons.mp hmem).elim (fun h => hfeed h.symm) hat.within
    | cons line before =>
      obtain ⟨rfl, htail⟩ := List.cons.inj h
      obtain ⟨start, after, hat⟩ := @ih (first :: before) bytes (by rw [hlines, htail]; rfl)
      have hlast := hat.begins.resolve_left hat.start_ne_nil
      refine ⟨b :: start, after, congrArg _ hat.content_eq, ?_, .inr ?_, hat.within, hat.ends⟩
      · rw [List.count_cons_of_ne hfeed, hat.feeds]
        rfl
      · rw [List.getLast?_cons, hlast, Option.getD_some]

end Script

def ScriptFault.ofLine (path : String) (n : Nat) : Option RecordFault → ScriptFault
  | some fault => .line path n fault
  | none => .notText

namespace Script

variable {e : Script} {path : String} {files : Files}

private theorem addLines_of_lineFails {bytes : List UInt8} {why : Option RecordFault}
    (h : LineFails bytes why) (n : Nat) (rest : List (List UInt8)) :
    e.addLines path n (bytes :: rest) = .error (.ofLine path n why) := by
  cases h with
  | notText htext => rw [addLines, htext, ScriptFault.ofLine]
  | malformed htext hblank hrecord =>
    rw [addLines_record htext hblank, addLine_eq_error_iff.mpr (.inl ⟨hrecord, rfl⟩),
      ScriptFault.ofLine]
  | record htext hblank hrecord hfails =>
    rw [addLines_record htext hblank, addLine_eq_error_iff.mpr (.inr ⟨_, hrecord, hfails⟩),
      ScriptFault.ofLine]

private theorem lineFails_unique {bytes : List UInt8} {why why' : Option RecordFault}
    (h : LineFails bytes why) (h' : LineFails bytes why') : why = why' := by
  have hreported : Except.error (ScriptFault.ofLine "" 0 why) = .error (.ofLine "" 0 why') :=
    (addLines_of_lineFails (e := {}) h 0 []).symm.trans (addLines_of_lineFails h' 0 [])
  cases why <;> cases why' <;> cases hreported <;> rfl

theorem addLines_eq_error_iff {n : Nat} {lines : List (List UInt8)} {fault : ScriptFault} :
    e.addLines path n lines = .error fault ↔ ∃ before bytes after why,
      lines = before ++ bytes :: after ∧ (∀ line ∈ before, ∃ held, LineHolds line held) ∧
        LineFails bytes why ∧ fault = .ofLine path (n + before.length) why := by
  induction lines generalizing e n with
  | nil =>
    refine ⟨nofun, ?_⟩
    rintro ⟨before, bytes, after, why, hlines, -⟩
    simp at hlines
  | cons first rest ih =>
    by_cases hfirst : ∃ held, LineHolds first held
    · obtain ⟨held, hheld⟩ := hfirst
      rw [addLines_of_lineHolds hheld, ih]
      constructor
      · rintro ⟨before, bytes, after, why, rfl, hbefore, hwhy, rfl⟩
        refine ⟨first :: before, bytes, after, why, rfl,
          List.forall_mem_cons.mpr ⟨⟨held, hheld⟩, hbefore⟩, hwhy, ?_⟩
        rw [List.length_cons, Nat.add_right_comm, Nat.add_assoc]
      · rintro ⟨before, bytes, after, why, hlines, hbefore, hwhy, rfl⟩
        cases before with
        | nil =>
          obtain ⟨rfl, rfl⟩ := List.cons.inj hlines
          exact absurd ⟨held, hheld⟩ (exists_lineFails_iff.mp ⟨why, hwhy⟩)
        | cons line before =>
          obtain ⟨rfl, rfl⟩ := List.cons.inj hlines
          refine ⟨before, bytes, after, why, rfl,
            fun l hl => hbefore l (List.mem_cons_of_mem _ hl), hwhy, ?_⟩
          rw [List.length_cons, Nat.add_right_comm, Nat.add_assoc]
    · obtain ⟨why, hwhy⟩ := exists_lineFails_iff.mpr hfirst
      rw [addLines_of_lineFails hwhy]
      constructor
      · intro h
        cases h
        exact ⟨[], first, rest, why, rfl, nofun, hwhy, rfl⟩
      · rintro ⟨before, bytes, after, why', hlines, hbefore, hwhy', rfl⟩
        cases before with
        | nil =>
          obtain ⟨rfl, rfl⟩ := List.cons.inj hlines
          obtain rfl := lineFails_unique hwhy hwhy'
          rfl
        | cons line before =>
          obtain ⟨rfl, rfl⟩ := List.cons.inj hlines
          exact absurd (hbefore first List.mem_cons_self) hfirst

private theorem load_of_file {content : ByteArray}
    (hfile : files.get? path = some (.file content)) :
    load files path = addLines path {} 1 (splitLines content.data.toList) := by
  rw [load, hfile]

/-- A script that can be read is refused exactly if one of its lines is neither blank nor holds a
batch. The fault is that of the first such line, whose number is one more than that of the lines,
and of the line feeds, before it. A line that is text is reported by the name of the file, the
number and what is wrong with the record; of a line that is no text nothing is said. -/
theorem faulty_script_names_first_line {content : ByteArray}
    (hfile : files.get? path = some (.file content)) :
    ((∃ fault, load files path = .error fault) ↔
      ∃ line ∈ splitLines content.data.toList, ¬∃ held, LineHolds line held) ∧
    ∀ fault, load files path = .error fault → ∃ before bytes after why,
      splitLines content.data.toList = before ++ bytes :: after ∧
      (∀ line ∈ before, ∃ held, LineHolds line held) ∧ (¬∃ held, LineHolds bytes held) ∧
      (∃ start rest, LineAt content.data.toList bytes before.length start rest) ∧
      LineFails bytes why ∧ fault.message = match why with
        | some why => s!"{path}:{before.length + 1}: {why.message}"
        | none => "" := by
  rw [load_of_file hfile]
  have hfirst (fault : ScriptFault)
      (h : addLines path {} 1 (splitLines content.data.toList) = .error fault) :
      ∃ before bytes after why, splitLines content.data.toList = before ++ bytes :: after ∧
        (∀ line ∈ before, ∃ held, LineHolds line held) ∧ LineFails bytes why ∧
        fault = .ofLine path (before.length + 1) why := by
    obtain ⟨before, bytes, after, why, hlines, hbefore, hwhy, rfl⟩ := addLines_eq_error_iff.mp h
    exact ⟨before, bytes, after, why, hlines, hbefore, hwhy, by rw [Nat.add_comm]⟩
  refine ⟨⟨?_, ?_⟩, ?_⟩
  · rintro ⟨fault, h⟩
    obtain ⟨before, bytes, after, why, hlines, -, hwhy, -⟩ := hfirst fault h
    refine ⟨bytes, ?_, exists_lineFails_iff.mp ⟨why, hwhy⟩⟩
    rw [hlines]
    exact List.mem_append_right _ List.mem_cons_self
  · rintro ⟨line, hline, hnot⟩
    cases hload : addLines path {} 1 (splitLines content.data.toList) with
    | error fault => exact ⟨fault, rfl⟩
    | ok more =>
      obtain ⟨held, hall, -⟩ := addLines_eq_ok_iff.mp hload
      obtain ⟨first, -, hfirst⟩ := exists_of_forall₂ hall line hline
      exact absurd ⟨first, hfirst⟩ hnot
  · intro fault h
    obtain ⟨before, bytes, after, why, hlines, hbefore, hwhy, rfl⟩ := hfirst fault h
    refine ⟨before, bytes, after, why, hlines, hbefore, exists_lineFails_iff.mp ⟨why, hwhy⟩,
      exists_lineAt hlines, hwhy, ?_⟩
    cases why with
    | none => rfl
    | some why => rfl

def namelessRecord : JsonValue :=
  .object [("push", .array
    [.object [("payload", .text "x"), ("guid", .text "zz"), ("queue_uri", .text "q")]])]

/-- Two scripts with a blank line, and a faulty one behind it: a record, and what is no text. -/
def faultyScripts : Files where
  entries := [("a", .file (" \r\n" ++ namelessRecord.render ++ "\n").toUTF8),
    ("b", .file ⟨#[0x20, 0x0A, 0xFF, 0x0A]⟩)]

private theorem get?_faultyScripts :
    faultyScripts.get? "a" = some (.file (" \r\n" ++ namelessRecord.render ++ "\n").toUTF8) ∧
      faultyScripts.get? "b" = some (.file ⟨#[0x20, 0x0A, 0xFF, 0x0A]⟩) :=
  Files.get?_pair _ _

private theorem lineHolds_space : LineHolds [0x20] none := by
  have hspace : String.fromUTF8? ⟨([0x20] : List UInt8).toArray⟩ = some " " := by decide +kernel
  exact .blank hspace rfl

private theorem lineFails_nameless :
    LineFails namelessRecord.render.toUTF8.data.toList (some (.invalidGuid "zz")) := by
  have htext : String.fromUTF8? ⟨namelessRecord.render.toUTF8.data.toList.toArray⟩ =
      some namelessRecord.render := by
    rw [Array.toArray_toList]
    exact Property.fromUTF8?_bytes _
  have hblank : Text.isBlank namelessRecord.render = false := by
    rw [Text.isBlank, JsonValue.render, String.toList_ofList]
    rfl
  have hrecord : ScriptRecord.ofLine? namelessRecord.render =
      some (.push [⟨"x", "zz", "q", []⟩]) := by
    rw [ScriptRecord.ofLine?, JsonValue.parse?_render]
    exact ScriptRecord.ofTree?_push rfl
  have hguid : Guid.ofHex? "zz" = none := by decide +kernel
  exact .record htext hblank hrecord
    (@ScriptRecord.Fails.push [] [] _ _ (List.forall_mem_nil _) (.guid hguid))

private theorem lineFails_textless : LineFails [0xFF] none :=
  .notText (by decide +kernel)

theorem faulty_script_names_second_line :
    faultyScripts.get? "a" = some (.file (" \r\n" ++ namelessRecord.render ++ "\n").toUTF8) ∧
      ∃ fault, load faultyScripts "a" = .error fault ∧
        fault.message = "a:2: invalid GUID 'zz'" := by
  refine ⟨get?_faultyScripts.1, ?_⟩
  obtain ⟨hfails, hnamed⟩ := faulty_script_names_first_line get?_faultyScripts.1
  have hlines : splitLines (" \r\n" ++ namelessRecord.render ++ "\n").toUTF8.data.toList =
      [[0x20], namelessRecord.render.toUTF8.data.toList] := by
    decide +kernel
  obtain ⟨fault, hfault⟩ := hfails.mpr ⟨namelessRecord.render.toUTF8.data.toList,
    by rw [hlines]; simp, exists_lineFails_iff.mp ⟨_, lineFails_nameless⟩⟩
  refine ⟨fault, hfault, ?_⟩
  obtain ⟨before, bytes, after, why, hsplit, -, hnot, -, hwhy, hmessage⟩ := hnamed fault hfault
  rw [hlines] at hsplit
  cases before with
  | nil =>
    obtain ⟨rfl, -⟩ := List.cons.inj hsplit
    exact absurd ⟨none, lineHolds_space⟩ hnot
  | cons line before =>
    obtain ⟨rfl, hrest⟩ := List.cons.inj hsplit
    cases before with
    | nil =>
      obtain ⟨rfl, -⟩ := List.cons.inj hrest
      obtain rfl := lineFails_unique lineFails_nameless hwhy
      exact hmessage.trans (by decide +kernel)
    | cons line before => simp at hrest

/-- A line that is no text is not named. -/
theorem textless_line_not_named :
    ∃ content, faultyScripts.get? "b" = some (.file content) ∧
      splitLines content.data.toList = [[0x20], [0xFF]] ∧
      (∃ held, LineHolds [0x20] held) ∧ (¬∃ held, LineHolds [0xFF] held) ∧
      ∃ fault, load faultyScripts "b" = .error fault ∧ fault.message = "" := by
  refine ⟨_, get?_faultyScripts.2, by decide, ⟨none, lineHolds_space⟩,
    exists_lineFails_iff.mp ⟨none, lineFails_textless⟩, .notText, ?_, rfl⟩
  rw [load_of_file get?_faultyScripts.2, addLines_eq_error_iff]
  exact ⟨[[0x20]], [0xFF], [], none, by decide,
    List.forall_mem_singleton.mpr ⟨none, lineHolds_space⟩, lineFails_textless, rfl⟩

end Script

end BrokerBridge
