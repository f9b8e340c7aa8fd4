import BrokerBridge.Files
import BrokerBridge.OrderedMap
import BrokerBridge.Replay.Script
import BrokerBridge.Text.Blank
import BrokerBridge.Text.Hex
import BrokerBridge.Text.Json

/-!
# Script files

A script file holds one JSON record on each line: a batch of messages to push or a batch of
acknowledgements. Blank lines are passed over. A script is loaded whole or not at all, and a
fault names the first line that has one.
-/

namespace BrokerBridge

inductive PropertyFault where
  /-- The number, as it is shown, is not a whole one of 64 signed bits. -/
  | notInteger (shown : String)
  | notHex
  | unsupported (shown : String)
deriving DecidableEq, Repr

inductive RecordFault where
  | malformed
  | invalidGuid (text : String)
  | property (key : String) (fault : PropertyFault)
deriving DecidableEq, Repr

inductive ScriptFault where
  | cannotOpen (path : String)
  /-- A line, or the whole file, cannot be read as text. -/
  | notText
  | line (path : String) (number : Nat) (fault : RecordFault)
deriving DecidableEq, Repr

def RecordFault.message : RecordFault → String
  | malformed => "malformed record"
  | invalidGuid text => s!"invalid GUID '{text}'"
  | property key (.notInteger shown) => s!"property '{key}' must be an integer, got {shown}"
  | property key .notHex => s!"property '{key}' must be hex encoded"
  | property key (.unsupported shown) => s!"property '{key}' has unsupported value {shown}"

def ScriptFault.message : ScriptFault → String
  | cannotOpen path => s!"unable to open script file {path}"
  | notText => ""
  | line path number fault => s!"{path}:{number}: {fault.message}"

/-! ## Records -/

/-- The fields of a record, in the order of `names`. A record is an object with each field at
most once, beside which other members are ignored, or an array of the first fields in order. -/
def JsonTree.fields? (names : List String) : JsonTree → Option (List (Option JsonTree))
  | .array items =>
      if items.length ≤ names.length then
        some (items.map some ++ List.replicate (names.length - items.length) none)
      else none
  | .object members =>
      if members.all (·.1.isSome) &&
          names.all fun n => (members.filter (·.1 == some n)).length ≤ 1 then
        some (names.map fun n => members.lookup (some n))
      else none
  | _ => none

def JsonTree.text? : JsonTree → Option String
  | .string s => s
  | _ => none

def JsonTree.items? : JsonTree → Option (List JsonTree)
  | .array items => some items
  | _ => none

def JsonTree.signed? (bits : Nat) : JsonTree → Option Int
  | .number n => n.int64?.filter (Word.isSigned bits)
  | _ => none

structure WrittenProperty where
  value : JsonTree
  /-- The value as it is shown. -/
  shown : String
  code : Int

structure WrittenPush where
  payload : String
  guid : String
  queueUri : String
  properties : List (String × WrittenProperty)

structure WrittenAck where
  status : Int
  guid : String
  queueUri : String
  correlation : AckToken

inductive ScriptRecord where
  | push (batch : List WrittenPush)
  | ack (batch : List WrittenAck)

namespace ScriptRecord

/-- A text may nest 127 values; a property's value is the sixth from the outside. -/
def valueDepth : Nat := 122

def property? : JsonTree → Option WrittenProperty
  | .array [value, code] => do
      return ⟨value, ← value.render? valueDepth, ← code.signed? 64⟩
  | _ => none

/-- A repeated key keeps its place and takes its last value. -/
def properties? : JsonTree → Option (List (String × WrittenProperty))
  | .object members => do
      let read ← members.mapM fun (k, v) => return (← k, ← property? v)
      return read.foldl (fun l e => upsert e.1 e.2 l) []
  | _ => none

def push? (t : JsonTree) : Option WrittenPush := do
  match ← t.fields? ["payload", "guid", "queue_uri", "properties"] with
  | [some payload, some guid, some queueUri, properties] =>
      return ⟨← payload.text?, ← guid.text?, ← queueUri.text?,
        ← (properties.map properties?).getD (some [])⟩
  | _ => none

/-- The name alone, or an object with the name for its key and nothing for its value. -/
def correlation? : JsonTree → Option AckToken
  | .string name => named name
  | .object [(name, .null)] => named name
  | _ => none
where
  named : Option String → Option AckToken
    | some "posted" => some .posted
    | some "unset" => some .unset
    | _ => none

def ack? (t : JsonTree) : Option WrittenAck := do
  match ← t.fields? ["status", "guid", "queue_uri", "correlation"] with
  | [some status, some guid, some queueUri, correlation] =>
      return ⟨← status.signed? 32, ← guid.text?, ← queueUri.text?,
        ← (correlation.map correlation?).getD (some .posted)⟩
  | _ => none

def ofTree? : JsonTree → Option ScriptRecord
  | .object [(some "push", batch)] => do return push (← (← batch.items?).mapM push?)
  | .object [(some "ack", batch)] => do return ack (← (← batch.items?).mapM ack?)
  | _ => none

def ofLine? (line : String) : Option ScriptRecord := (JsonTree.parse? line).bind ofTree?

end ScriptRecord

/-! ## From records to batches -/

def scriptedGuid (text : String) : Except RecordFault Guid :=
  match Guid.ofHex? text with
  | some guid => .ok guid
  | none => .error (.invalidGuid text)

/-- The value of a property. A text under a type that holds bytes is hexadecimal. -/
def WrittenProperty.hostValue (p : WrittenProperty) : Except PropertyFault HostValue :=
  match p.value with
  | .boolean b => .ok (.bool b)
  | .number n =>
      match n.int64? with
      | some i => .ok (.int i)
      | none => .error (.notInteger p.shown)
  | .string (some text) =>
      match (PropertyTag.mk p.code).type? with
      | some .char | some .binary =>
          match Hex.decode? text with
          | some bytes => .ok (.bytes bytes)
          | none => .error .notHex
      | _ => .ok (.str text)
  | _ => .error (.unsupported p.shown)

def scriptedProperties (properties : List (String × WrittenProperty)) :
    Except RecordFault PropertySet := do
  let entries ← properties.mapM fun (key, p) =>
    match p.hostValue with
    | .ok v => Except.ok (key.toUTF8, v, PropertyTag.mk p.code)
    | .error fault => .error (RecordFault.property key fault)
  return .ofList entries

def WrittenPush.scripted (r : WrittenPush) : Except RecordFault ScriptedPush := do
  let guid ← scriptedGuid r.guid
  let properties ← scriptedProperties r.properties
  return { payload := r.payload.toUTF8, guid, queueUri := r.queueUri, properties }

def WrittenAck.scripted (r : WrittenAck) : Except RecordFault ScriptedAck := do
  let guid ← scriptedGuid r.guid
  return ⟨r.status, guid, r.queueUri, r.correlation⟩

namespace Script

def addLine (e : Script) (line : String) : Except RecordFault Script :=
  match ScriptRecord.ofLine? line with
  | none => .error .malformed
  | some (.push batch) => return e.enqueuePush (← batch.mapM WrittenPush.scripted)
  | some (.ack batch) => return e.enqueueAck (← batch.mapM WrittenAck.scripted)

/-- The lines of a file. A line feed, or a carriage return with a line feed, ends a line. -/
def splitLines : List UInt8 → List (List UInt8)
  | [] => []
  | b :: rest =>
      if b = 0x0A then [] :: splitLines rest
      else if b = 0x0D ∧ rest.head? = some 0x0A then splitLines rest
      else
        match splitLines rest with
        | [] => [[b]]
        | line :: lines => (b :: line) :: lines

def addLines (path : String) (e : Script) (n : Nat) :
    List (List UInt8) → Except ScriptFault Script
  | [] => .ok e
  | bytes :: rest =>
      match String.fromUTF8? ⟨bytes.toArray⟩ with
      | none => .error .notText
      | some line =>
          if Text.isBlank line then e.addLines path (n + 1) rest
          else
            match e.addLine line with
            | .ok e => e.addLines path (n + 1) rest
            | .error fault => .error (.line path n fault)

def load (files : Files) (path : String) : Except ScriptFault Script :=
  match files.get? path with
  | none => .error (.cannotOpen path)
  | some (.directory _) => .error .notText
  | some (.file content) => addLines path {} 1 (splitLines content.data.toList)

end Script

end BrokerBridge
