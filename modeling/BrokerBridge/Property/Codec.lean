import BrokerBridge.Property.Wire
import BrokerBridge.Text.Utf8

/-!
# Encoding and decoding properties

`encode` sends a whole property set or fails at its first entry that does not fit its tag.
`decode` never fails: what the host cannot represent is skipped, with one error for each.
-/

namespace BrokerBridge

inductive IntWidth where
  | short | int32 | int64
deriving DecidableEq, Repr

namespace IntWidth

def min : IntWidth → Int
  | short => -32768
  | int32 => -2147483648
  | int64 => -9223372036854775808

def max : IntWidth → Int
  | short => 32767
  | int32 => 2147483647
  | int64 => 9223372036854775807

def wire : IntWidth → Int → WireValue
  | short, n => .short (.ofInt n)
  | int32, n => .int32 (.ofInt n)
  | int64, n => .int64 (.ofInt n)

end IntWidth

inductive PropertyError where
  | typeMismatch (key : ByteArray) (found expected : HostShape)
  | charWidth (key : ByteArray) (length : Nat)
  | outOfRange (key : ByteArray) (width : IntWidth)
  | unsupportedType (key : ByteArray) (tag : PropertyTag)
  | rejected (key : ByteArray) (code : Int)
  | overrideWithoutValue (key : ByteArray)
deriving DecidableEq

/-- The kind by which a host tells failures apart. -/
def PropertyError.kind : PropertyError → String
  | typeMismatch .. => "TypeMismatch"
  | charWidth .. => "CharWidth"
  | outOfRange .. => "RangeError"
  | unsupportedType .. => "UnsupportedType"
  | rejected .. => "Rejected"
  | overrideWithoutValue .. => "UnknownOverride"

def PropertyError.message : PropertyError → String
  | typeMismatch key found expected =>
      s!"'{Utf8.lossy key}' value is of the incorrect type, '{found.name}' provided, " ++
        s!"'{expected.name}' expected."
  | charWidth key length =>
      s!"'{Utf8.lossy key}' value does not have exactly 1 byte, {length} bytes provided."
  | outOfRange key width =>
      s!"Property {Utf8.lossy key} value must be between [{width.min}, {width.max}], inclusive"
  | unsupportedType _ tag => s!"Unsupported property type {tag.describe}"
  | rejected key code => s!"Failed to set key '{Utf8.lossy key}' with rc: {code}"
  | overrideWithoutValue key => s!"'{Utf8.lossy key}' has a type override but no value"

/-- A property that was skipped while decoding. -/
inductive DecodeError where
  | nonUtf8String (key : ByteArray)
  | unrecognizedType (key : ByteArray) (typeCode : Int)
deriving DecidableEq

def DecodeError.kind : DecodeError → String
  | nonUtf8String _ => "NonUtf8String"
  | unrecognizedType .. => "UnrecognizedType"

def DecodeError.message : DecodeError → String
  | nonUtf8String key => s!"STRING property '{Utf8.lossy key}' has non-UTF-8 data"
  | unrecognizedType key typeCode =>
      s!"'{Utf8.lossy key}' property type is unrecognized, type {typeCode} received."

namespace Property

/-- An integer sent at a width it fits into. -/
def narrow (key : ByteArray) (width : IntWidth) : HostValue → Except PropertyError WireValue
  | .int n =>
      if width.min ≤ n ∧ n ≤ width.max then .ok (width.wire n) else .error (.outOfRange key width)
  | v => .error (.typeMismatch key v.shape .int)

def encodeValue (key : ByteArray) (value : HostValue) (tag : PropertyTag) :
    Except PropertyError WireValue :=
  match tag.type?, value with
  | none, _ | some .undefined, _ => .error (.unsupportedType key tag)
  | some .bool, .bool flag => .ok (.bool flag)
  | some .bool, v => .error (.typeMismatch key v.shape .bool)
  | some .char, .bytes data =>
      if h : data.size = 1 then .ok (.char data[0]) else .error (.charWidth key data.size)
  | some .char, v => .error (.typeMismatch key v.shape .bytes)
  | some .short, v => narrow key .short v
  | some .int32, v => narrow key .int32 v
  | some .int64, v => narrow key .int64 v
  | some .string, .str text => .ok (.string text.toUTF8)
  | some .string, .bytes data => .ok (.string data)
  | some .string, v => .error (.typeMismatch key v.shape .str)
  | some .binary, .bytes data => .ok (.binary data)
  | some .binary, v => .error (.typeMismatch key v.shape .bytes)

/-- Encode entries one after another into a container, up to the first failure. -/
def encodeInto (w : WireProperties) :
    List (ByteArray × HostValue × PropertyTag) → Except PropertyError WireProperties
  | [] => .ok w
  | (key, value, tag) :: rest =>
      match encodeValue key value tag with
      | .error e => .error e
      | .ok wire =>
          let (rc, w) := w.set key wire
          if rc = Code.success then encodeInto w rest else .error (.rejected key rc)

def encode (s : PropertySet) : Except PropertyError WireProperties :=
  encodeInto .empty s.entries

/-- The host value and type of a wire value, or why the host has none for it. -/
def decodeValue (key : ByteArray) : WireValue → Except DecodeError (HostValue × PropertyType)
  | .bool flag => .ok (.bool flag, .bool)
  | .char byte => .ok (.bytes ⟨#[byte]⟩, .char)
  | .short n => .ok (.int n.toInt, .short)
  | .int32 n => .ok (.int n.toInt, .int32)
  | .int64 n => .ok (.int n.toInt, .int64)
  | .string data =>
      match String.fromUTF8? data with
      | some text => .ok (.str text, .string)
      | none => .error (.nonUtf8String key)
  | .binary data => .ok (.bytes data, .binary)
  | .unrecognized typeCode => .error (.unrecognizedType key typeCode)

/-- Decode entries one after another into a set, with the errors of those skipped. -/
def decodeInto (s : PropertySet) :
    List (ByteArray × WireValue) → PropertySet × List DecodeError
  | [] => (s, [])
  | (key, value) :: rest =>
      match decodeValue key value with
      | .ok (host, type) => decodeInto (s.insert key (host, .ofType type)) rest
      | .error e =>
          let (s, errors) := decodeInto s rest
          (s, e :: errors)

def decode (w : WireProperties) : PropertySet × List DecodeError :=
  decodeInto .empty w.entries

/-- Retag the entries that the overrides name; the first one that names no entry fails. -/
def applyOverrides (s : PropertySet) :
    List (ByteArray × PropertyTag) → Except PropertyError PropertySet
  | [] => .ok s
  | (key, tag) :: rest =>
      match s.get? key with
      | some (value, _) => applyOverrides (s.insert key (value, tag)) rest
      | none => .error (.overrideWithoutValue key)

/-- Tag each value by its shape, then by the overrides. -/
def infer (values : List (ByteArray × HostValue)) (overrides : List (ByteArray × PropertyTag)) :
    Except PropertyError PropertySet :=
  applyOverrides (.ofList (values.map fun e => (e.1, e.2, e.2.defaultTag))) overrides

end Property

end BrokerBridge
