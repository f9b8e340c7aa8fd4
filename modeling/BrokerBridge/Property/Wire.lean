import BrokerBridge.Property.Value

/-!
# Properties on the wire

The container of the broker's client: a list of keys with typed values, changed only through
`WireProperties.set`, which answers with a result code.
-/

namespace BrokerBridge

inductive WireValue where
  | bool (flag : Bool)
  | char (byte : UInt8)
  | short (value : Int16)
  | int32 (value : Int32)
  | int64 (value : Int64)
  /-- Any bytes at all: whether they are text is decided when they are decoded. -/
  | string (data : ByteArray)
  | binary (data : ByteArray)
  /-- A type that only a newer client knows. -/
  | unrecognized (typeCode : Int)
deriving DecidableEq

def WireValue.typeCode : WireValue → Int
  | bool _ => PropertyType.bool.code
  | char _ => PropertyType.char.code
  | short _ => PropertyType.short.code
  | int32 _ => PropertyType.int32.code
  | int64 _ => PropertyType.int64.code
  | string _ => PropertyType.string.code
  | binary _ => PropertyType.binary.code
  | unrecognized c => c

structure WireProperties where
  entries : List (ByteArray × WireValue)
deriving DecidableEq

namespace WireProperties

def empty : WireProperties := ⟨[]⟩

instance : Inhabited WireProperties := ⟨empty⟩

/-- Store a value. An empty key is refused with the code for an invalid argument. -/
def set (w : WireProperties) (key : ByteArray) (value : WireValue) : Int × WireProperties :=
  if key.isEmpty then (Code.invalidArgument, w)
  else (Code.success, ⟨upsert key value w.entries⟩)

def get? (w : WireProperties) (key : ByteArray) : Option WireValue := w.entries.lookup key

def size (w : WireProperties) : Nat := w.entries.length

def isEmpty (w : WireProperties) : Bool := w.entries.isEmpty

def setAll (w : WireProperties) : List (ByteArray × WireValue) → List Int × WireProperties
  | [] => ([], w)
  | e :: rest =>
      let (rc, w) := w.set e.1 e.2
      let (rcs, w) := w.setAll rest
      (rc :: rcs, w)

def ofList (l : List (ByteArray × WireValue)) : WireProperties := (empty.setAll l).2

end WireProperties

end BrokerBridge
