import BrokerBridge.Bytes
import BrokerBridge.Code
import BrokerBridge.OrderedMap

/-!
# Properties as the host sees them

A host value has one of four shapes and carries the integer tag of the type it is to be sent
as. A tag may hold any integer: whether it names a type is decided when the value is encoded.
-/

namespace BrokerBridge

inductive PropertyType where
  | undefined | bool | char | short | int32 | int64 | string | binary
deriving DecidableEq, Repr

namespace PropertyType

def all : List PropertyType :=
  [undefined, bool, char, short, int32, int64, string, binary]

def code : PropertyType → Int
  | undefined => 0
  | bool => 1
  | char => 2
  | short => 3
  | int32 => 4
  | int64 => 5
  | string => 6
  | binary => 7

def name : PropertyType → String
  | undefined => "UNDEFINED"
  | bool => "BOOL"
  | char => "CHAR"
  | short => "SHORT"
  | int32 => "INT32"
  | int64 => "INT64"
  | string => "STRING"
  | binary => "BINARY"

def table : CodeTable := ⟨all.map fun t => (t.code, t.name)⟩

def ofCode? (c : Int) : Option PropertyType :=
  all.find? (·.code == c)

@[simp] theorem ofCode?_code (t : PropertyType) : ofCode? t.code = some t := by
  cases t <;> rfl

theorem code_of_ofCode? {c : Int} {t : PropertyType} (h : ofCode? c = some t) : t.code = c := by
  have := List.find?_some h
  simpa using this

end PropertyType

def CodeTable.named : List (String × CodeTable) :=
  [("generic", Code.generic), ("open_queue", Code.openQueue),
    ("configure_queue", Code.configureQueue), ("close_queue", Code.closeQueue),
    ("post", Code.post), ("ack", Code.ack), ("event_builder", Code.packing),
    ("session_event", SessionEventKind.table), ("message_event", MessageEventKind.table),
    ("property", PropertyType.table)]

inductive HostShape where
  | bool | int | bytes | str
deriving DecidableEq, Repr

def HostShape.name : HostShape → String
  | bool => "bool"
  | int => "int"
  | bytes => "bytes"
  | str => "str"

/-- A value as host code holds it. Integers are unbounded here. -/
inductive HostValue where
  | bool (flag : Bool)
  | int (value : Int)
  | bytes (data : ByteArray)
  | str (text : String)
deriving DecidableEq

structure PropertyTag where
  code : Int
deriving DecidableEq, Repr

namespace PropertyTag

def ofType (t : PropertyType) : PropertyTag := ⟨t.code⟩

def type? (tag : PropertyTag) : Option PropertyType := PropertyType.ofCode? tag.code

/-- The code followed by the name in parentheses. -/
def describe (tag : PropertyTag) : String :=
  toString tag.code ++ " (" ++ PropertyType.table.name tag.code ++ ")"

@[simp] theorem type?_ofType (t : PropertyType) : (ofType t).type? = some t :=
  PropertyType.ofCode?_code t

end PropertyTag

namespace HostValue

def shape : HostValue → HostShape
  | bool _ => .bool
  | int _ => .int
  | bytes _ => .bytes
  | str _ => .str

/-- The type a value is sent as when the host declares none. -/
def defaultType : HostValue → PropertyType
  | bool _ => .bool
  | int _ => .int64
  | bytes _ => .binary
  | str _ => .string

def defaultTag (v : HostValue) : PropertyTag := .ofType v.defaultType

end HostValue

/-- The properties of one message, by key, in order of first insertion. -/
abbrev PropertySet := OrderedMap ByteArray (HostValue × PropertyTag)

end BrokerBridge
