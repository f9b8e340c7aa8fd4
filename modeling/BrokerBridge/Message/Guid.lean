import BrokerBridge.Bytes
import BrokerBridge.Text.Hex

/-!
# Message identifiers

Sixteen opaque bytes, written as thirty-two upper-case hexadecimal digits.
-/

namespace BrokerBridge

structure Guid where
  bytes : ByteArray
  size_eq : bytes.size = 16
deriving DecidableEq

namespace Guid

def ofBytes? (bytes : ByteArray) : Option Guid :=
  if h : bytes.size = 16 then some ⟨bytes, h⟩ else none

def ofHex? (text : String) : Option Guid := (Hex.decode? text).bind ofBytes?

def render (g : Guid) : String := Hex.upper g.bytes

theorem ofHex?_render (g : Guid) : ofHex? g.render = some g := by
  rw [ofHex?, render, Hex.writes_upper.decode? g.bytes, Option.bind_some, ofBytes?,
    dif_pos g.size_eq]

def zero : Guid := ⟨⟨Array.replicate 16 0⟩, rfl⟩

instance : Inhabited Guid := ⟨zero⟩

end Guid

end BrokerBridge
