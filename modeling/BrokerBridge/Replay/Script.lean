import BrokerBridge.Message.Basic
import BrokerBridge.Property.Codec

/-!
# Scripts

What a rehearsed client delivers: a batch of messages for each queue that is opened and a batch
of acknowledgements for each post, the front one first.
-/

namespace BrokerBridge

structure ScriptedPush where
  payload : ByteArray
  guid : Guid
  queueUri : String
  properties : PropertySet := .empty
  /-- Sent as it is, in place of the properties. -/
  verbatim : Option WireProperties := none

def ScriptedPush.wire (p : ScriptedPush) : Except PropertyError WireProperties :=
  match p.verbatim with
  | some wire => .ok wire
  | none => Property.encode p.properties

inductive AckToken where
  /-- The token of the post that is being acknowledged. -/
  | posted
  | handle (correlation : Correlation)
  | unset
deriving DecidableEq, Repr

structure ScriptedAck where
  status : Int
  guid : Guid
  queueUri : String
  correlation : AckToken := .posted
deriving DecidableEq

structure Script where
  push : List (List ScriptedPush) := []
  ack : List (List ScriptedAck) := []

namespace Script

instance : Inhabited Script := ⟨{}⟩

def enqueuePush (e : Script) (batch : List ScriptedPush) : Script :=
  { e with push := e.push ++ [batch] }

def enqueueAck (e : Script) (batch : List ScriptedAck) : Script :=
  { e with ack := e.ack ++ [batch] }

def popPush (e : Script) : Option (List ScriptedPush) × Script :=
  (e.push.head?, { e with push := e.push.tail })

def popAck (e : Script) : Option (List ScriptedAck) × Script :=
  (e.ack.head?, { e with ack := e.ack.tail })

/-- Queue every batch of `more` behind those already waiting. -/
def extend (e more : Script) : Script :=
  { push := e.push ++ more.push, ack := e.ack ++ more.ack }

theorem extend_assoc (e₁ e₂ e₃ : Script) :
    (e₁.extend e₂).extend e₃ = e₁.extend (e₂.extend e₃) := by
  simp [extend]

@[simp] theorem extend_empty (e : Script) : e.extend {} = e := by simp [extend]

@[simp] theorem empty_extend (e : Script) : extend {} e = e := by simp [extend]

theorem enqueuePush_eq (e : Script) (batch : List ScriptedPush) :
    e.enqueuePush batch = e.extend { push := [batch] } := by
  simp [enqueuePush, extend]

theorem enqueueAck_eq (e : Script) (batch : List ScriptedAck) :
    e.enqueueAck batch = e.extend { ack := [batch] } := by
  simp [enqueueAck, extend]

end Script

end BrokerBridge
