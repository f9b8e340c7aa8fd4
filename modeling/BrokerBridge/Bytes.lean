/-!
# Bytes

Byte arrays are compared by what they hold.
-/

namespace BrokerBridge

instance decidableEqBytes : DecidableEq ByteArray := fun a b =>
  decidable_of_iff (a.data = b.data) ByteArray.ext_iff.symm

instance lawfulBEqBytes : LawfulBEq ByteArray where
  eq_of_beq {a b} h := by
    cases a; cases b
    exact congrArg ByteArray.mk (eq_of_beq h)
  rfl {a} := by
    cases a
    exact beq_self_eq_true (α := Array UInt8) _

end BrokerBridge
