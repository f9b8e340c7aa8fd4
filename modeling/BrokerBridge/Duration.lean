import BrokerBridge.Decimal.Shortest

/-!
# Durations

Lengths of time in whole nanoseconds.
-/

namespace BrokerBridge

structure Duration where
  nanos : Nat
deriving DecidableEq, Repr

namespace Duration

def nanosPerSecond : Nat := 1000000000

def ofSeconds (s : Nat) : Duration := ⟨s * nanosPerSecond⟩

def seconds (d : Duration) : Nat := d.nanos / nanosPerSecond

def subsecond (d : Duration) : Nat := d.nanos % nanosPerSecond

def isZero (d : Duration) : Bool := d.nanos == 0

def secondsLimit : Nat := Word.count 64

/-- A number of seconds, of which what is left below a nanosecond is cut off. A negative number
and one that has too many seconds are no durations. -/
def ofFloat? (x : Float) : Option Duration :=
  match Decimal.Binary.ofFloat? (x * Float.ofNat nanosPerSecond) with
  | none => none
  | some (negative, size) =>
      if negative && !size.isZero then none
      else if size.floor < secondsLimit * nanosPerSecond then some ⟨size.floor⟩
      else none

theorem seconds_ofSeconds (s : Nat) : (ofSeconds s).seconds = s :=
  Nat.mul_div_cancel s (by decide)

end Duration

end BrokerBridge
