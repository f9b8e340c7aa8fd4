import BrokerBridge.Word

/-!
# Shortest decimals

A finite float is a whole number times a power of two, and so has an exact place among the
decimals. `Binary.shortest` is the decimal with the fewest digits that lies closer to it than to
any other float; of two such decimals it is the one nearer to the float.
-/

namespace BrokerBridge.Decimal

/-- The size of a finite float: `mantissa * 2 ^ exponent`. -/
structure Binary where
  mantissa : Nat
  exponent : Int
deriving DecidableEq, Repr

/-- The decimal `digits * 10 ^ exponent`. -/
structure Dec where
  digits : Nat
  exponent : Int
deriving DecidableEq, Repr

def twos (e : Int) : Nat := Nat.pow 2 e.toNat

def tens (e : Int) : Nat := Nat.pow 10 e.toNat

namespace Binary

/-- The sign, set for negative, and the size of a finite float; none for the others. -/
def ofFloat? (x : Float) : Option (Bool × Binary) :=
  let bits : Nat := x.toBits.toNat
  let biased : Nat := bits / Word.count 52 % Word.count 11
  let fraction : Nat := bits % Word.count 52
  let negative := bits / Word.count 63 == 1
  if biased = 2047 then none
  else if biased = 0 then some (negative, ⟨fraction, -1074⟩)
  else some (negative, ⟨Word.count 52 + fraction, (biased : Int) - 1075⟩)

def isZero (b : Binary) : Bool := b.mantissa == 0

def floor (b : Binary) : Nat :=
  b.mantissa * twos b.exponent / twos (-b.exponent)

/-- The float below is only half as far away as the float above. -/
def isNarrowBelow (b : Binary) : Bool := b.mantissa == Word.count 52 && -1074 < b.exponent

/-- Compare `n` quarters of the last binary place with a decimal. -/
def compareQuarters (b : Binary) (n : Nat) (d : Dec) : Ordering :=
  let e := b.exponent - 2
  compare (n * twos e * tens (-d.exponent)) (d.digits * tens d.exponent * twos (-e))

/-- The decimal reads back as this float. Halfway to a neighbour it does for an even mantissa. -/
def readsBack (b : Binary) (d : Dec) : Bool :=
  let low := b.compareQuarters (4 * b.mantissa - if b.isNarrowBelow then 1 else 2) d
  let high := b.compareQuarters (4 * b.mantissa + 2) d
  let ends := b.mantissa % 2 == 0
  (low == .lt || (ends && low == .eq)) && (high == .gt || (ends && high == .eq))

def neighbours (b : Binary) (g : Int) : Dec × Dec :=
  let below := b.mantissa * twos b.exponent * tens (-g) / (twos (-b.exponent) * tens g)
  (⟨below, g⟩, ⟨below + 1, g⟩)

/-- The neighbour on a grid that reads back: the nearer one if both do, the even one of two
equally near. -/
def onGrid? (b : Binary) (g : Int) : Option Dec :=
  let (below, above) := b.neighbours g
  match b.readsBack below, b.readsBack above with
  | true, false => some below
  | false, true => some above
  | false, false => none
  | true, true =>
      match b.compareQuarters (8 * b.mantissa) ⟨below.digits + above.digits, g⟩ with
      | .lt => some below
      | .gt => some above
      | .eq => some (if below.digits % 2 = 0 then below else above)

def search (b : Binary) : (count : Nat) → (g : Int) → Option Dec
  | 0, _ => none
  | count + 1, g =>
      match b.onGrid? g with
      | some d => some d
      | none => b.search count (g - 1)

/-- The coarsest grid that has a hit wins: its decimal has the fewest digits. -/
def shortest (b : Binary) : Dec :=
  if b.isZero then ⟨0, 0⟩ else (b.search 660 309).getD ⟨0, 0⟩

theorem readsBack_of_onGrid? {b : Binary} {g : Int} {d : Dec} (h : b.onGrid? g = some d) :
    b.readsBack d = true := by
  unfold onGrid? at h
  grind

theorem readsBack_of_search {b : Binary} {count : Nat} {g : Int} {d : Dec}
    (h : b.search count g = some d) : b.readsBack d = true := by
  induction count generalizing g with
  | zero => simp [search] at h
  | succ count ih =>
      rw [search] at h
      split at h
      · next hit =>
        cases h
        exact readsBack_of_onGrid? hit
      · exact ih h

end Binary

end BrokerBridge.Decimal
