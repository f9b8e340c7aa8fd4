/-!
# Hexadecimal text

Bytes as pairs of hexadecimal digits. Reading takes either letter case.
-/

namespace BrokerBridge.Hex

def digitValue? (c : Char) : Option UInt8 :=
  if '0' ≤ c ∧ c ≤ '9' then some (c.toNat - '0'.toNat).toUInt8
  else if 'a' ≤ c ∧ c ≤ 'f' then some (c.toNat - 'a'.toNat + 10).toUInt8
  else if 'A' ≤ c ∧ c ≤ 'F' then some (c.toNat - 'A'.toNat + 10).toUInt8
  else none

/-- Two digits a byte; an odd count of digits or any other character is refused. -/
def decodeChars? : List Char → Option (List UInt8)
  | [] => some []
  | [_] => none
  | hi :: lo :: rest => do
      let h ← digitValue? hi
      let l ← digitValue? lo
      let bytes ← decodeChars? rest
      return (h * 16 + l) :: bytes

def decode? (s : String) : Option ByteArray :=
  (decodeChars? s.toList).map fun bytes => ⟨bytes.toArray⟩

def lowerDigit (n : UInt8) : Char :=
  if n < 10 then Char.ofNat ('0'.toNat + n.toNat) else Char.ofNat ('a'.toNat + n.toNat - 10)

def upperDigit (n : UInt8) : Char :=
  if n < 10 then Char.ofNat ('0'.toNat + n.toNat) else Char.ofNat ('A'.toNat + n.toNat - 10)

def encodeWith (digit : UInt8 → Char) (bytes : List UInt8) : List Char :=
  bytes.flatMap fun b => [digit (b / 16), digit (b % 16)]

def lower (bytes : ByteArray) : String := String.ofList (encodeWith lowerDigit bytes.data.toList)

def upper (bytes : ByteArray) : String := String.ofList (encodeWith upperDigit bytes.data.toList)

/-! ## There and back -/

theorem digitValue?_lowerDigit {n : UInt8} (h : n.toNat < 16) :
    digitValue? (lowerDigit n) = some n := by
  have hall : ∀ k < 16, digitValue? (lowerDigit (.ofNat k)) = some (.ofNat k) := by decide
  simpa using hall n.toNat h

theorem digitValue?_upperDigit {n : UInt8} (h : n.toNat < 16) :
    digitValue? (upperDigit n) = some n := by
  have hall : ∀ k < 16, digitValue? (upperDigit (.ofNat k)) = some (.ofNat k) := by decide
  simpa using hall n.toNat h

/-- Two digits for each byte, each in either letter case. -/
inductive Spells : List Char → List UInt8 → Prop where
  | nil : Spells [] []
  | cons {b : UInt8} {hi lo : Char} {cs : List Char} {bytes : List UInt8}
      (high : hi = lowerDigit (b / 16) ∨ hi = upperDigit (b / 16))
      (low : lo = lowerDigit (b % 16) ∨ lo = upperDigit (b % 16)) (rest : Spells cs bytes) :
      Spells (hi :: lo :: cs) (b :: bytes)

theorem digitValue?_of_case {c : Char} {n : UInt8} (h : c = lowerDigit n ∨ c = upperDigit n)
    (hn : n.toNat < 16) : digitValue? c = some n := by
  rcases h with rfl | rfl
  · exact digitValue?_lowerDigit hn
  · exact digitValue?_upperDigit hn

theorem decodeChars?_of_spells {cs : List Char} {bytes : List UInt8} (h : Spells cs bytes) :
    decodeChars? cs = some bytes := by
  induction h with
  | nil => rfl
  | @cons b hi lo cs bytes high low _ ih =>
    have hb : b.toNat < 256 := b.toNat_lt
    have hdiv : (b / 16).toNat = b.toNat / 16 := UInt8.toNat_div ..
    have hmod : (b % 16).toNat = b.toNat % 16 := UInt8.toNat_mod ..
    have hbyte : b / 16 * 16 + b % 16 = b := by
      rw [← UInt8.toNat_inj, UInt8.toNat_add, UInt8.toNat_mul, hdiv, hmod]
      show (b.toNat / 16 * 16 % 256 + b.toNat % 16) % 256 = b.toNat
      omega
    rw [decodeChars?, digitValue?_of_case high (by omega), digitValue?_of_case low (by omega), ih]
    simp [hbyte]

theorem decode?_of_spells {text : String} {data : ByteArray}
    (h : Spells text.toList data.data.toList) : decode? text = some data := by
  rw [decode?, decodeChars?_of_spells h]
  rfl

theorem spells_encodeWith {digit : UInt8 → Char}
    (h : ∀ n, digit n = lowerDigit n ∨ digit n = upperDigit n) (bytes : List UInt8) :
    Spells (encodeWith digit bytes) bytes := by
  induction bytes with
  | nil => exact .nil
  | cons b rest ih => exact .cons (h _) (h _) ih

def Writes (hex : ByteArray → String) : Prop :=
  ∀ data, Spells (hex data).toList data.data.toList

theorem writes_lower : Writes lower := by
  intro data
  rw [lower, String.toList_ofList]
  exact spells_encodeWith (fun _ => .inl rfl) _

theorem writes_upper : Writes upper := by
  intro data
  rw [upper, String.toList_ofList]
  exact spells_encodeWith (fun _ => .inr rfl) _

theorem Writes.decode? {hex : ByteArray → String} (h : Writes hex) (data : ByteArray) :
    decode? (hex data) = some data :=
  decode?_of_spells (h data)

end BrokerBridge.Hex
