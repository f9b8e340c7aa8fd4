/-!
# Words

The whole numbers that a count of bits has room for.
-/

namespace BrokerBridge.Word

def count (bits : Nat) : Nat := Nat.pow 2 bits

/-- The number fits into so many bits without a sign. -/
def isUnsigned (bits n : Nat) : Bool := n < count bits

def isSigned (bits : Nat) (i : Int) : Bool :=
  match i with
  | .ofNat n => n < count (bits - 1)
  | .negSucc n => n < count (bits - 1)

theorem isSigned_iff {bits : Nat} {i : Int} :
    isSigned bits i = true ↔ -(count (bits - 1) : Int) ≤ i ∧ i < count (bits - 1) := by
  unfold isSigned
  cases i with
  | ofNat n =>
    simp only [decide_eq_true_eq, Int.ofNat_eq_natCast]
    omega
  | negSucc n =>
    simp only [decide_eq_true_eq]
    omega

theorem isSigned_mono {bits more : Nat} {i : Int} (h : isSigned bits i = true)
    (hmore : bits ≤ more) : isSigned more i = true := by
  have hcount : count (bits - 1) ≤ count (more - 1) :=
    Nat.pow_le_pow_right (by decide) (Nat.sub_le_sub_right hmore 1)
  rw [isSigned_iff] at h ⊢
  omega

end BrokerBridge.Word
