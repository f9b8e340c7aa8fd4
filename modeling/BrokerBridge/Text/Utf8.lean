/-!
# Text from bytes that may not be text

`Utf8.lossy` reads bytes as UTF-8 and shows each maximal run that cannot be completed to a
character as one replacement character.
-/

namespace BrokerBridge.Utf8

def replacement : Char := '\ufffd'

def isContinuation (b : UInt8) : Bool := 0x80 ≤ b && b ≤ 0xBF

/-- The second bytes that may follow the lead byte of a longer sequence: no overlong form,
no surrogate and nothing above the last code point. -/
def mayFollow (lead second : UInt8) : Bool :=
  if lead == 0xE0 then 0xA0 ≤ second && second ≤ 0xBF
  else if lead == 0xED then 0x80 ≤ second && second ≤ 0x9F
  else if lead == 0xF0 then 0x90 ≤ second && second ≤ 0xBF
  else if lead == 0xF4 then 0x80 ≤ second && second ≤ 0x8F
  else isContinuation second

/-- How many bytes the sequence opened by a lead byte has; none for a byte that opens none. -/
def width? (lead : UInt8) : Option Nat :=
  if lead < 0x80 then some 1
  else if 0xC2 ≤ lead && lead ≤ 0xDF then some 2
  else if 0xE0 ≤ lead && lead ≤ 0xEF then some 3
  else if 0xF0 ≤ lead && lead ≤ 0xF4 then some 4
  else none

private def low6 (b : UInt8) : Nat := b.toNat % 64

/-- The character, or the replacement, that the bytes begin with, and the bytes after it. -/
def next (lead : UInt8) (rest : List UInt8) : Char × List UInt8 :=
  match width? lead, rest with
  | some 1, rest => (Char.ofNat lead.toNat, rest)
  | some 2, b :: rest =>
      if mayFollow lead b then (Char.ofNat (lead.toNat % 32 * 64 + low6 b), rest)
      else (replacement, b :: rest)
  | some 3, b :: rest =>
      if mayFollow lead b then
        match rest with
        | c :: rest =>
            if isContinuation c then
              (Char.ofNat (lead.toNat % 16 * 4096 + low6 b * 64 + low6 c), rest)
            else (replacement, c :: rest)
        | [] => (replacement, [])
      else (replacement, b :: rest)
  | some 4, b :: rest =>
      if mayFollow lead b then
        match rest with
        | c :: rest =>
            if isContinuation c then
              match rest with
              | d :: rest =>
                  if isContinuation d then
                    (Char.ofNat (lead.toNat % 8 * 262144 + low6 b * 4096 + low6 c * 64 + low6 d),
                      rest)
                  else (replacement, d :: rest)
              | [] => (replacement, [])
            else (replacement, c :: rest)
        | [] => (replacement, [])
      else (replacement, b :: rest)
  | _, rest => (replacement, rest)

theorem length_next_le (lead : UInt8) (rest : List UInt8) :
    (next lead rest).2.length ≤ rest.length := by
  unfold next
  repeat' split
  all_goals simp
  all_goals omega

def lossyChars : List UInt8 → List Char
  | [] => []
  | lead :: rest => (next lead rest).1 :: lossyChars (next lead rest).2
termination_by bytes => bytes.length
decreasing_by
  have := length_next_le lead rest
  simp only [List.length_cons]
  omega

def lossy (bytes : ByteArray) : String := String.ofList (lossyChars bytes.data.toList)

/-! ## Newlines -/

theorem ofNat_eq_newline {n : Nat} : Char.ofNat n = '\n' ↔ n = 10 := by
  constructor
  · intro h
    have hn := congrArg Char.toNat h
    by_cases hvalid : n.isValidChar
    · rw [Char.ofNat, dif_pos hvalid] at hn
      exact hn
    · rw [Char.ofNat, dif_neg hvalid] at hn
      cases hn
  · rintro rfl
    rfl

theorem isContinuation_newline : isContinuation 10 = false := rfl

theorem mayFollow_newline (lead : UInt8) : mayFollow lead 10 = false := by
  grind [mayFollow, isContinuation]

theorem count_next (lead : UInt8) (rest : List UInt8) :
    (next lead rest).2.count 10 = rest.count 10 := by
  unfold next
  repeat' split
  all_goals grind [mayFollow_newline, isContinuation_newline]

theorem lead_of_width? {lead : UInt8} {w : Nat} (h : width? lead = some w) :
    w = 1 ∧ lead.toNat < 0x80 ∨ w = 2 ∧ 0xC2 ≤ lead.toNat ∧ lead.toNat ≤ 0xDF ∨
      w = 3 ∧ 0xE0 ≤ lead.toNat ∧ lead.toNat ≤ 0xEF ∨
      w = 4 ∧ 0xF0 ≤ lead.toNat ∧ lead.toNat ≤ 0xF4 := by
  grind [width?, UInt8.le_iff_toNat_le, UInt8.lt_iff_toNat_lt]

/-- No overlong form: a least lead byte is followed by a second byte that says something. -/
theorem mayFollow.not_overlong {lead second : UInt8} (h : mayFollow lead second = true) :
    (lead.toNat = 0xE0 → 0xA0 ≤ second.toNat ∧ second.toNat ≤ 0xBF) ∧
      (lead.toNat = 0xF0 → 0x90 ≤ second.toNat ∧ second.toNat ≤ 0xBF) := by
  have hlead (n : UInt8) : (lead == n) = decide (lead.toNat = n.toNat) := by
    rw [Bool.eq_iff_iff]
    simp [UInt8.toNat_inj]
  simp only [mayFollow, hlead, UInt8.le_iff_toNat_le] at h
  grind

theorem next_eq_newline {lead : UInt8} {rest : List UInt8} :
    (next lead rest).1 = '\n' ↔ lead = 10 := by
  constructor
  · intro h
    rw [← UInt8.toNat_inj]
    show lead.toNat = 10
    unfold next at h
    repeat' split at h
    -- what more than one byte is read as lies far above the newline
    all_goals
      grind [ofNat_eq_newline, lead_of_width?, mayFollow.not_overlong, low6, replacement]
  · rintro rfl
    rfl

theorem count_newline_lossyChars (bytes : List UInt8) :
    (lossyChars bytes).count '\n' = bytes.count 10 := by
  induction bytes using lossyChars.induct with
  | case1 => simp [lossyChars]
  | case2 lead rest ih =>
    rw [lossyChars, List.count_cons, List.count_cons, ih, count_next]
    simp [next_eq_newline]

/-- Bytes are shown with as many newlines as they have newline bytes, whatever else they are. -/
theorem count_newline_lossy (bytes : ByteArray) :
    (lossy bytes).toList.count '\n' = bytes.data.toList.count 10 := by
  rw [lossy, String.toList_ofList, count_newline_lossyChars]

end BrokerBridge.Utf8
