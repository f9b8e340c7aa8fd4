import BrokerBridge.Text.Json

/-!
# JSON text that is read back

`JsonValue` is what is written as JSON: flags, whole numbers, texts, arrays and objects with their
members in order. Its text is one line, and reading it gives the value as it was written.
-/

namespace BrokerBridge

inductive JsonValue where
  | boolean (b : Bool)
  | integer (n : Int)
  | text (s : String)
  | array (items : List JsonValue)
  | object (members : List (String × JsonValue))

def JsonTree.numberOf (n : Int) : JsonNumber where
  negative := n < 0
  whole := (Nat.toDigits 10 n.natAbs).map digitValue

namespace JsonValue

def integerChars (n : Int) : List Char :=
  (if n < 0 then ['-'] else []) ++ Nat.toDigits 10 n.natAbs

def textChars (s : String) : List Char := '"' :: (s.toList.flatMap JsonTree.escapeChar ++ ['"'])

def listed (texts : List (List Char)) : List Char := [','].intercalate texts

mutual

def chars : JsonValue → List Char
  | .boolean b => if b then ['t', 'r', 'u', 'e'] else ['f', 'a', 'l', 's', 'e']
  | .integer n => integerChars n
  | .text s => textChars s
  | .array items => '[' :: (listed (itemTexts items) ++ [']'])
  | .object members => '\x7b' :: (listed (memberTexts members) ++ ['\x7d'])

def itemTexts : List JsonValue → List (List Char)
  | [] => []
  | v :: rest => v.chars :: itemTexts rest

def memberTexts : List (String × JsonValue) → List (List Char)
  | [] => []
  | (k, v) :: rest => (textChars k ++ ':' :: v.chars) :: memberTexts rest

end

mutual

def tree : JsonValue → JsonTree
  | .boolean b => .boolean b
  | .integer n => .number (JsonTree.numberOf n)
  | .text s => .string (some s)
  | .array items => .array (itemTrees items)
  | .object members => .object (memberTrees members)

def itemTrees : List JsonValue → List JsonTree
  | [] => []
  | v :: rest => v.tree :: itemTrees rest

def memberTrees : List (String × JsonValue) → List (Option String × JsonTree)
  | [] => []
  | (k, v) :: rest => (some k, v.tree) :: memberTrees rest

end

end JsonValue

/-! ## Strings -/

namespace JsonTree

private theorem hexValue?_hexDigit : ∀ n < 16, hexValue? (hexDigit n) = some n := by decide

def before (piece : Piece) (r : List Piece × List Char) : List Piece × List Char :=
  (piece :: r.1, r.2)

private theorem readPieces_escape {e c : Char} (h : escape? e = some c) (rest : List Char) :
    readPieces ('\\' :: e :: rest) = (readPieces rest).map (before (.char c)) := by
  have hu : e ≠ 'u' := by
    rintro rfl
    cases h
  rw [readPieces.eq_3 e rest fun _ _ _ _ _ he _ => hu he, h]
  cases readPieces rest <;> rfl

private theorem readPieces_unit {a b c d : Char} {n : Nat} (h : unit? a b c d = some n)
    (rest : List Char) :
    readPieces ('\\' :: 'u' :: a :: b :: c :: d :: rest) =
      (readPieces rest).map (before (.unit n)) := by
  rw [readPieces, h]
  cases readPieces rest <;> rfl

private theorem readPieces_char {c : Char} (hquote : c ≠ '"') (hslash : c ≠ '\\')
    (h : ¬c.toNat < 0x20)
    (rest : List Char) : readPieces (c :: rest) = (readPieces rest).map (before (.char c)) := by
  rw [readPieces.eq_4 c rest hquote (fun _ _ _ _ _ hc _ => hslash hc) fun _ _ hc _ => hslash hc,
    if_neg (not_or.mpr ⟨hslash, h⟩)]
  cases readPieces rest <;> rfl

private theorem assemble?_unit {c : Char} (h : c.toNat < 0xD800) (more : List Piece) :
    assemble? (.unit c.toNat :: more) = (assemble? more).map (c :: ·) := by
  have hunit : c.toNat < 0xD800 ∨ 0xDFFF < c.toNat := .inl h
  conv => lhs; rw [assemble?.eq_def]
  simp only [if_pos hunit, Char.ofNat_toNat]

private theorem readPieces_escapeChar (c : Char) (rest : List Char) :
    ∃ piece, readPieces (escapeChar c ++ rest) = (readPieces rest).map (before piece) ∧
      ∀ more, assemble? (piece :: more) = (assemble? more).map (c :: ·) := by
  unfold escapeChar
  split
  case h_8 hquote hslash _ _ _ _ _ =>
    split
    · next h =>
      have hhigh : hexValue? (hexDigit (c.toNat / 16)) = some (c.toNat / 16) :=
        hexValue?_hexDigit _ (by omega)
      have hlow : hexValue? (hexDigit (c.toNat % 16)) = some (c.toNat % 16) :=
        hexValue?_hexDigit _ (by omega)
      have hunit : unit? '0' '0' (hexDigit (c.toNat / 16)) (hexDigit (c.toNat % 16)) =
          some c.toNat := by
        have hzero : hexValue? '0' = some 0 := rfl
        have hvalue : ((0 * 16 + 0) * 16 + c.toNat / 16) * 16 + c.toNat % 16 = c.toNat := by omega
        rw [unit?, hzero, hhigh, hlow]
        exact congrArg some hvalue
      exact ⟨.unit c.toNat, readPieces_unit hunit rest, assemble?_unit (by omega)⟩
    · next h => exact ⟨.char c, readPieces_char hquote hslash h rest, fun more => rfl⟩
  -- the other characters have a letter of their own
  all_goals exact ⟨.char _, readPieces_escape rfl rest, fun more => rfl⟩

private theorem readPieces_escaped (cs rest : List Char) :
    ∃ pieces, readPieces (cs.flatMap escapeChar ++ '"' :: rest) = some (pieces, rest) ∧
      assemble? pieces = some cs := by
  induction cs with
  | nil => exact ⟨[], rfl, rfl⟩
  | cons c cs ih =>
    obtain ⟨pieces, hread, hmake⟩ := ih
    obtain ⟨piece, hfirst, hchar⟩ :=
      readPieces_escapeChar c (cs.flatMap escapeChar ++ '"' :: rest)
    refine ⟨piece :: pieces, ?_, ?_⟩
    · rw [List.flatMap_cons, List.append_assoc, hfirst, hread]
      rfl
    · rw [hchar, hmake]
      rfl

private theorem readString_textChars (s : String) (rest : List Char) :
    readString (s.toList.flatMap escapeChar ++ '"' :: rest) = some (some s, rest) := by
  obtain ⟨pieces, hread, hmake⟩ := readPieces_escaped s.toList rest
  rw [readString, hread]
  simp [hmake]

/-! ## Numbers -/

/-- What may follow a value. -/
def Ends (rest : List Char) : Prop := ∀ c ∈ rest.head?, c = ',' ∨ c = ']' ∨ c = '\x7d'

private theorem Ends.cons {c : Char} (h : c = ',' ∨ c = ']' ∨ c = '\x7d') (rest : List Char) :
    Ends (c :: rest) := by
  rintro _ ⟨⟩
  exact h

theorem ends_nil : Ends [] := nofun

private theorem Ends.not_isDigit {c : Char} {rest : List Char} (h : Ends (c :: rest)) :
    c.isDigit = false := by
  rcases h c rfl with rfl | rfl | rfl <;> rfl

theorem readDigits_append {ds rest : List Char} (hds : ∀ c ∈ ds, c.isDigit = true)
    (h : Ends rest) : readDigits (ds ++ rest) = (ds.map digitValue, rest) := by
  have hrest : rest.takeWhile Char.isDigit = [] ∧ rest.dropWhile Char.isDigit = rest := by
    cases rest with
    | nil => exact ⟨rfl, rfl⟩
    | cons c rest => simp [h.not_isDigit]
  rw [readDigits, List.takeWhile_append_of_pos hds, List.dropWhile_append_of_pos hds, hrest.1,
    hrest.2, List.append_nil]

private theorem exists_toDigits_eq (n : Nat) :
    ∃ d ds, Nat.toDigits 10 n = d :: ds ∧ d.isDigit = true := by
  obtain ⟨d, ds, hds⟩ := List.exists_cons_of_ne_nil (Nat.toDigits_ne_nil (n := n) (b := 10))
  have hmem : d ∈ Nat.toDigits 10 n := hds ▸ List.mem_cons_self
  exact ⟨d, ds, hds, Nat.isDigit_of_mem_toDigits (by decide) (by decide) hmem⟩

private theorem eq_zero_of_toDigits {n : Nat} {ds : List Char} (h : Nat.toDigits 10 n = '0' :: ds) :
    n = 0 := by
  induction n using Nat.strongRecOn generalizing ds with
  | ind n ih =>
    by_cases hn : n < 10
    · rw [Nat.toDigits_of_lt_base hn] at h
      have hsmall : ∀ k < 10, Nat.digitChar k = '0' → k = 0 := by decide
      exact hsmall n hn (List.cons.inj h).1
    · rw [Nat.toDigits_of_base_le (by decide) (Nat.not_lt.mp hn)] at h
      obtain ⟨d, ds', hfirst, -⟩ := exists_toDigits_eq (n / 10)
      rw [hfirst] at h
      obtain ⟨rfl, -⟩ := List.cons.inj h
      have hzero := ih (n / 10) (by omega) hfirst
      omega

private theorem readWhole_toDigits (n : Nat) {rest : List Char} (h : Ends rest) :
    readWhole (Nat.toDigits 10 n ++ rest) = some ((Nat.toDigits 10 n).map digitValue, rest) := by
  have hall : ∀ c ∈ Nat.toDigits 10 n, c.isDigit = true := fun c hc =>
    Nat.isDigit_of_mem_toDigits (by decide) (by decide) hc
  have hdigits := readDigits_append hall h
  obtain ⟨d, ds, hds, -⟩ := exists_toDigits_eq n
  by_cases hzero : n = 0
  · subst hzero
    cases rest with
    | nil => rfl
    | cons c rest =>
      have hc : ((c :: rest).head?.map Char.isDigit).getD false = false := h.not_isDigit
      show (if ((c :: rest).head?.map Char.isDigit).getD false then none
        else some ([0], c :: rest)) = _
      rw [hc]
      rfl
  · have hd : d ≠ '0' := by
      rintro rfl
      exact hzero (eq_zero_of_toDigits hds)
    rw [hds] at hdigits ⊢
    rw [List.cons_append] at hdigits ⊢
    rw [readWhole.eq_2 _ fun _ he => hd (List.cons.inj he).1, hdigits]
    rfl

private theorem integer?_numberOf (n : Int) : (numberOf n).integer? = some n := by
  have hdigits : JsonNumber.integer?.Nat.ofDigits (numberOf n).whole = n.natAbs := by
    rw [← Nat.ofDigitChars_toDigits (n := n.natAbs) (by decide : 1 < 10) (by decide : 10 ≤ 10),
      Nat.ofDigitChars_eq_foldl]
    simp only [JsonNumber.integer?.Nat.ofDigits, numberOf, List.foldl_map, digitValue,
      Nat.mul_comm 10]
  have hvalue : (if n < 0 then -(n.natAbs : Int) else n.natAbs) = n := by split <;> omega
  rw [JsonNumber.integer?, hdigits]
  exact congrArg some (by simpa [numberOf] using hvalue)

theorem word?_numberOf {n : Int} (h : Word.isSigned 64 n = true) :
    (numberOf n).word? = some n := by
  have hfits : (if (numberOf n).negative then Word.isSigned 64 n && n < 0
      else Word.isUnsigned 64 n.toNat) = true := by
    by_cases hn : n < 0
    · simp [numberOf, hn, h]
    · have hcount : Word.count 63 ≤ Word.count 64 := by decide
      have hlt : n < Word.count 63 := (Word.isSigned_iff.mp h).2
      have hfit : n.toNat < Word.count 64 := by omega
      simpa [numberOf, hn, Word.isUnsigned] using hfit
  simp only [JsonNumber.word?, integer?_numberOf]
  exact if_pos hfits

theorem int64?_numberOf {n : Int} (h : Word.isSigned 64 n = true) :
    (numberOf n).int64? = some n := by
  rw [JsonNumber.int64?, word?_numberOf h]
  exact if_pos h

private theorem readFraction_of_ends {rest : List Char} (h : Ends rest) :
    readFraction rest = some ([], rest) := by
  cases rest with
  | nil => rfl
  | cons c rest =>
    have hpoint : c ≠ '.' := by
      rintro rfl
      simpa using h '.' rfl
    rw [readFraction.eq_2 _ fun _ he => hpoint (List.cons.inj he).1]

private theorem readExponent_of_ends {rest : List Char} (h : Ends rest) :
    readExponent rest = some (none, rest) := by
  cases rest with
  | nil => rfl
  | cons c rest =>
    have hmark : ¬(c = 'e' ∨ c = 'E') := by
      rcases h c rfl with rfl | rfl | rfl <;> decide
    rw [readExponent, if_neg hmark]

private theorem readNumber_integerChars (n : Int) {rest : List Char} (h : Ends rest) :
    readNumber (JsonValue.integerChars n ++ rest) = some (numberOf n, rest) := by
  by_cases hn : n < 0
  · have hchars : JsonValue.integerChars n ++ rest =
        '-' :: (Nat.toDigits 10 n.natAbs ++ rest) := by
      simp [JsonValue.integerChars, hn]
    rw [hchars, readNumber]
    simp [readWhole_toDigits n.natAbs h, readFraction_of_ends h, readExponent_of_ends h, numberOf,
      hn]
  · have hchars : JsonValue.integerChars n ++ rest = Nat.toDigits 10 n.natAbs ++ rest := by
      simp [JsonValue.integerChars, hn]
    obtain ⟨d, ds, hds, hdigit⟩ := exists_toDigits_eq n.natAbs
    have hsign (cs : List Char) : Nat.toDigits 10 n.natAbs ++ rest ≠ '-' :: cs := by
      intro hminus
      rw [hds] at hminus
      cases hminus
      exact absurd hdigit (by decide)
    rw [hchars, readNumber.eq_2 _ hsign]
    simp [readWhole_toDigits n.natAbs h, readFraction_of_ends h, readExponent_of_ends h, numberOf,
      hn]

/-! ## Values -/

private theorem exists_integerChars_eq (n : Int) :
    ∃ c cs, JsonValue.integerChars n = c :: cs ∧ (c = '-' ∨ c.isDigit = true) := by
  obtain ⟨d, ds, hds, hdigit⟩ := exists_toDigits_eq n.natAbs
  by_cases hn : n < 0
  · exact ⟨'-', d :: ds, by simp [JsonValue.integerChars, hn, hds], .inl rfl⟩
  · exact ⟨d, ds, by simp [JsonValue.integerChars, hn, hds], .inr hdigit⟩

theorem skipBlank_cons {c : Char} (h : isBlank c = false) (rest : List Char) :
    skipBlank (c :: rest) = c :: rest := by
  simp [skipBlank, h]

private theorem isBlank_of_isDigit {c : Char} (h : c.isDigit = true) : isBlank c = false := by
  rw [Bool.eq_false_iff]
  intro hblank
  simp only [isBlank, Bool.or_eq_true, beq_iff_eq] at hblank
  rcases hblank with ((rfl | rfl) | rfl) | rfl <;> exact absurd h (by decide)

variable {fuel : Nat} {rest : List Char}

private theorem readValue_boolean (b : Bool) :
    readValue (fuel + 1) ((JsonValue.boolean b).chars ++ rest) = some (.boolean b, rest) := by
  cases b <;> rfl

private theorem readValue_text (s : String) :
    readValue (fuel + 1) (JsonValue.textChars s ++ rest) = some (.string (some s), rest) := by
  have hchars : JsonValue.textChars s ++ rest =
      '"' :: (s.toList.flatMap escapeChar ++ '"' :: rest) := by
    simp [JsonValue.textChars]
  rw [hchars, readValue, skipBlank_cons rfl]
  simp [readString_textChars]

private theorem readValue_integer (n : Int) (h : Ends rest) :
    readValue (fuel + 1) (JsonValue.integerChars n ++ rest) =
      some (.number (numberOf n), rest) := by
  obtain ⟨c, cs, hc, hfirst⟩ := exists_integerChars_eq n
  have hread := readNumber_integerChars n h
  have hblank : isBlank c = false := by
    rcases hfirst with rfl | hdigit
    · rfl
    · exact isBlank_of_isDigit hdigit
  have hother : c ∉ ['"', '[', '\x7b', 'n', 't', 'f'] := by
    intro hmem
    rcases hfirst with rfl | hdigit
    · exact absurd hmem (by decide)
    · have hall : ['"', '[', '\x7b', 'n', 't', 'f'].all (fun c => !c.isDigit) = true := by decide
      simpa [hdigit] using List.all_eq_true.mp hall c hmem
  rw [hc, List.cons_append] at hread ⊢
  rw [readValue, skipBlank_cons hblank]
  split
  case h_7 => rw [hread]; rfl
  all_goals
    next heq =>
      cases heq
      exact absurd hother (by decide)

variable {cs more : List Char} {t : JsonTree}

private theorem readItems_last (h : readValue fuel cs = some (t, ']' :: rest)) :
    readItems (fuel + 1) cs = some ([t], rest) := by
  rw [readItems, h]
  rfl

private theorem readItems_more {items : List JsonTree}
    (h : readValue fuel cs = some (t, ',' :: more))
    (hmore : readItems fuel more = some (items, rest)) :
    readItems (fuel + 1) cs = some (t :: items, rest) := by
  have hcomma : skipBlank (',' :: more) = ',' :: more := skipBlank_cons rfl more
  rw [readItems, h]
  simp [hcomma, hmore]

private theorem readMembers_last {k : String} (h : readValue fuel cs = some (t, '\x7d' :: rest)) :
    readMembers (fuel + 1) (JsonValue.textChars k ++ ':' :: cs) = some ([(some k, t)], rest) := by
  have hchars : JsonValue.textChars k ++ ':' :: cs =
      '"' :: (k.toList.flatMap escapeChar ++ '"' :: ':' :: cs) := by
    simp [JsonValue.textChars]
  have hcolon : skipBlank (':' :: cs) = ':' :: cs := skipBlank_cons rfl cs
  have hclose : skipBlank ('\x7d' :: rest) = '\x7d' :: rest := skipBlank_cons rfl rest
  rw [hchars, readMembers, skipBlank_cons rfl]
  simp [readString_textChars, hcolon, h, hclose]

private theorem readMembers_more {k : String} {members : List (Option String × JsonTree)}
    (h : readValue fuel cs = some (t, ',' :: more))
    (hmore : readMembers fuel more = some (members, rest)) :
    readMembers (fuel + 1) (JsonValue.textChars k ++ ':' :: cs) =
      some ((some k, t) :: members, rest) := by
  have hchars : JsonValue.textChars k ++ ':' :: cs =
      '"' :: (k.toList.flatMap escapeChar ++ '"' :: ':' :: cs) := by
    simp [JsonValue.textChars]
  have hcolon : skipBlank (':' :: cs) = ':' :: cs := skipBlank_cons rfl cs
  have hcomma : skipBlank (',' :: more) = ',' :: more := skipBlank_cons rfl more
  rw [hchars, readMembers, skipBlank_cons rfl]
  simp [readString_textChars, hcolon, h, hcomma, hmore]

end JsonTree

namespace JsonValue

open JsonTree

/-- A value begins with a character that is not blank and does not close an array. -/
theorem exists_chars_eq (v : JsonValue) :
    ∃ c cs, v.chars = c :: cs ∧ isBlank c = false ∧ c ≠ ']' := by
  cases v with
  | boolean b => cases b <;> exact ⟨_, _, rfl, rfl, by decide⟩
  | integer n =>
    obtain ⟨c, cs, hc, rfl | hdigit⟩ := exists_integerChars_eq n
    · exact ⟨_, _, hc, rfl, by decide⟩
    · refine ⟨_, _, hc, isBlank_of_isDigit hdigit, ?_⟩
      rintro rfl
      exact absurd hdigit (by decide)
  | text s => exact ⟨_, _, rfl, rfl, by decide⟩
  | array items => exact ⟨_, _, rfl, rfl, by decide⟩
  | object members => exact ⟨_, _, rfl, rfl, by decide⟩

theorem listed_singleton (text : List Char) : listed [text] = text := List.intercalate_singleton

theorem listed_cons_cons (text next : List Char) (texts : List (List Char)) :
    listed (text :: next :: texts) = text ++ ',' :: listed (next :: texts) := by
  rw [listed, List.intercalate_cons_cons, List.append_assoc]
  rfl

variable {fuel : Nat} {rest : List Char}

private theorem exists_listed_items_eq (v : JsonValue) (items : List JsonValue) :
    ∃ c cs, listed (itemTexts (v :: items)) = c :: cs ∧ isBlank c = false ∧ c ≠ ']' := by
  obtain ⟨c, cs, hv, hc⟩ := exists_chars_eq v
  cases items with
  | nil => exact ⟨c, cs, by rw [itemTexts, itemTexts, listed_singleton, hv], hc⟩
  | cons w items =>
    exact ⟨c, _, by rw [itemTexts, itemTexts, listed_cons_cons, hv, List.cons_append], hc⟩

private theorem exists_listed_members_eq (m : String × JsonValue)
    (members : List (String × JsonValue)) :
    ∃ cs, listed (memberTexts (m :: members)) = '"' :: cs := by
  obtain ⟨k, v⟩ := m
  cases members with
  | nil => exact ⟨_, by rw [memberTexts, memberTexts, listed_singleton, textChars]; rfl⟩
  | cons n members =>
    exact ⟨_, by rw [memberTexts, memberTexts, listed_cons_cons, textChars]; rfl⟩

private theorem readValue_array {items : List JsonValue}
    (h : items ≠ [] → readItems fuel (listed (itemTexts items) ++ ']' :: rest) =
      some (itemTrees items, rest)) :
    readValue (fuel + 1) ((array items).chars ++ rest) = some ((array items).tree, rest) := by
  have hchars : (array items).chars ++ rest = '[' :: (listed (itemTexts items) ++ ']' :: rest) := by
    simp [chars]
  rw [hchars, readValue, skipBlank_cons rfl]
  cases items with
  | nil => rfl
  | cons v items =>
    obtain ⟨c, cs, hfirst, hblank, hclose⟩ := exists_listed_items_eq v items
    have hread := h (List.cons_ne_nil v items)
    rw [hfirst, List.cons_append] at hread ⊢
    simp only [skipBlank_cons hblank]
    split
    · next heq => exact absurd (List.cons.inj heq).1 hclose
    · rw [hread]
      rfl

private theorem readValue_object {members : List (String × JsonValue)}
    (h : members ≠ [] → readMembers fuel (listed (memberTexts members) ++ '\x7d' :: rest) =
      some (memberTrees members, rest)) :
    readValue (fuel + 1) ((object members).chars ++ rest) = some ((object members).tree, rest) := by
  have hchars : (object members).chars ++ rest =
      '\x7b' :: (listed (memberTexts members) ++ '\x7d' :: rest) := by
    simp [chars]
  rw [hchars, readValue, skipBlank_cons rfl]
  cases members with
  | nil => rfl
  | cons m members =>
    obtain ⟨cs, hfirst⟩ := exists_listed_members_eq m members
    have hread := h (List.cons_ne_nil m members)
    rw [hfirst, List.cons_append] at hread ⊢
    have hquote : skipBlank ('"' :: (cs ++ '\x7d' :: rest)) = '"' :: (cs ++ '\x7d' :: rest) :=
      skipBlank_cons rfl _
    simp [hquote, hread, tree]

private theorem length_chars_pos (v : JsonValue) : 0 < v.chars.length := by
  obtain ⟨c, cs, hv, -⟩ := exists_chars_eq v
  rw [hv]
  exact Nat.succ_pos _

mutual

private theorem readValue_chars : (v : JsonValue) → {fuel : Nat} → {rest : List Char} →
    2 * v.chars.length ≤ fuel → Ends rest → readValue fuel (v.chars ++ rest) = some (v.tree, rest)
  | .boolean b, fuel + 1, rest, hfuel, _ => readValue_boolean b
  | .integer n, fuel + 1, rest, hfuel, hends => readValue_integer n hends
  | .text s, fuel + 1, rest, hfuel, _ => readValue_text s
  | .array [], fuel + 1, rest, hfuel, _ => readValue_array nofun
  | .array (v :: items), fuel + 1, rest, hfuel, _ => readValue_array fun _ => by
    refine readItems_chars v items ?_
    simp only [chars, List.length_cons, List.length_append] at hfuel
    omega
  | .object [], fuel + 1, rest, hfuel, _ => readValue_object nofun
  | .object ((k, v) :: members), fuel + 1, rest, hfuel, _ => readValue_object fun _ => by
    refine readMembers_chars k v members ?_
    simp only [chars, List.length_cons, List.length_append] at hfuel
    omega
  | v, 0, rest, hfuel, _ => by
    have hpos := v.length_chars_pos
    omega

theorem readItems_chars : (v : JsonValue) → (items : List JsonValue) → {fuel : Nat} →
    {rest : List Char} → 2 * (listed (itemTexts (v :: items))).length + 1 ≤ fuel →
    readItems fuel (listed (itemTexts (v :: items)) ++ ']' :: rest) =
      some (itemTrees (v :: items), rest)
  | v, [], fuel + 1, rest, hfuel => by
    rw [itemTexts, itemTexts, listed_singleton] at hfuel ⊢
    exact readItems_last (readValue_chars v (by omega) (.cons (by decide) rest))
  | v, w :: items, fuel + 1, rest, hfuel => by
    have hsplit : listed (itemTexts (v :: w :: items)) =
        v.chars ++ ',' :: listed (itemTexts (w :: items)) := listed_cons_cons ..
    rw [hsplit, List.length_append, List.length_cons] at hfuel
    rw [hsplit, List.append_assoc, List.cons_append]
    exact readItems_more (readValue_chars v (by omega) (.cons (by decide) _))
      (readItems_chars w items (by omega))

theorem readMembers_chars : (k : String) → (v : JsonValue) → (members : List (String × JsonValue)) →
    {fuel : Nat} → {rest : List Char} →
    2 * (listed (memberTexts ((k, v) :: members))).length + 1 ≤ fuel →
    readMembers fuel (listed (memberTexts ((k, v) :: members)) ++ '\x7d' :: rest) =
      some (memberTrees ((k, v) :: members), rest)
  | k, v, [], fuel + 1, rest, hfuel => by
    have hsplit : listed (memberTexts [(k, v)]) = textChars k ++ ':' :: v.chars :=
      listed_singleton _
    rw [hsplit, List.length_append, List.length_cons] at hfuel
    rw [hsplit, List.append_assoc, List.cons_append]
    exact readMembers_last (readValue_chars v (by omega) (.cons (by decide) rest))
  | k, v, (l, w) :: members, fuel + 1, rest, hfuel => by
    have hsplit : listed (memberTexts ((k, v) :: (l, w) :: members)) =
        (textChars k ++ ':' :: v.chars) ++ ',' :: listed (memberTexts ((l, w) :: members)) :=
      listed_cons_cons ..
    rw [hsplit, List.length_append, List.length_append, List.length_cons, List.length_cons] at hfuel
    rw [hsplit, List.append_assoc, List.append_assoc, List.cons_append, List.cons_append]
    exact readMembers_more (readValue_chars v (by omega) (.cons (by decide) _))
      (readMembers_chars l w members (by omega))

end

def render (v : JsonValue) : String := String.ofList v.chars

/-- What is written is read back. -/
theorem parse?_render (v : JsonValue) : JsonTree.parse? v.render = some v.tree := by
  have hread : JsonTree.readValue (2 * v.chars.length + 2) (v.chars ++ []) = some (v.tree, []) :=
    readValue_chars v (by omega) ends_nil
  rw [List.append_nil] at hread
  rw [JsonTree.parse?, render, String.toList_ofList, hread]
  rfl

/-! ## One line -/

/-- No character ends a line or is a control character otherwise. -/
def Printable (cs : List Char) : Prop := ∀ c ∈ cs, 0x20 ≤ c.toNat

private theorem printable_of_all {cs : List Char} (h : cs.all (fun c => 0x20 ≤ c.toNat) = true) :
    Printable cs := fun c hc => of_decide_eq_true (List.all_eq_true.mp h c hc)

private theorem Printable.append {cs ds : List Char} (hcs : Printable cs) (hds : Printable ds) :
    Printable (cs ++ ds) := by
  intro c hc
  exact (List.mem_append.mp hc).elim (hcs c) (hds c)

private theorem Printable.cons {c : Char} {cs : List Char} (hc : 0x20 ≤ c.toNat)
    (hcs : Printable cs) :
    Printable (c :: cs) :=
  List.forall_mem_cons.mpr ⟨hc, hcs⟩

private theorem printable_escapeChar (c : Char) : Printable (escapeChar c) := by
  unfold escapeChar
  split
  case h_8 =>
    split
    · have hdigit : ∀ n < 16, 0x20 ≤ (hexDigit n).toNat := by decide
      have hhigh := hdigit (c.toNat / 16) (by omega)
      have hlow := hdigit (c.toNat % 16) (by omega)
      have hunit : Printable ['\\', 'u', '0', '0'] := printable_of_all rfl
      exact hunit.append (.cons hhigh (.cons hlow nofun))
    · next h => exact .cons (Nat.not_lt.mp h) nofun
  all_goals exact printable_of_all rfl

private theorem printable_textChars (s : String) : Printable (textChars s) := by
  refine .cons (by decide) (.append ?_ (printable_of_all rfl))
  intro c hc
  obtain ⟨d, -, hd⟩ := List.mem_flatMap.mp hc
  exact printable_escapeChar d c hd

private theorem printable_integerChars (n : Int) : Printable (integerChars n) := by
  have hdigits : Printable (Nat.toDigits 10 n.natAbs) := by
    intro c hc
    have hdigit := Nat.isDigit_of_mem_toDigits (by decide) (by decide) hc
    simp only [Char.isDigit, Bool.and_eq_true, decide_eq_true_eq] at hdigit
    exact Nat.le_trans (by decide) (UInt32.le_iff_toNat_le.mp hdigit.1)
  refine .append ?_ hdigits
  split
  · exact printable_of_all rfl
  · exact nofun

private theorem printable_listed {texts : List (List Char)} (h : ∀ text ∈ texts, Printable text) :
    Printable (listed texts) := by
  induction texts with
  | nil => exact nofun
  | cons text texts ih =>
    obtain ⟨htext, hrest⟩ := List.forall_mem_cons.mp h
    cases texts with
    | nil =>
      rw [listed_singleton]
      exact htext
    | cons next texts =>
      rw [listed_cons_cons]
      exact htext.append (.cons (by decide) (ih hrest))

mutual

theorem printable_chars : (v : JsonValue) → Printable v.chars
  | .boolean b => printable_of_all (by cases b <;> rfl)
  | .integer n => printable_integerChars n
  | .text s => printable_textChars s
  | .array items =>
    .cons (by decide) (.append (printable_listed (printable_itemTexts items))
      (printable_of_all rfl))
  | .object members =>
    .cons (by decide) (.append (printable_listed (printable_memberTexts members))
      (printable_of_all rfl))

theorem printable_itemTexts : (items : List JsonValue) → ∀ text ∈ itemTexts items, Printable text
  | [] => nofun
  | v :: rest => List.forall_mem_cons.mpr ⟨printable_chars v, printable_itemTexts rest⟩

theorem printable_memberTexts :
    (members : List (String × JsonValue)) → ∀ text ∈ memberTexts members, Printable text
  | [] => nofun
  | (k, v) :: rest =>
    List.forall_mem_cons.mpr
      ⟨(printable_textChars k).append (.cons (by decide) (printable_chars v)),
        printable_memberTexts rest⟩

end

/-! ## Trees -/

theorem itemTrees_eq_map (items : List JsonValue) : itemTrees items = items.map tree := by
  induction items with
  | nil => rfl
  | cons v rest ih => rw [itemTrees, ih, List.map_cons]

theorem memberTrees_eq_map (members : List (String × JsonValue)) :
    memberTrees members = members.map fun m => (some m.1, m.2.tree) := by
  induction members with
  | nil => rfl
  | cons m rest ih =>
    obtain ⟨k, v⟩ := m
    rw [memberTrees, ih, List.map_cons]

end JsonValue

end BrokerBridge
