import BrokerBridge.Decimal.Shortest

/-!
# JSON text

`JsonTree` keeps a JSON text as it is written: every digit of a number, and every member of an
object in order. `JsonTree.parse?` reads one. `JsonTree.render?` writes one out compactly where
it has a value, and refuses it where it has none: an escape may leave half of a surrogate pair,
a number may be too large, and a reader may not look deeper than it is told.
-/

namespace BrokerBridge

structure JsonNumber where
  negative : Bool
  whole : List Nat
  /-- The digits after the point; none without a point. -/
  fraction : List Nat := []
  exponent : Option Int := none
deriving DecidableEq, Repr

inductive JsonTree where
  | null
  | boolean (b : Bool)
  | number (n : JsonNumber)
  /-- No text where an escape leaves half of a surrogate pair. -/
  | string (text : Option String)
  | array (items : List JsonTree)
  | object (members : List (Option String × JsonTree))

namespace JsonNumber

/-! ## The value of a number -/

/-- The digits that fit into 64 bits, and how many were left over. -/
def takeDigits (significand : Nat) : List Nat → Nat × Nat
  | [] => (significand, 0)
  | d :: rest =>
      if Word.isUnsigned 64 (significand * 10 + d) then takeDigits (significand * 10 + d) rest
      else (significand, rest.length + 1)

/-- Scale by a power of ten, at most 308 places at a time; none for an overflow. -/
def scale (x : Float) : (steps : Nat) → (exponent : Int) → Option Float
  | 0, _ => some x
  | steps + 1, e =>
      if 308 < e then if x == 0 then some x else none
      else if 0 ≤ e then
        let y := x * Float.ofScientific 1 false e.toNat
        if y.isInf then none else some y
      else if -308 ≤ e then some (x / Float.ofScientific 1 false (-e).toNat)
      else if x == 0 then some x
      else scale (x / Float.ofScientific 1 false 308) steps (e + 308)

/-- The float nearest to the digits kept, scaled; none for an overflow. A division by `1e308`
leaves nothing of a number after three steps. -/
def float? (n : JsonNumber) : Option Float := do
  let (significand, dropped) := takeDigits 0 n.whole
  let (all, ignored) := takeDigits significand n.fraction
  let places : Int := n.fraction.length - ignored
  let x ← scale (Float.ofNat all) 4 ((dropped : Int) - places + n.exponent.getD 0)
  return if n.negative then -x else x

/-- The whole number that is written, without a point or an exponent. -/
def integer? (n : JsonNumber) : Option Int :=
  if n.fraction.isEmpty && n.exponent.isNone then
    let m := Nat.ofDigits n.whole
    some (if n.negative then -m else m)
  else none
where
  Nat.ofDigits (ds : List Nat) : Nat := ds.foldl (fun a d => a * 10 + d) 0

/-- A whole number of 64 bits, signed or not. Minus zero is no whole number. -/
def word? (n : JsonNumber) : Option Int :=
  match n.integer? with
  | some i =>
      let fits := if n.negative then Word.isSigned 64 i && i < 0 else Word.isUnsigned 64 i.toNat
      if fits then some i else none
  | none => none

def int64? (n : JsonNumber) : Option Int :=
  n.word?.filter (Word.isSigned 64)

/-! ## Writing -/

def zeros (n : Int) : List Char := List.replicate n.toNat '0'

/-- A decimal with the fewest digits: positional from `1e-5` up to below `1e16`, otherwise with
one digit before the point and a signed exponent. -/
def decimalText (d : Decimal.Dec) : List Char :=
  let ds := Nat.toDigits 10 d.digits
  let n : Int := ds.length
  let lead := n - 1 + d.exponent
  if lead < -5 ∨ 15 < lead then
    let mantissa := match ds with
      | [c] => [c]
      | c :: rest => c :: '.' :: rest
      | [] => []
    mantissa ++ 'e' :: (if lead < 0 then '-' else '+') :: Nat.toDigits 10 lead.natAbs
  else if 0 ≤ d.exponent then ds ++ zeros d.exponent ++ ['.', '0']
  else if 0 ≤ lead then
    ds.take (lead + 1).toNat ++ '.' :: ds.drop (lead + 1).toNat
  else '0' :: '.' :: zeros (-lead - 1) ++ ds

def floatText? (x : Float) : Option String :=
  (Decimal.Binary.ofFloat? x).map fun (negative, b) =>
    String.ofList ((if negative then ['-'] else []) ++ decimalText b.shortest)

/-- A whole number of 64 bits is written as such and any other number as a float. -/
def render? (n : JsonNumber) : Option String :=
  match n.word? with
  | some i => some (toString i)
  | none => n.float?.bind floatText?

end JsonNumber

/-! ## Reading -/

namespace JsonTree

def isBlank (c : Char) : Bool := c == ' ' || c == '\t' || c == '\n' || c == '\r'

def skipBlank (cs : List Char) : List Char := cs.dropWhile isBlank

def digitValue (c : Char) : Nat := c.toNat - '0'.toNat

def readDigits (cs : List Char) : List Nat × List Char :=
  ((cs.takeWhile Char.isDigit).map digitValue, cs.dropWhile Char.isDigit)

/-- The digits before the point: a zero stands alone. -/
def readWhole : List Char → Option (List Nat × List Char)
  | '0' :: rest => if (rest.head?.map Char.isDigit).getD false then none else some ([0], rest)
  | cs =>
      match readDigits cs with
      | ([], _) => none
      | found => some found

def readFraction : List Char → Option (List Nat × List Char)
  | '.' :: rest =>
      match readDigits rest with
      | ([], _) => none
      | found => some found
  | cs => some ([], cs)

def readSign : List Char → Bool × List Char
  | '-' :: rest => (true, rest)
  | '+' :: rest => (false, rest)
  | cs => (false, cs)

def readExponent : List Char → Option (Option Int × List Char)
  | c :: rest =>
      if c = 'e' ∨ c = 'E' then
        let (negative, rest) := readSign rest
        match readDigits rest with
        | ([], _) => none
        | (ds, rest) =>
            let e : Nat := ds.foldl (fun a d => a * 10 + d) 0
            some (some (if negative then -e else e), rest)
      else some (none, c :: rest)
  | [] => some (none, [])

def readNumber (cs : List Char) : Option (JsonNumber × List Char) := do
  let (negative, cs) := match cs with
    | '-' :: rest => (true, rest)
    | cs => (false, cs)
  let (whole, cs) ← readWhole cs
  let (fraction, cs) ← readFraction cs
  let (exponent, cs) ← readExponent cs
  return (⟨negative, whole, fraction, exponent⟩, cs)

inductive Piece where
  | char (c : Char)
  | unit (n : Nat)
deriving DecidableEq, Repr

def hexValue? (c : Char) : Option Nat :=
  if '0' ≤ c ∧ c ≤ '9' then some (c.toNat - '0'.toNat)
  else if 'a' ≤ c ∧ c ≤ 'f' then some (c.toNat - 'a'.toNat + 10)
  else if 'A' ≤ c ∧ c ≤ 'F' then some (c.toNat - 'A'.toNat + 10)
  else none

def unit? (a b c d : Char) : Option Nat := do
  return (((← hexValue? a) * 16 + (← hexValue? b)) * 16 + (← hexValue? c)) * 16 + (← hexValue? d)

def escape? (c : Char) : Option Char :=
  match c with
  | '"' => some '"'
  | '\\' => some '\\'
  | '/' => some '/'
  | 'b' => some '\x08'
  | 'f' => some '\x0c'
  | 'n' => some '\n'
  | 'r' => some '\r'
  | 't' => some '\t'
  | _ => none

def readPieces : List Char → Option (List Piece × List Char)
  | '"' :: rest => some ([], rest)
  | '\\' :: 'u' :: a :: b :: c :: d :: rest => do
      let n ← unit? a b c d
      let (pieces, rest) ← readPieces rest
      return (.unit n :: pieces, rest)
  | '\\' :: e :: rest => do
      let c ← escape? e
      let (pieces, rest) ← readPieces rest
      return (.char c :: pieces, rest)
  | c :: rest =>
      if c = '\\' ∨ c.toNat < 0x20 then none
      else do
        let (pieces, rest) ← readPieces rest
        return (.char c :: pieces, rest)
  | [] => none

/-- The text that pieces make. A pair of surrogates makes one character; half of a pair makes
none. -/
def assemble? : List Piece → Option (List Char)
  | [] => some []
  | .char c :: rest => (assemble? rest).map (c :: ·)
  | .unit n :: rest =>
      if n < 0xD800 ∨ 0xDFFF < n then (assemble? rest).map (Char.ofNat n :: ·)
      else if n < 0xDC00 then
        match rest with
        | .unit m :: rest =>
            if 0xDC00 ≤ m ∧ m ≤ 0xDFFF then
              (assemble? rest).map
                (Char.ofNat (0x10000 + (n - 0xD800) * 0x400 + (m - 0xDC00)) :: ·)
            else none
        | _ => none
      else none

def readString (cs : List Char) : Option (Option String × List Char) := do
  let (pieces, rest) ← readPieces cs
  return ((assemble? pieces).map String.ofList, rest)

def after? (word : String) (cs : List Char) : Option (List Char) :=
  if word.toList.isPrefixOf cs then some (cs.drop word.length) else none

mutual

/-- A value; `fuel` bounds the values and members read on the way. -/
def readValue : (fuel : Nat) → List Char → Option (JsonTree × List Char)
  | 0, _ => none
  | fuel + 1, cs =>
      match skipBlank cs with
      | '"' :: rest => (readString rest).map fun (s, rest) => (string s, rest)
      | '[' :: rest =>
          match skipBlank rest with
          | ']' :: rest => some (array [], rest)
          | rest => (readItems fuel rest).map fun (items, rest) => (array items, rest)
      | '{' :: rest =>
          match skipBlank rest with
          | '}' :: rest => some (object [], rest)
          | rest => (readMembers fuel rest).map fun (members, rest) => (object members, rest)
      | 'n' :: rest => (after? "ull" rest).map (null, ·)
      | 't' :: rest => (after? "rue" rest).map (boolean true, ·)
      | 'f' :: rest => (after? "alse" rest).map (boolean false, ·)
      | rest => (readNumber rest).map fun (n, rest) => (number n, rest)

def readItems : (fuel : Nat) → List Char → Option (List JsonTree × List Char)
  | 0, _ => none
  | fuel + 1, cs => do
      let (item, rest) ← readValue fuel cs
      match skipBlank rest with
      | ']' :: rest => return ([item], rest)
      | ',' :: rest =>
          let (items, rest) ← readItems fuel rest
          return (item :: items, rest)
      | _ => none

def readMembers : (fuel : Nat) →
    List Char → Option (List (Option String × JsonTree) × List Char)
  | 0, _ => none
  | fuel + 1, cs => do
      match skipBlank cs with
      | '"' :: rest =>
          let (key, rest) ← readString rest
          match skipBlank rest with
          | ':' :: rest =>
              let (value, rest) ← readValue fuel rest
              match skipBlank rest with
              | '}' :: rest => return ([(key, value)], rest)
              | ',' :: rest =>
                  let (members, rest) ← readMembers fuel rest
                  return ((key, value) :: members, rest)
              | _ => none
          | _ => none
      | _ => none

end

def parse? (s : String) : Option JsonTree := do
  let cs := s.toList
  let (t, rest) ← readValue (2 * cs.length + 2) cs
  if (skipBlank rest).isEmpty then some t else none

/-! ## Writing -/

def hexDigit (n : Nat) : Char := (Nat.digitChar n)

/-- Quotes, backslashes and control characters are escaped. -/
def escapeChar (c : Char) : List Char :=
  match c with
  | '"' => ['\\', '"']
  | '\\' => ['\\', '\\']
  | '\x08' => ['\\', 'b']
  | '\x0c' => ['\\', 'f']
  | '\n' => ['\\', 'n']
  | '\r' => ['\\', 'r']
  | '\t' => ['\\', 't']
  | c =>
      if c.toNat < 0x20 then ['\\', 'u', '0', '0', hexDigit (c.toNat / 16), hexDigit (c.toNat % 16)]
      else [c]

def quote (s : String) : String :=
  String.ofList ('"' :: s.toList.flatMap escapeChar ++ ['"'])

/-- Insert a member in the order of the keys; a later member replaces one of the same key. -/
def insertMember (k v : String) : List (String × String) → List (String × String)
  | [] => [(k, v)]
  | e :: rest =>
      if e.1 = k then (k, v) :: rest
      else if k < e.1 then (k, v) :: e :: rest
      else e :: insertMember k v rest

/-- The compact text of a value, the members of an object in the order of their keys; none for a
value nested deeper than `depth` or without a meaning. -/
def render? : (depth : Nat) → JsonTree → Option String
  | _, null => some "null"
  | _, boolean b => some (if b then "true" else "false")
  | _, number n => n.render?
  | _, string s => s.map quote
  | 0, array _ | 0, object _ => none
  | depth + 1, array items => do
      let texts ← items.mapM (render? depth)
      return "[" ++ ",".intercalate texts ++ "]"
  | depth + 1, object members => do
      let written ← members.mapM fun (k, v) => return (← k, ← render? depth v)
      let sorted := written.foldl (fun l e => insertMember e.1 e.2 l) []
      let texts := sorted.map fun (k, v) => quote k ++ ":" ++ v
      return "\x7b" ++ ",".intercalate texts ++ "\x7d"

end JsonTree

end BrokerBridge
