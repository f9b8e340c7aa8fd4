import BrokerBridge.Text.Toml.Basic
import BrokerBridge.Word

/-!
# TOML scalars

Strings, numbers and dates. A reader takes the characters of its value from the front of a text
and answers with what is left; it answers nothing where the text does not begin with its value.
-/

namespace BrokerBridge.Toml

/-- What a reader takes from the front of a text, and the rest. -/
abbrev Reader (α : Type) := List Char → Option (α × List Char)

def isBlank (c : Char) : Bool := c == ' ' || c == '\t'

def skipBlank (cs : List Char) : List Char := cs.dropWhile isBlank

/-- Control characters other than a tab stand nowhere but in line ends. -/
def isPlain (c : Char) : Bool := c == '\t' || (0x20 ≤ c.toNat && c.toNat != 0x7F)

/-- A line feed, alone or after a carriage return. -/
def newline? : List Char → Option (List Char)
  | '\n' :: rest => some rest
  | '\r' :: '\n' :: rest => some rest
  | _ => none

def after? (word : String) (cs : List Char) : Option (List Char) :=
  if word.toList.isPrefixOf cs then some (cs.drop word.length) else none

def isHex (c : Char) : Bool :=
  c.isDigit || ('a' ≤ c && c ≤ 'f') || ('A' ≤ c && c ≤ 'F')

def digitValue (c : Char) : Nat :=
  if c.isDigit then c.toNat - '0'.toNat
  else if 'a' ≤ c then c.toNat - 'a'.toNat + 10
  else c.toNat - 'A'.toNat + 10

def ofDigits (base : Nat) (ds : List Char) : Nat :=
  ds.foldl (fun a c => a * base + digitValue c) 0

/-! ## Strings -/

def numbered (count : Nat) : Reader Char := fun cs =>
  let ds := cs.take count
  if ds.length = count ∧ ds.all isHex then
    let n := ofDigits 16 ds
    if h : n.isValidChar then some (Char.ofNatAux n h, cs.drop count) else none
  else none

def escape : Reader Char
  | 'b' :: rest => some ('\x08', rest)
  | 'f' :: rest => some ('\x0c', rest)
  | 'n' :: rest => some ('\n', rest)
  | 'r' :: rest => some ('\r', rest)
  | 't' :: rest => some ('\t', rest)
  | '"' :: rest => some ('"', rest)
  | '\\' :: rest => some ('\\', rest)
  | 'u' :: rest => numbered 4 rest
  | 'U' :: rest => numbered 8 rest
  | _ => none

def endsLine (cs : List Char) : Bool := (newline? (skipBlank cs)).isSome

/-- Skip blanks and line ends. A carriage return counts only before a line feed. -/
def skipLines : (fuel : Nat) → List Char → List Char
  | 0, cs => cs
  | fuel + 1, cs =>
      let cs := skipBlank cs
      match newline? cs with
      | some rest => skipLines fuel rest
      | none => cs

def basicBody : (fuel : Nat) → Reader (List Char)
  | 0, _ => none
  | _ + 1, '"' :: rest => some ([], rest)
  | fuel + 1, '\\' :: rest => do
      let (c, rest) ← escape rest
      let (cs, rest) ← basicBody fuel rest
      return (c :: cs, rest)
  | fuel + 1, c :: rest =>
      if isPlain c then do
        let (cs, rest) ← basicBody fuel rest
        return (c :: cs, rest)
      else none
  | _ + 1, [] => none

def literalBody : Reader (List Char)
  | '\'' :: rest => some ([], rest)
  | c :: rest =>
      if isPlain c then do
        let (cs, rest) ← literalBody rest
        return (c :: cs, rest)
      else none
  | [] => none

/-- The end of a string over several lines: three quotes, before which up to two more belong to
the text. -/
def closing (q : Char) : Reader (List Char) := fun cs =>
  let run := (cs.takeWhile (· == q)).length
  if 3 ≤ run then
    let inside := min (run - 3) 2
    some (List.replicate inside q, cs.drop (3 + inside))
  else none

/-- The inside of a string over several lines. Escapes are read where `escapes` is set, and a
backslash at the end of a line then skips to the next text. Line ends become line feeds. -/
def multilineBody (q : Char) (escapes : Bool) : (fuel : Nat) → Reader (List Char)
  | 0, _ => none
  | fuel + 1, cs =>
      match closing q cs with
      | some found => some found
      | none =>
          match newline? cs, cs with
          | some rest, _ => (multilineBody q escapes fuel rest).map fun (t, r) => ('\n' :: t, r)
          | none, '\\' :: rest =>
              if !escapes then
                (multilineBody q escapes fuel rest).map fun (t, r) => ('\\' :: t, r)
              else if endsLine rest then multilineBody q escapes fuel (skipLines fuel rest)
              else do
                let (c, rest) ← escape rest
                let (t, r) ← multilineBody q escapes fuel rest
                return (c :: t, r)
          | none, c :: rest =>
              if isPlain c then (multilineBody q escapes fuel rest).map fun (t, r) => (c :: t, r)
              else none
          | none, [] => none

/-- A string over several lines after its opening quotes; a line end right after them is not
part of it. -/
def multiline (q : Char) (escapes : Bool) : Reader (List Char) := fun cs =>
  let cs := (newline? cs).getD cs
  multilineBody q escapes (cs.length + 1) cs

def string : Reader String := fun cs =>
  (match cs with
    | '"' :: '"' :: '"' :: rest => multiline '"' true rest
    | '"' :: rest => basicBody (rest.length + 1) rest
    | '\'' :: '\'' :: '\'' :: rest => multiline '\'' false rest
    | '\'' :: rest => literalBody rest
    | _ => none).map fun (t, rest) => (String.ofList t, rest)

/-! ## Numbers -/

/-- Digits, between any two of which an underscore may stand. The answer leaves them out. -/
def digits (isDigit : Char → Bool) : Reader (List Char)
  | c :: '_' :: rest =>
      if isDigit c then (digits isDigit rest).map fun (ds, rest) => (c :: ds, rest) else none
  | c :: d :: rest =>
      if !isDigit c then none
      else if isDigit d then
        (digits isDigit (d :: rest)).map fun (ds, rest) => (c :: ds, rest)
      else some ([c], d :: rest)
  | [c] => if isDigit c then some ([c], []) else none
  | [] => none

def sign : List Char → Bool × List Char
  | '-' :: rest => (true, rest)
  | '+' :: rest => (false, rest)
  | cs => (false, cs)

/-- Decimal digits that do not begin with a zero, or a zero alone. -/
def wholeDigits : Reader (List Char)
  | '0' :: rest => some (['0'], rest)
  | cs => digits Char.isDigit cs

def word? (i : Int) : Option Int := if Word.isSigned 64 i then some i else none

def based (base : Nat) (isDigit : Char → Bool) : Reader Int := fun cs => do
  let (ds, rest) ← digits isDigit cs
  return (← word? (ofDigits base ds), rest)

def integer : Reader Int
  | '0' :: 'x' :: rest => based 16 isHex rest
  | '0' :: 'o' :: rest => based 8 (fun c => '0' ≤ c && c ≤ '7') rest
  | '0' :: 'b' :: rest => based 2 (fun c => c == '0' || c == '1') rest
  | cs => do
      let (negative, cs) := sign cs
      let (ds, rest) ← wholeDigits cs
      let n : Int := ofDigits 10 ds
      return (← word? (if negative then -n else n), rest)

def fraction : Reader (List Char)
  | '.' :: rest => digits Char.isDigit rest
  | cs => some ([], cs)

def exponent : Reader (Option Int)
  | c :: rest =>
      if c = 'e' ∨ c = 'E' then do
        let (negative, rest) := sign rest
        let (ds, rest) ← digits Char.isDigit rest
        let n : Int := ofDigits 10 ds
        return (some (if negative then -n else n), rest)
      else some (none, c :: rest)
  | [] => some (none, [])

/-- The float nearest to `ds * 10 ^ e`. Decimals far outside the floats are not worked out. -/
def nearest (ds : List Char) (e : Int) : Float :=
  let m := ofDigits 10 ds
  if m = 0 ∨ e + ds.length < -400 then 0
  else if 400 < e then 1.0 / 0.0
  else Float.ofScientific m (e < 0) e.natAbs

/-- A number with a fraction or an exponent. One that is too large is refused, unless it is
negative. -/
def float : Reader Float := fun cs => do
  let (negative, cs) := sign cs
  let (whole, cs) ← wholeDigits cs
  let (places, cs) ← fraction cs
  let (e, rest) ← exponent cs
  if places.isEmpty && e.isNone then none
  else
    let x := nearest (whole ++ places) (e.getD 0 - places.length)
    if x.isInf && !negative then none else return (if negative then -x else x, rest)

def specialFloat : Reader Float := fun cs =>
  let (negative, cs) := sign cs
  match after? "inf" cs, after? "nan" cs with
  | some rest, _ => some (if negative then -1.0 / 0.0 else 1.0 / 0.0, rest)
  | none, some rest => some (0.0 / 0.0, rest)
  | none, none => none

/-! ## Dates and times -/

def fixedDigits (count : Nat) : Reader Nat := fun cs =>
  let ds := cs.take count
  if ds.length = count ∧ ds.all Char.isDigit then some (ofDigits 10 ds, cs.drop count) else none

def within (low high : Nat) (r : Reader Nat) : Reader Nat := fun cs =>
  (r cs).filter fun (n, _) => low ≤ n && n ≤ high

def isLeapYear (y : Nat) : Bool := y % 4 == 0 && (y % 100 != 0 || y % 400 == 0)

def daysIn (year month : Nat) : Nat :=
  if month = 2 then if isLeapYear year then 29 else 28
  else if month = 4 ∨ month = 6 ∨ month = 9 ∨ month = 11 then 30
  else 31

def date (cs : List Char) : Option (List Char) := do
  let (year, cs) ← fixedDigits 4 cs
  let cs ← after? "-" cs
  let (month, cs) ← within 1 12 (fixedDigits 2) cs
  let cs ← after? "-" cs
  let (_, cs) ← within 1 (daysIn year month) (fixedDigits 2) cs
  return cs

def time (cs : List Char) : Option (List Char) := do
  let (_, cs) ← within 0 23 (fixedDigits 2) cs
  let cs ← after? ":" cs
  let (_, cs) ← within 0 59 (fixedDigits 2) cs
  let cs ← after? ":" cs
  let (_, cs) ← within 0 60 (fixedDigits 2) cs
  match cs with
  | '.' :: rest =>
      if (rest.takeWhile Char.isDigit).isEmpty then none else return rest.dropWhile Char.isDigit
  | cs => return cs

def offset (cs : List Char) : Option (List Char) :=
  match cs with
  | 'Z' :: rest | 'z' :: rest => some rest
  | '+' :: rest | '-' :: rest => do
      let (_, cs) ← within 0 23 (fixedDigits 2) rest
      let cs ← after? ":" cs
      let (_, cs) ← within 0 59 (fixedDigits 2) cs
      return cs
  | cs => some cs

def datetime (cs : List Char) : Option (List Char) :=
  match date cs with
  | none => time cs
  | some rest =>
      match rest with
      | c :: cs =>
          if c = 'T' ∨ c = 't' ∨ c = ' ' then
            match time cs with
            | some cs => offset cs
            | none => some rest
          else some rest
      | [] => some []

end BrokerBridge.Toml
