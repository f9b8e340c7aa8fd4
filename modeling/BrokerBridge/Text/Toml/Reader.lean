import BrokerBridge.Text.Toml.Scalar

/-!
# Reading TOML

Values, keys, headers and whole documents. `TomlEntries.parse?` answers with the table that a
document stands for, its keys in the order in which they were defined.
-/

namespace BrokerBridge.Toml

/-- Values nest less deep than this, and a dotted key has fewer parts. -/
def nestingLimit : Nat := 80

def skipComment : List Char → List Char
  | '#' :: rest => rest.dropWhile isPlain
  | cs => cs

/-- Blanks, comments and line ends between the values of an array. -/
def skipFiller : (fuel : Nat) → List Char → List Char
  | 0, cs => cs
  | fuel + 1, cs =>
      match newline? (skipComment (skipBlank cs)) with
      | some rest => skipFiller fuel rest
      | none => skipBlank cs

def endLine? (cs : List Char) : Option (List Char) :=
  match skipComment (skipBlank cs) with
  | [] => some []
  | rest => newline? rest

/-! ## Keys -/

def isBare (c : Char) : Bool := c.isAlphanum || c == '-' || c == '_'

/-- One part of a key: bare, or a string on one line. -/
def keyPart : Reader String := fun cs =>
  match cs with
  | '"' :: rest =>
      (basicBody (rest.length + 1) rest).map fun (t, rest) => (String.ofList t, rest)
  | '\'' :: rest => (literalBody rest).map fun (t, rest) => (String.ofList t, rest)
  | cs =>
      match cs.takeWhile isBare with
      | [] => none
      | t => some (String.ofList t, cs.dropWhile isBare)

/-- The parts of a key; at most `limit` of them. -/
def keyParts : (limit : Nat) → Reader (List String)
  | 0, _ => none
  | limit + 1, cs => do
      let (part, rest) ← keyPart (skipBlank cs)
      match skipBlank rest with
      | '.' :: rest =>
          let (parts, rest) ← keyParts limit rest
          return (part :: parts, rest)
      | rest => return ([part], rest)

/-- A key: the path to its table and its name there. -/
def key : Reader (List String × String) := fun cs => do
  let (parts, rest) ← keyParts (nestingLimit - 1) cs
  return ((parts.dropLast, ← parts.getLast?), rest)

/-! ## Values -/

def scalar : Reader TomlValue := fun cs =>
  match cs with
  | '"' :: _ | '\'' :: _ => (string cs).map fun (s, rest) => (.string s, rest)
  | 't' :: _ => (after? "true" cs).map fun rest => (.boolean true, rest)
  | 'f' :: _ => (after? "false" cs).map fun rest => (.boolean false, rest)
  | cs =>
      match datetime cs with
      | some rest => some (.datetime, rest)
      | none =>
          match float cs, specialFloat cs with
          | some (x, rest), _ => some (.float x, rest)
          | none, some (x, rest) => some (.float x, rest)
          | none, none => (integer cs).map fun (i, rest) => (.integer i, rest)

mutual

/-- A value; `fuel` bounds the values read on the way and `depth` how deep they nest. -/
def value : (fuel : Nat) → (depth : Nat) → Reader TomlValue
  | 0, _, _ => none
  | fuel + 1, depth, cs =>
      match cs with
      | '[' :: rest =>
          if depth + 1 < nestingLimit then do
            let (items, rest) ← items fuel (depth + 1) (skipFiller rest.length rest)
            return (.array items, rest)
          else none
      | '{' :: rest =>
          if depth + 1 < nestingLimit then
            match skipBlank rest with
            | '}' :: rest => some (.inline [], rest)
            | rest => do
                let (pairs, rest) ← pairs fuel (depth + 1) rest
                return (.inline (← TomlEntries.ofPairs? pairs), rest)
          else none
      | cs => scalar cs

def items : (fuel : Nat) → (depth : Nat) → Reader (List TomlValue)
  | 0, _, _ => none
  | _ + 1, _, ']' :: rest => some ([], rest)
  | fuel + 1, depth, cs => do
      let (item, rest) ← value fuel depth cs
      match skipFiller rest.length rest with
      | ']' :: rest => return ([item], rest)
      | ',' :: rest =>
          let (more, rest) ← items fuel depth (skipFiller rest.length rest)
          return (item :: more, rest)
      | _ => none

def pairs : (fuel : Nat) → (depth : Nat) → Reader (List TomlPair)
  | 0, _, _ => none
  | fuel + 1, depth, cs => do
      let ((path, key), rest) ← key cs
      let rest ← after? "=" rest
      let (v, rest) ← value fuel depth (skipBlank rest)
      match skipBlank rest with
      | '}' :: rest => return ([⟨path, key, v⟩], rest)
      | ',' :: rest =>
          let (more, rest) ← pairs fuel depth rest
          return (⟨path, key, v⟩ :: more, rest)
      | _ => none

end

/-! ## Documents -/

inductive Line where
  | empty
  | header (h : TomlHeader)
  | pair (p : TomlPair)

def header : Reader TomlHeader := fun cs =>
  match cs with
  | '[' :: '[' :: rest => do
      let ((path, key), rest) ← key rest
      return (.element path key, ← after? "]]" rest)
  | '[' :: rest => do
      let ((path, key), rest) ← key rest
      return (.table path key, ← after? "]" rest)
  | _ => none

def line : Reader Line := fun cs =>
  let cs := skipBlank cs
  match endLine? cs with
  | some rest => some (.empty, rest)
  | none =>
      match cs with
      | '[' :: _ => do
          let (h, rest) ← header cs
          return (.header h, ← endLine? rest)
      | cs => do
          let ((path, key), rest) ← key cs
          let rest ← after? "=" rest
          let (v, rest) ← value (2 * rest.length + 2) 0 (skipBlank rest)
          return (.pair ⟨path, key, v⟩, ← endLine? rest)

def lines : (fuel : Nat) → List Char → Option (List Line)
  | _, [] => some []
  | 0, _ => none
  | fuel + 1, cs => do
      let (l, rest) ← line cs
      return l :: (← lines fuel rest)

def sections : List Line → TomlSection × List TomlSection
  | [] => (⟨none, []⟩, [])
  | l :: rest =>
      let (first, others) := sections rest
      match l with
      | .empty => (first, others)
      | .header h => (⟨none, []⟩, ⟨some h, first.pairs⟩ :: others)
      | .pair p => (⟨none, p :: first.pairs⟩, others)

def byteOrderMark : Char := '\ufeff'

end Toml

/-- The table that a document stands for. A byte order mark in front is passed over. -/
def TomlEntries.parse? (s : String) : Option TomlEntries := do
  let cs := match s.toList with
    | c :: rest => if c = Toml.byteOrderMark then rest else c :: rest
    | [] => []
  let (first, others) := Toml.sections (← Toml.lines (cs.length + 1) cs)
  TomlEntries.ofSections? (first :: others)

end BrokerBridge
