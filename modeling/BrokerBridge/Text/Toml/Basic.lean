/-!
# TOML documents

A document is a run of sections, each opened by a header or, for the first one, by none.
`TomlTable.ofSections?` puts the sections together into one table, or refuses them: a key is
defined once, and a table is not reopened by a header or by dotted keys unless so far it was
only named on the way to others.
-/

namespace BrokerBridge

/-- How a table came about, which decides whether it may be added to. -/
inductive TomlOrigin where
  /-- Named on the way to another table's header. -/
  | implied
  /-- Named on the way to a dotted key. -/
  | dotted
  /-- Opened by a header of its own. -/
  | defined
deriving DecidableEq, Repr

inductive TomlValue where
  | string (text : String)
  | integer (i : Int)
  | float (x : Float)
  | boolean (b : Bool)
  | datetime
  | array (items : List TomlValue)
  /-- A table written as one value, to which nothing can be added. -/
  | inline (entries : List (String × TomlValue))
  | table (origin : TomlOrigin) (entries : List (String × TomlValue))
  | tables (elements : List (List (String × TomlValue)))

abbrev TomlEntries := List (String × TomlValue)

structure TomlPair where
  path : List String
  key : String
  value : TomlValue

inductive TomlHeader where
  | table (path : List String) (key : String)
  | element (path : List String) (key : String)

structure TomlSection where
  /-- None for what stands before the first header. -/
  header : Option TomlHeader
  pairs : List TomlPair

namespace TomlEntries

def isNamed (e : TomlEntries) (key : String) : Bool := (e.lookup key).isSome

def set (e : TomlEntries) (key : String) (v : TomlValue) : TomlEntries :=
  e.map fun entry => if entry.1 = key then (key, v) else entry

def remove (e : TomlEntries) (key : String) : TomlEntries := e.filter (·.1 != key)

/-- Go down a path from a table of the given origin and change the table at its end. Tables that
are missing are made. An array of tables is entered through its last one. -/
def descend? (named : TomlOrigin) (change : TomlOrigin → TomlEntries → Option TomlEntries) :
    (path : List String) → TomlOrigin → TomlEntries → Option TomlEntries
  | [], origin, e => change origin e
  | key :: path, _, e =>
      match e.lookup key with
      | none => do
          let inner ← descend? named change path named []
          return e ++ [(key, .table named inner)]
      | some (.table origin inner) =>
          if named = .dotted ∧ origin = .defined then none
          else do
            let inner ← descend? named change path origin inner
            return set e key (.table origin inner)
      | some (.tables elements) => do
          let last ← elements.getLast?
          let last ← descend? named change path .defined last
          return set e key (.tables (elements.dropLast ++ [last]))
      | some _ => none

/-- Add a pair to a table. Dotted keys go into tables made by dotted keys only. -/
def addPair? (p : TomlPair) (e : TomlEntries) : Option TomlEntries :=
  descend? .dotted
    (fun origin e =>
      if (origin == .dotted) == p.path.isEmpty || e.isNamed p.key then none
      else some (e ++ [(p.key, p.value)]))
    p.path .defined e

def addPairs? (pairs : List TomlPair) (e : TomlEntries) : Option TomlEntries :=
  pairs.foldlM (fun e p => addPair? p e) e

/-- Add a section. A table that was only implied so far keeps what it holds and moves to the end
of the table around it. -/
def addSection? (e : TomlEntries) (s : TomlSection) : Option TomlEntries :=
  match s.header with
  | none => addPairs? s.pairs e
  | some (.table path key) =>
      descend? .implied
        (fun _ e =>
          match e.lookup key with
          | none => do return e ++ [(key, .table .defined (← addPairs? s.pairs []))]
          | some (.table .implied inner) => do
              return remove e key ++ [(key, .table .defined (← addPairs? s.pairs inner))]
          | some _ => none)
        path .defined e
  | some (.element path key) =>
      descend? .implied
        (fun _ e =>
          match e.lookup key with
          | none => do return e ++ [(key, .tables [← addPairs? s.pairs []])]
          | some (.tables elements) => do
              return set e key (.tables (elements ++ [← addPairs? s.pairs []]))
          | some _ => none)
        path .defined e

def ofSections? (sections : List TomlSection) : Option TomlEntries :=
  sections.foldlM addSection? []

def ofPairs? (pairs : List TomlPair) : Option TomlEntries := addPairs? pairs []

end TomlEntries

end BrokerBridge
