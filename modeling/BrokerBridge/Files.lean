import BrokerBridge.OrderedMap

/-!
# Files

What a program finds under a path: the bytes of a file, a directory, or nothing. Paths start from
one directory. A path is walked name by name, and every step takes a directory to stand in.
-/

namespace BrokerBridge

inductive FileTree where
  | file (content : ByteArray)
  | directory (entries : List (String × FileTree))

namespace FileTree

def isDirectory : FileTree → Bool
  | directory _ => true
  | file _ => false

def at? : FileTree → List String → Option FileTree
  | t, [] => some t
  | file _, _ :: _ => none
  | directory entries, name :: rest =>
      match entries.lookup name with
      | some t => t.at? rest
      | none => none

/-- Put something at the end of a way down. Directories on the way are made. Nothing changes
where a file is in the way. -/
def put (new : FileTree) : FileTree → List String → FileTree
  | _, [] => new
  | file content, _ :: _ => file content
  | directory entries, name :: rest =>
      let old := (entries.lookup name).getD (directory [])
      directory (upsert name (put new old rest) entries)

end FileTree

inductive Place where
  /-- Above the directory that paths start from. Nothing but directories is known there. -/
  | above
  /-- In that directory, by the names on the way down; the innermost comes first. -/
  | below (names : List String)

namespace Place

def start (path : String) : Place := if path.startsWith "/" then .above else .below []

def up : Place → Place
  | above | below [] => above
  | below (_ :: names) => below names

def fits (name : String) : Bool := name.utf8ByteSize ≤ 255 && !name.contains '\x00'

def down? : Place → String → Option Place
  | above, _ => none
  | below names, name => if fits name then some (below (name :: names)) else none

/-- One step of a walk. An empty name, as behind a closing slash, and a dot stay in place. -/
def step? (p : Place) (name : String) : Option Place :=
  if name == "" || name == "." then some p
  else if name == ".." then some p.up
  else p.down? name

end Place

structure Files where
  entries : List (String × FileTree) := []

namespace Files

instance instInhabited : Inhabited Files := ⟨{}⟩

/-- The most bytes of a path. A path may have 4095 of them; those of the directory that it starts
from count as well. -/
def longestPath : Nat := 4079

/-- The names along a path; none for a path that is too long to be walked. -/
def names? (path : String) : Option (List String) :=
  if path.utf8ByteSize ≤ longestPath then some (path.splitOn "/") else none

def entry? (f : Files) : Place → Option FileTree
  | .above => some (.directory [])
  | .below names => (FileTree.directory f.entries).at? names.reverse

/-- Put something at a place. What is above stays as it is, and the start is always a directory. -/
def put (f : Files) (p : Place) (t : FileTree) : Files :=
  match p with
  | .above => f
  | .below names =>
      match t.put (.directory f.entries) names.reverse with
      | .directory entries => ⟨entries⟩
      | .file _ => f

def isDirectory (f : Files) (p : Place) : Bool := (f.entry? p).any (·.isDirectory)

/-! ## Reading -/

/-- One step of a walk. It takes a directory to leave from; nothing need be where it goes. -/
def enter? (f : Files) (p : Place) (name : String) : Option Place :=
  if f.isDirectory p then p.step? name else none

def get? (f : Files) (path : String) : Option FileTree := do
  f.entry? (← (← names? path).foldlM f.enter? (.start path))

def exists? (f : Files) (path : String) : Bool := (f.get? path).isSome

/-- The text of a file; none for anything else, and for bytes that are not text. -/
def readText? (f : Files) (path : String) : Option String :=
  match f.get? path with
  | some (.file content) => String.fromUTF8? content
  | _ => none

def hasDirectory (f : Files) (path : String) : Bool := (f.get? path).any (·.isDirectory)

/-! ## Writing -/

def make? (f : Files) (p : Place) (name : String) : Option (Files × Place) := do
  let q ← f.enter? p name
  match f.entry? q with
  | some _ => return (f, q)
  | none => return (f.put q (.directory []), q)

def makeAll? (f : Files) (p : Place) (names : List String) : Option (Files × Place) :=
  names.foldlM (fun (f, p) name => f.make? p name) (f, p)

/-- Of the names along a path, those that are made as far as they are missing. That is all of
them, save the last one where nothing but dots comes behind it. -/
def making (names : List String) : List String :=
  let names := names.filter (· != "")
  if names.getLast? == some "." then (names.reverse.dropWhile (· == ".")).tail.reverse else names

/-- Make a directory and those above it, as far as they are missing. None where a file is in the
way, or where the directory is not there in the end. -/
def makeDirectories? (f : Files) (path : String) : Option Files := do
  let (f, _) ← f.makeAll? (.start path) (making (← names? path))
  if f.hasDirectory path then some f else none

def writeFile? (f : Files) (path : String) (content : ByteArray) : Option Files := do
  let names ← names? path
  let (f, p) ← f.makeAll? (.start path) names.dropLast
  let q ← f.enter? p (names.getLastD "")
  if f.isDirectory q then none else some (f.put q (.file content))

end Files

end BrokerBridge
