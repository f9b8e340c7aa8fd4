import BrokerBridge.Host.Lock

/-!
# Guards on one thread

A guard either holds one level of host execution or keeps a thread out of all its levels; when
it is dropped it undoes just that. `GuardBench` keeps the named guards of one thread, and the
workers that wait for the thread to step out.
-/

namespace BrokerBridge

inductive HostGuard where
  | entered
  | steppedOut (saved : Nat)
deriving DecidableEq, Repr

namespace HostGuard

def drop? (l : HostLock) (t : ThreadId) : HostGuard → Option HostLock
  | entered => some l.leave
  | steppedOut saved => l.restore? t saved

end HostGuard

/-- A thread that enters `depth` levels, tells whether it is inside, and leaves. -/
structure HostWorker where
  name : String
  depth : Nat
deriving DecidableEq, Repr

structure GuardBench where
  lock : HostLock := .free
  guards : List (String × HostGuard) := []
  waiting : List HostWorker := []
deriving DecidableEq, Repr

namespace GuardBench

def self : ThreadId := 0

private def dropOld (b : GuardBench) (name : String) : GuardBench :=
  match b.guards.lookup name with
  | none => b
  | some g =>
      { b with
        lock := (g.drop? b.lock self).getD b.lock
        guards := b.guards.filter (·.1 != name) }

/-- A new guard under a used name comes first, then the old one is dropped. -/
private def keep (b : GuardBench) (name : String) (g : HostGuard) : GuardBench :=
  let b := b.dropOld name
  { b with guards := b.guards ++ [(name, g)] }

def acquire (b : GuardBench) (name : String) : GuardBench :=
  keep { b with lock := (b.lock.enter? self 1).getD b.lock } name .entered

def release (b : GuardBench) (name : String) : GuardBench :=
  let (saved, lock) := b.lock.leaveAll self
  keep { b with lock } name (.steppedOut saved)

def drop (b : GuardBench) (name : String) : GuardBench := b.dropOld name

def addWorker (b : GuardBench) (w : HostWorker) : GuardBench :=
  { b with waiting := b.waiting ++ [w] }

def isHeld (b : GuardBench) : Bool := b.lock.isHeldBy self

def runWorker (l : HostLock) (t : ThreadId) (w : HostWorker) : Bool × HostLock :=
  if w.depth = 0 then (l.isHeldBy t, l)
  else
    match l.enter? t w.depth with
    | none => (false, l)
    | some inside => (inside.isHeldBy t, w.depth.repeat (fun l => l.leave) inside)

/-- Let the waiting workers in, unless the thread is inside itself. -/
def letIn (b : GuardBench) : List (String × Bool) × GuardBench :=
  if b.isHeld then ([], b)
  else
    let (seen, lock) := b.waiting.foldl
      (fun (seen, l) w =>
        let (inside, l) := runWorker l (self + 1 + seen.length) w
        (seen ++ [(w.name, inside)], l))
      ([], b.lock)
    (seen, { b with lock, waiting := [] })

end GuardBench

end BrokerBridge
