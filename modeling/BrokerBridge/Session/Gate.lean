import BrokerBridge.Host.Lock

/-!
# The started gate

Queue operations hold the gate open for reading while their native call runs; starting and
stopping change it alone. A stop that waits keeps new readers out, except those that are nested:
they may join as long as somebody holds the gate.
-/

namespace BrokerBridge

/-- A stop that waits, on a thread of its own, for the readers to leave. -/
structure StopRequest where
  thread : ThreadId
  warn : Bool
deriving DecidableEq, Repr

structure Gate where
  started : Bool := false
  /-- How often each thread counts itself inside. -/
  readers : List (ThreadId × Nat) := []
  /-- How often the gate is held for reading. -/
  holds : Nat := 0
  /-- The stops that wait, in order of arrival. -/
  waiting : List StopRequest := []
deriving DecidableEq, Repr

namespace Gate

instance : Inhabited Gate := ⟨{}⟩

def isReader (g : Gate) (t : ThreadId) : Bool := (g.readers.lookup t).isSome

def depthOf (g : Gate) (t : ThreadId) : Nat := (g.readers.lookup t).getD 0

/-- Whether a reader may take hold now. A waiting stop lets in only nested readers, and only
while the gate is held already. -/
def admits (g : Gate) (nested : Bool) : Bool :=
  g.waiting.isEmpty || (nested && g.holds != 0)

def hold (g : Gate) : Gate := { g with holds := g.holds + 1 }

def release (g : Gate) : Gate := { g with holds := g.holds - 1 }

@[simp] theorem release_hold (g : Gate) : g.hold.release = g := by
  simp [hold, release]

def count (g : Gate) (t : ThreadId) : Gate :=
  match g.readers.lookup t with
  | some n => { g with readers := g.readers.map fun e => if e.1 = t then (t, n + 1) else e }
  | none => { g with readers := g.readers ++ [(t, 1)] }

/-- Count one level of a thread less; a thread without levels is forgotten. -/
def uncount (g : Gate) (t : ThreadId) : Gate :=
  match g.readers.lookup t with
  | some n =>
      if n - 1 = 0 then { g with readers := g.readers.filter (·.1 != t) }
      else { g with readers := g.readers.map fun e => if e.1 = t then (t, n - 1) else e }
  | none => g

private theorem lookup_map_self {l : List (ThreadId × Nat)} {t : ThreadId} (n : Nat)
    (h : (l.lookup t).isSome) :
    (l.map fun e => if e.1 = t then (t, n) else e).lookup t = some n := by
  induction l with
  | nil => cases h
  | cons e l ih =>
    obtain ⟨k, m⟩ := e
    by_cases hk : k = t
    · simp [hk]
    · have hb : (t == k) = false := beq_eq_false_iff_ne.mpr (Ne.symm hk)
      simp only [List.lookup_cons, hb] at h
      simpa [List.lookup_cons, hk, hb] using ih h

private theorem lookup_map_of_ne {l : List (ThreadId × Nat)} {t u : ThreadId} (n : Nat)
    (hu : u ≠ t) : (l.map fun e => if e.1 = t then (t, n) else e).lookup u = l.lookup u := by
  induction l with
  | nil => rfl
  | cons e l ih =>
    obtain ⟨k, m⟩ := e
    by_cases hk : k = t
    · have hb : (u == t) = false := beq_eq_false_iff_ne.mpr hu
      simpa [List.lookup_cons, hk, hb] using ih
    · simp only [List.map_cons, hk, if_false, List.lookup_cons, ih]

private theorem lookup_filter {l : List (ThreadId × Nat)} {t u : ThreadId} :
    (l.filter (·.1 != t)).lookup u = if u = t then none else l.lookup u := by
  induction l with
  | nil => simp
  | cons e l ih =>
    obtain ⟨k, m⟩ := e
    by_cases hk : k = t
    · by_cases hu : u = t
      · simpa [hk, hu] using ih
      · have hb : (u == t) = false := beq_eq_false_iff_ne.mpr hu
        simpa [hk, hu, List.lookup_cons, hb] using ih
    · by_cases hu : u = t
      · have hb : (t == k) = false := beq_eq_false_iff_ne.mpr (Ne.symm hk)
        simpa [hk, hu, List.lookup_cons, hb] using ih
      · simp [hk, hu, List.lookup_cons, ih]

/-- One level more of the thread that is counted. -/
theorem lookup_count (g : Gate) (t u : ThreadId) :
    (g.count t).readers.lookup u =
      if u = t then some (g.depthOf t + 1) else g.readers.lookup u := by
  unfold count depthOf
  cases h : g.readers.lookup t with
  | some n =>
    by_cases hu : u = t
    · subst hu
      simpa using lookup_map_self (n + 1) (by simp [h])
    · simpa [hu] using lookup_map_of_ne (n + 1) hu
  | none =>
    by_cases hu : u = t
    · subst hu
      simp [List.lookup_append, h]
    · have hb : (u == t) = false := beq_eq_false_iff_ne.mpr hu
      simp [List.lookup_append, List.lookup_cons, hu, hb]

/-- One level less of the thread that is counted out; its last level goes with its entry. -/
theorem lookup_uncount (g : Gate) (t u : ThreadId) :
    (g.uncount t).readers.lookup u =
      if u = t then (if g.depthOf t ≤ 1 then none else some (g.depthOf t - 1))
      else g.readers.lookup u := by
  unfold uncount depthOf
  cases h : g.readers.lookup t with
  | some n =>
    by_cases hn : n - 1 = 0
    · have hle : n ≤ 1 := by omega
      simp only [hn, if_true, lookup_filter, Option.getD_some, hle]
    · have hle : ¬n ≤ 1 := by omega
      by_cases hu : u = t
      · subst hu
        simpa [hn, hle] using lookup_map_self (n - 1) (by simp [h])
      · simpa [hn, hle, hu] using lookup_map_of_ne (n - 1) hu
  | none =>
    by_cases hu : u = t
    · subst hu
      simp [h]
    · simp [hu]

theorem depthOf_count (g : Gate) (t u : ThreadId) :
    (g.count t).depthOf u = if u = t then g.depthOf t + 1 else g.depthOf u := by
  rw [depthOf, lookup_count]
  split <;> rfl

theorem depthOf_uncount (g : Gate) (t u : ThreadId) :
    (g.uncount t).depthOf u = if u = t then g.depthOf t - 1 else g.depthOf u := by
  rw [depthOf, lookup_uncount]
  split
  · split
    · simp only [Option.getD_none]
      omega
    · rfl
  · rfl

@[simp] theorem started_hold (g : Gate) : g.hold.started = g.started := rfl

@[simp] theorem started_count (g : Gate) (t : ThreadId) :
    (g.count t).started = g.started := by
  unfold count
  split <;> rfl

@[simp] theorem holds_count (g : Gate) (t : ThreadId) : (g.count t).holds = g.holds := by
  unfold count
  split <;> rfl

theorem waiting_count (g : Gate) (t : ThreadId) : (g.count t).waiting = g.waiting := by
  unfold count
  split <;> rfl

@[simp] theorem started_uncount (g : Gate) (t : ThreadId) :
    (g.uncount t).started = g.started := by
  unfold uncount
  split
  · split <;> rfl
  · rfl

@[simp] theorem holds_uncount (g : Gate) (t : ThreadId) : (g.uncount t).holds = g.holds := by
  unfold uncount
  split
  · split <;> rfl
  · rfl

theorem waiting_uncount (g : Gate) (t : ThreadId) : (g.uncount t).waiting = g.waiting := by
  unfold uncount
  split
  · split <;> rfl
  · rfl

def isClear (g : Gate) : Bool := g.holds == 0

def setStarted (g : Gate) (b : Bool) : Gate := { g with started := b }

def request (g : Gate) (r : StopRequest) : Gate := { g with waiting := g.waiting ++ [r] }

end Gate

end BrokerBridge
