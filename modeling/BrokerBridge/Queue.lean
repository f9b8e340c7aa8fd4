/-!
# Queues

A queue handle keeps the identity, the address and the access rights of an opened queue. What
changes later, its options and whether it is still valid or held back, is kept in a table that
every holder of the handle reads.
-/

namespace BrokerBridge

structure QueueFlags where
  admin : Bool := false
  read : Bool := false
  write : Bool := false
  ack : Bool := false
deriving DecidableEq, Repr

namespace QueueFlags

def ofAccess (read write : Bool) : QueueFlags := { read, write }

def bits (f : QueueFlags) : Nat :=
  f.admin.toNat + 2 * f.read.toNat + 4 * f.write.toNat + 8 * f.ack.toNat

def ofBits (n : Nat) : QueueFlags where
  admin := n.testBit 0
  read := n.testBit 1
  write := n.testBit 2
  ack := n.testBit 3

def union (f g : QueueFlags) : QueueFlags where
  admin := f.admin || g.admin
  read := f.read || g.read
  write := f.write || g.write
  ack := f.ack || g.ack

def contains (f g : QueueFlags) : Bool := f.union g == f

@[simp] theorem ofBits_bits (f : QueueFlags) : ofBits f.bits = f := by
  rcases f with ⟨_ | _, _ | _, _ | _, _ | _⟩ <;> rfl

end QueueFlags

structure QueueOptions where
  maxUnconfirmedMessages : Int := 1000
  maxUnconfirmedBytes : Int := 33554432
  consumerPriority : Int := 0
  suspendsOnBadHostHealth : Bool := false
deriving DecidableEq, Repr, Inhabited

/-- A handle to an opened queue. Two handles are the same queue when their identities agree. -/
structure QueueHandle where
  id : Nat
  uri : String
  flags : QueueFlags
deriving DecidableEq, Repr

namespace QueueHandle

def sameQueue (q r : QueueHandle) : Bool := q.id == r.id

/-- Handles compare by address alone, whichever opening they stem from. -/
def sameAddress (q r : QueueHandle) : Bool := q.uri == r.uri

end QueueHandle

structure QueueState where
  options : QueueOptions := {}
  valid : Bool := true
  suspended : Bool := false
deriving DecidableEq, Repr, Inhabited

/-- The state of every handle made so far; the identity of a handle is its place. -/
structure QueueTable where
  states : List QueueState
deriving DecidableEq, Repr

namespace QueueTable

def empty : QueueTable := ⟨[]⟩

instance : Inhabited QueueTable := ⟨empty⟩

def create (t : QueueTable) (uri : String) (flags : QueueFlags) (options : QueueOptions) :
    QueueHandle × QueueTable :=
  (⟨t.states.length, uri, flags⟩, ⟨t.states ++ [{ options := options }]⟩)

def state (t : QueueTable) (q : QueueHandle) : QueueState := t.states.getD q.id {}

def modify (t : QueueTable) (q : QueueHandle) (f : QueueState → QueueState) : QueueTable :=
  ⟨t.states.modify q.id f⟩

@[simp] theorem length_modify (t : QueueTable) (q : QueueHandle) (f : QueueState → QueueState) :
    (t.modify q f).states.length = t.states.length := by
  simp [modify]

theorem state_modify {t : QueueTable} {q : QueueHandle} (h : q.id < t.states.length)
    (f : QueueState → QueueState) : (t.modify q f).state q = f (t.state q) := by
  simp [state, modify, h]

/-- Handles of one identity share their state, whatever their addresses. -/
theorem state_modify_of_eq {t : QueueTable} {q r : QueueHandle} (h : q.id = r.id)
    (hr : r.id < t.states.length) (f : QueueState → QueueState) :
    (t.modify q f).state r = f (t.state r) := by
  have hq : q.id < t.states.length := h ▸ hr
  have hsame (t : QueueTable) : t.state r = t.state q := by rw [state, state, h]
  rw [hsame, hsame, state_modify hq]

theorem state_modify_of_ne {t : QueueTable} {q r : QueueHandle} (h : q.id ≠ r.id)
    (f : QueueState → QueueState) : (t.modify q f).state r = t.state r := by
  simp [state, modify, h]

@[simp] theorem length_create (t : QueueTable) (uri : String) (flags : QueueFlags)
    (options : QueueOptions) :
    (t.create uri flags options).2.states.length = t.states.length + 1 := by
  simp [create]

theorem state_create (t : QueueTable) (uri : String) (flags : QueueFlags)
    (options : QueueOptions) :
    (t.create uri flags options).2.state (t.create uri flags options).1 =
      { options := options } := by
  simp [state, create]

theorem state_create_of_lt {t : QueueTable} {q : QueueHandle} (h : q.id < t.states.length)
    (uri : String) (flags : QueueFlags) (options : QueueOptions) :
    (t.create uri flags options).2.state q = t.state q := by
  simp [state, create, List.getElem?_append_left h]

def options (t : QueueTable) (q : QueueHandle) : QueueOptions := (t.state q).options

def isValid (t : QueueTable) (q : QueueHandle) : Bool := (t.state q).valid

def isSuspended (t : QueueTable) (q : QueueHandle) : Bool := (t.state q).suspended

def setOptions (t : QueueTable) (q : QueueHandle) (o : QueueOptions) : QueueTable :=
  t.modify q fun s => { s with options := o }

def invalidate (t : QueueTable) (q : QueueHandle) : QueueTable :=
  t.modify q fun s => { s with valid := false }

def setSuspended (t : QueueTable) (q : QueueHandle) (b : Bool) : QueueTable :=
  t.modify q fun s => { s with suspended := b }

section

variable {t : QueueTable} {q r : QueueHandle}

/-- Only a handle of the identity that is invalidated loses its validity. -/
theorem isValid_invalidate (hr : r.id < t.states.length) :
    (t.invalidate q).isValid r = (t.isValid r && r.id != q.id) := by
  unfold isValid invalidate
  by_cases hq : q.id = r.id
  · rw [state_modify_of_eq hq hr, ← hq]
    simp
  · have hne : (r.id != q.id) = true := bne_iff_ne.mpr (Ne.symm hq)
    rw [state_modify_of_ne hq, hne, Bool.and_true]

theorem isSuspended_invalidate (hr : r.id < t.states.length) :
    (t.invalidate q).isSuspended r = t.isSuspended r := by
  unfold isSuspended invalidate
  by_cases hq : q.id = r.id
  · rw [state_modify_of_eq hq hr]
  · rw [state_modify_of_ne hq]

theorem isValid_setSuspended (hr : r.id < t.states.length) (b : Bool) :
    (t.setSuspended q b).isValid r = t.isValid r := by
  unfold isValid setSuspended
  by_cases hq : q.id = r.id
  · rw [state_modify_of_eq hq hr]
  · rw [state_modify_of_ne hq]

theorem isSuspended_setSuspended (hr : r.id < t.states.length) (b : Bool) :
    (t.setSuspended q b).isSuspended r = if r.id = q.id then b else t.isSuspended r := by
  unfold isSuspended setSuspended
  by_cases hq : q.id = r.id
  · rw [state_modify_of_eq hq hr, if_pos hq.symm]
  · rw [state_modify_of_ne hq, if_neg (Ne.symm hq)]

end

end QueueTable

end BrokerBridge
