/-!
# Host execution

Host code runs on one thread at a time. The thread that runs it may enter again, to any depth,
and may step out of all its levels at once around a native call and back in afterwards.
-/

namespace BrokerBridge

abbrev ThreadId := Nat

structure HostLock where
  owner : Option ThreadId
  depth : Nat
deriving DecidableEq, Repr

namespace HostLock

def free : HostLock := ⟨none, 0⟩

instance : Inhabited HostLock := ⟨free⟩

def isHeldBy (l : HostLock) (t : ThreadId) : Bool := l.owner == some t

/-- How often a thread has entered: zero unless it is the owner. -/
def depthOf (l : HostLock) (t : ThreadId) : Nat := if l.owner = some t then l.depth else 0

/-- Enter `n` levels deep; `none` while another thread is inside. -/
def enter? (l : HostLock) (t : ThreadId) (n : Nat) : Option HostLock :=
  match l.owner with
  | none => some ⟨some t, n⟩
  | some u => if u = t then some ⟨some t, l.depth + n⟩ else none

/-- Leave one level. The last level frees the lock. -/
def leave (l : HostLock) : HostLock :=
  if l.depth - 1 = 0 then free else { l with depth := l.depth - 1 }

/-- Step out of every level; answers how many there were. -/
def leaveAll (l : HostLock) (t : ThreadId) : Nat × HostLock :=
  if l.owner = some t then (l.depth, free) else (0, l)

/-- Step back into the levels that `leaveAll` answered; `none` while another thread is inside. -/
def restore? (l : HostLock) (t : ThreadId) (saved : Nat) : Option HostLock :=
  if saved = 0 then some l else l.enter? t saved

def WellFormed (l : HostLock) : Prop := l.owner.isSome ↔ 0 < l.depth

theorem wellFormed_free : free.WellFormed := by simp [WellFormed, free]

theorem wellFormed_leave {l : HostLock} (h : l.WellFormed) : l.leave.WellFormed := by
  unfold leave
  split
  · exact wellFormed_free
  · simp only [WellFormed] at h ⊢
    rw [h]
    omega

theorem wellFormed_enter? {l l' : HostLock} {t : ThreadId} {n : Nat} (hn : 0 < n)
    (h : l.enter? t n = some l') : l'.WellFormed := by
  unfold enter? at h
  split at h
  · cases h
    simp [WellFormed, hn]
  · split at h
    · cases h
      simp only [WellFormed, Option.isSome_some, true_iff]
      omega
    · cases h

theorem wellFormed_leaveAll {l : HostLock} {t : ThreadId} (h : l.WellFormed) :
    (l.leaveAll t).2.WellFormed := by
  unfold leaveAll
  split
  · exact wellFormed_free
  · exact h

/-- Stepping out and back in leaves a thread where it was. -/
theorem restore?_leaveAll {l : HostLock} {t : ThreadId} (h : l.WellFormed) :
    (l.leaveAll t).2.restore? t (l.leaveAll t).1 = some l := by
  unfold leaveAll
  split
  · next ho =>
    have hd : 0 < l.depth := h.1 (by simp [ho])
    have hz : l.depth ≠ 0 := by omega
    simp only [restore?, hz, if_false, free, enter?]
    rw [← ho]
  · simp [restore?]

theorem depthOf_of_owner_ne {l : HostLock} {t : ThreadId} (h : l.owner ≠ some t) :
    l.depthOf t = 0 :=
  if_neg h

theorem owner_of_depthOf {l : HostLock} {t : ThreadId} (h : l.depthOf t ≠ 0) :
    l.owner = some t := by
  by_cases ho : l.owner = some t
  · exact ho
  · exact absurd (depthOf_of_owner_ne ho) h

theorem isHeldBy_eq_false_iff {l : HostLock} (h : l.WellFormed) {t : ThreadId} :
    l.isHeldBy t = false ↔ l.depthOf t = 0 := by
  by_cases ho : l.owner = some t
  · have hd : 0 < l.depth := h.mp (by simp [ho])
    simp only [isHeldBy, depthOf, ho, beq_self_eq_true, if_true]
    simp
    omega
  · simp [isHeldBy, depthOf, ho]

theorem leaveAll_fst (l : HostLock) (t : ThreadId) : (l.leaveAll t).1 = l.depthOf t := by
  unfold leaveAll depthOf
  split <;> rfl

theorem depthOf_leaveAll (l : HostLock) (t u : ThreadId) :
    (l.leaveAll t).2.depthOf u = if u = t then 0 else l.depthOf u := by
  unfold leaveAll
  split
  · next ho =>
    by_cases hu : u = t
    · simp [hu, free, depthOf]
    · have hne : l.owner ≠ some u := by
        rw [ho]
        exact fun h => hu (Option.some.inj h).symm
      simp [hu, free, depthOf, hne]
  · next ho =>
    by_cases hu : u = t
    · subst hu
      simp [depthOf, ho]
    · simp [hu]

theorem depthOf_enter? {l l' : HostLock} {t : ThreadId} {n : Nat} (h : l.enter? t n = some l')
    (u : ThreadId) : l'.depthOf u = if u = t then l.depthOf t + n else l.depthOf u := by
  unfold enter? at h
  split at h
  · next ho =>
    cases h
    by_cases hu : u = t
    · simp [hu, depthOf, ho]
    · have hne : ¬t = u := fun h => hu h.symm
      simp [hu, depthOf, ho, hne]
  · next v ho =>
    split at h
    · next hv =>
      cases h
      subst hv
      by_cases hu : u = v
      · simp [hu, depthOf, ho]
      · have hne : ¬v = u := fun h => hu h.symm
        simp [hu, depthOf, ho, hne]
    · cases h

theorem depthOf_restore? {l l' : HostLock} {t : ThreadId} {n : Nat}
    (h : l.restore? t n = some l') (u : ThreadId) :
    l'.depthOf u = if u = t then l.depthOf t + n else l.depthOf u := by
  unfold restore? at h
  split at h
  · next hn =>
    cases h
    by_cases hu : u = t
    · simp [hu, hn]
    · simp [hu]
  · exact depthOf_enter? h u

theorem depthOf_leave {l : HostLock} {t : ThreadId} (h : l.owner = some t) (u : ThreadId) :
    l.leave.depthOf u = if u = t then l.depthOf t - 1 else l.depthOf u := by
  have hother (hu : u ≠ t) : l.owner ≠ some u := by
    rw [h]
    exact fun heq => hu (Option.some.inj heq).symm
  unfold leave
  by_cases hu : u = t
  · subst hu
    split <;> simp_all [depthOf, free]
  · have hne := hother hu
    split <;> simp_all [depthOf, free]

/-- Leaving undoes entering. -/
theorem leave_enter? {l l' : HostLock} {t : ThreadId} (hl : l.WellFormed)
    (h : l.enter? t 1 = some l') : l'.leave = l := by
  obtain ⟨owner, depth⟩ := l
  unfold enter? at h
  split at h
  · next ho =>
    cases h
    have hd : ¬0 < depth := fun hd => by
      have hsome := hl.mpr hd
      simp_all
    have ho : owner = none := ho
    simp [leave, free, ho]
    omega
  · next v ho =>
    split at h
    · next hv =>
      cases h
      have ho : owner = some v := ho
      have hd : 0 < depth := hl.mp (by simp [ho])
      subst hv
      have hne : depth + 1 - 1 ≠ 0 := by omega
      simp [leave, ho]
      omega
    · cases h

end HostLock

end BrokerBridge
