import BrokerBridge.Host.Health
import BrokerBridge.Proofs.Concurrency.Threads

/-!
# Listeners of a health monitor

Threads set the state of one monitor, and whoever changes it calls the listeners. The change, the
snapshot of the listeners and each of their calls are steps of their own, and a listener may use the
monitor again before its call returns. A listener that is told of one change at a time is told of
all of them in their order.
-/

namespace BrokerBridge

structure Audience (ι α β : Type) where
  /-- A listener is called. -/
  hear : Nat × ι → HealthState → β → β
  /-- Someone reads the state and is about to subscribe. -/
  read : ι → HealthState → β → β
  /-- The users do something that is none of the monitor's business. -/
  act : α → β → β

structure MonitorRoom (ι β : Type) where
  monitor : HealthMonitor ι := {}
  books : β

/-- What a thread can be inside of: a change of which the listeners have not been looked up, the
calls that are left of one, one such call, or a subscription whose state has been read. -/
inductive MonitorWork (ι : Type) where
  | changed (h : HealthState)
  | telling (h : HealthState) (rest : List (Nat × ι))
  | listening (h : HealthState) (rest : List (Nat × ι))
  | joining (l : ι)
deriving DecidableEq

inductive MonitorMove (ι α : Type) where
  | set (h : HealthState)
  | join (l : ι)
  | drop (id : Nat)
  | act (a : α)
  | proceed
deriving DecidableEq

variable {ι α β : Type}

def MonitorWork.isOpen : List (MonitorWork ι) → Bool
  | [] | listening _ _ :: _ => true
  | _ => false

namespace MonitorRoom

def use (aud : Audience ι α β) (s : MonitorRoom ι β) (stack : List (MonitorWork ι)) :
    MonitorMove ι α → Option (MonitorRoom ι β × List (MonitorWork ι))
  | .set h =>
      if s.monitor.state = h then some (s, stack)
      else some ({ s with monitor := (s.monitor.transition h).2 }, .changed h :: stack)
  | .join l => some ({ s with books := aud.read l s.monitor.state s.books }, .joining l :: stack)
  | .drop id => some ({ s with monitor := s.monitor.unsubscribe id }, stack)
  | .act a => some ({ s with books := aud.act a s.books }, stack)
  | .proceed => none

def proceed? (aud : Audience ι α β) (s : MonitorRoom ι β) :
    List (MonitorWork ι) → Option (MonitorRoom ι β × List (MonitorWork ι))
  | .changed h :: rest => some (s, .telling h s.monitor.listeners :: rest)
  | .telling _ [] :: rest => some (s, rest)
  | .telling h (l :: ls) :: rest =>
      some ({ s with books := aud.hear l h s.books }, .listening h ls :: rest)
  | .listening h ls :: rest => some (s, .telling h ls :: rest)
  | .joining l :: rest => some ({ s with monitor := (s.monitor.subscribe l).2 }, rest)
  | [] => none

end MonitorRoom

def monitorProgram (aud : Audience ι α β) :
    Program (MonitorRoom ι β) (MonitorWork ι) (MonitorMove ι α)
  | s, _, stack, .proceed => s.proceed? aud stack
  | s, _, stack, m => if MonitorWork.isOpen stack then s.use aud stack m else none

inductive MonitorRoom.Turn (aud : Audience ι α β) (s : MonitorRoom ι β) :
    MonitorMove ι α → Option (MonitorWork ι) → MonitorRoom ι β → Option (MonitorWork ι) → Prop
  | keep : Turn aud s (.set s.monitor.state) none s none
  | change (h) (new : s.monitor.state ≠ h) :
      Turn aud s (.set h) none { s with monitor := (s.monitor.transition h).2 } (some (.changed h))
  | join (l) :
      Turn aud s (.join l) none { s with books := aud.read l s.monitor.state s.books }
        (some (.joining l))
  | drop (id) : Turn aud s (.drop id) none { s with monitor := s.monitor.unsubscribe id } none
  | act (a) : Turn aud s (.act a) none { s with books := aud.act a s.books } none
  | lookUp (h) :
      Turn aud s .proceed (some (.changed h)) s (some (.telling h s.monitor.listeners))
  | done (h) : Turn aud s .proceed (some (.telling h [])) s none
  | call (h l ls) :
      Turn aud s .proceed (some (.telling h (l :: ls)))
        { s with books := aud.hear l h s.books } (some (.listening h ls))
  | back (h ls) : Turn aud s .proceed (some (.listening h ls)) s (some (.telling h ls))
  | subscribe (l) :
      Turn aud s .proceed (some (.joining l)) { s with monitor := (s.monitor.subscribe l).2 } none

private theorem turn_of_monitorProgram {aud : Audience ι α β} {s s' : MonitorRoom ι β}
    {t : ThreadId}
    {stack stack' : List (MonitorWork ι)} {m : MonitorMove ι α}
    (h : monitorProgram aud s t stack m = some (s', stack')) :
    ∃ before after rest, MonitorRoom.Turn aud s m before s' after ∧
      stack = before.toList ++ rest ∧ stack' = after.toList ++ rest := by
  unfold monitorProgram at h
  split at h
  · unfold MonitorRoom.proceed? at h
    split at h
    · cases h
      exact ⟨_, _, _, .lookUp _, rfl, rfl⟩
    · cases h
      exact ⟨_, _, _, .done _, rfl, rfl⟩
    · cases h
      exact ⟨_, _, _, .call _ _ _, rfl, rfl⟩
    · cases h
      exact ⟨_, _, _, .back _ _, rfl, rfl⟩
    · cases h
      exact ⟨_, _, _, .subscribe _, rfl, rfl⟩
    · cases h
  · split at h
    · unfold MonitorRoom.use at h
      split at h
      · split at h
        · next hsame =>
          cases h
          subst hsame
          exact ⟨_, _, _, .keep, rfl, rfl⟩
        · next hnew =>
          cases h
          exact ⟨_, _, _, .change _ hnew, rfl, rfl⟩
      · cases h
        exact ⟨_, _, _, .join _, rfl, rfl⟩
      · cases h
        exact ⟨_, _, _, .drop _, rfl, rfl⟩
      · cases h
        exact ⟨_, _, _, .act _, rfl, rfl⟩
      · cases h
    · cases h

abbrev MonitorThreads (n : Nat) (ι β : Type) := Threads n (MonitorRoom ι β) (MonitorWork ι)

namespace MonitorThreads

def idle (n : Nat) (monitor : HealthMonitor ι) (books : β) : MonitorThreads n ι β :=
  Threads.atRest ⟨monitor, books⟩

theorem turn_of_step? {n : Nat} {aud : Audience ι α β} {s s' : MonitorThreads n ι β} {t : Fin n}
    {m : MonitorMove ι α} (h : s.step? (monitorProgram aud) t m = some s') :
    ∃ before shared after rest, s.shared.Turn aud m before shared after ∧
      s.stackOf t = before.toList ++ rest ∧ s' = s.set t shared (after.toList ++ rest) := by
  obtain ⟨shared, stack, hp, rfl⟩ := Threads.exists_of_step? h
  obtain ⟨before, after, rest, turn, hbefore, rfl⟩ := turn_of_monitorProgram hp
  exact ⟨before, shared, after, rest, turn, hbefore, rfl⟩

theorem isOpen_of_step? {n : Nat} {aud : Audience ι α β} {s s' : MonitorThreads n ι β} {t : Fin n}
    {m : MonitorMove ι α} (hm : m ≠ .proceed) (h : s.step? (monitorProgram aud) t m = some s') :
    MonitorWork.isOpen (s.stackOf t) = true := by
  obtain ⟨_, _, hp, _⟩ := Threads.exists_of_step? h
  unfold monitorProgram at hp
  split at hp
  · exact absurd rfl hm
  · split at hp
    · assumption
    · cases hp

end MonitorThreads

/-! ## Changes on their way -/

namespace MonitorWork

def isDue (p : Nat × ι → Bool) : MonitorWork ι → Bool
  | changed _ => true
  | telling _ rest | listening _ rest => rest.any p
  | joining _ => false

def due (p : Nat × ι → Bool) (w : MonitorWork ι) : Nat := (w.isDue p).toNat

theorem isDue_telling {p : Nat × ι → Bool} {h : HealthState} {l : Nat × ι} {ls : List (Nat × ι)}
    (hdue : (listening h ls).isDue p) : (telling h (l :: ls)).isDue p := by
  simp only [isDue] at hdue ⊢
  rw [List.any_cons, hdue, Bool.or_true]

def news? : MonitorWork ι → Option HealthState
  | changed h | telling h _ | listening h _ => some h
  | joining _ => none

end MonitorWork

namespace MonitorThreads

variable {n : Nat} {aud : Audience ι α β} {p : Nat × ι → Bool} {s s' : MonitorThreads n ι β}
  {t : Fin n} {m : MonitorMove ι α}

/-- The number of changes that are on their way to one of the listeners `p`. -/
def underWay (p : Nat × ι → Bool) (s : MonitorThreads n ι β) : Nat :=
  s.weight (MonitorWork.due p)

def UpToDate (p : Nat × ι → Bool) (s : MonitorThreads n ι β) : Prop :=
  ∀ t, ∀ w ∈ s.stackOf t, w.isDue p → w.news? = some s.shared.monitor.state

theorem isDue_of_underWay (h : s.underWay p = 0) {w : MonitorWork ι} (hw : w ∈ s.stackOf t) :
    w.isDue p = false := by
  have hzero := Threads.weight_eq_zero_iff.mp h t w hw
  by_contra hdue
  rw [MonitorWork.due, Bool.eq_true_of_not_eq_false hdue] at hzero
  cases hzero

/-- While no two changes are on their way at once, none comes late. -/
theorem UpToDate.step (hs : s.UpToDate p) (hone : s'.underWay p ≤ 1)
    (hstep : s.step? (monitorProgram aud) t m = some s') : s'.UpToDate p := by
  obtain ⟨before, shared, after, rest, turn, hbefore, rfl⟩ := turn_of_step? hstep
  have top : ∀ w ∈ before, w.isDue p → w.news? = some s.shared.monitor.state :=
    fun w hw => hs t w (Threads.mem_of_exchange hbefore hw)
  have hafter : ∀ w ∈ after, w.isDue p → w.news? = some shared.monitor.state := by
    intro w hw hdue
    cases turn with
    | keep | drop _ | act _ | done _ | subscribe _ => cases hw
    | change h _ =>
      cases hw
      exact congrArg some (s.shared.monitor.state_transition h).symm
    | join l =>
      cases hw
      cases hdue
    | lookUp h =>
      cases hw
      exact top (.changed h) rfl rfl
    | call h l ls =>
      cases hw
      exact top (.telling h (l :: ls)) rfl (MonitorWork.isDue_telling hdue)
    | back h ls =>
      cases hw
      exact top (.listening h ls) rfl hdue
  have hothers : ∀ u, ∀ w ∈ s.stackOf u, w.isDue p → w.news? = some shared.monitor.state := by
    cases turn with
    | change h _ =>
      -- nothing else is on its way now
      have hdue : (MonitorWork.changed h : MonitorWork ι).due p = 1 := rfl
      have hsum := Threads.weight_exchange (MonitorWork.due p) hbefore
        { s.shared with monitor := (s.shared.monitor.transition h).2 } (some (.changed h))
      rw [Option.elim_some, hdue] at hsum
      have hzero := Nat.le_zero.mp (Nat.le_of_succ_le_succ (hsum.symm.trans_le hone))
      intro u w hw hdue
      rw [isDue_of_underWay hzero hw] at hdue
      cases hdue
    | _ => exact hs
  exact Threads.forall_mem_exchange hothers hbefore hafter shared

theorem upToDate_idle (monitor : HealthMonitor ι) (books : β) :
    (idle n monitor books).UpToDate p :=
  nofun

end MonitorThreads

/-! ## Listeners that stay subscribed -/

namespace HealthMonitor

structure Numbered (m : HealthMonitor ι) : Prop where
  nodup : (m.listeners.map Prod.fst).Nodup
  given : ∀ l ∈ m.listeners, l.1 < m.nextId

def IsSubscribed (m : HealthMonitor ι) (id : Nat) : Prop := ∃ l ∈ m.listeners, l.1 = id

theorem numbered_new : ({} : HealthMonitor ι).Numbered := ⟨List.nodup_nil, nofun⟩

variable {m : HealthMonitor ι} {id : Nat}

theorem Numbered.subscribe (hm : m.Numbered) (l : ι) : (m.subscribe l).2.Numbered where
  nodup := by
    have hnew : m.nextId ∉ m.listeners.map Prod.fst := by
      intro h
      obtain ⟨old, hold, heq⟩ := List.mem_map.mp h
      exact Nat.ne_of_lt (hm.given old hold) heq
    show ((m.listeners ++ [(m.nextId, l)]).map Prod.fst).Nodup
    rw [List.map_append]
    exact List.concat_eq_append ▸ hm.nodup.concat hnew
  given old hold := by
    rcases List.mem_append.mp hold with hold | hold
    · exact Nat.lt_succ_of_lt (hm.given old hold)
    · rw [List.mem_singleton.mp hold]
      exact Nat.lt_succ_self _

private theorem Numbered.unsubscribe (hm : m.Numbered) (id : Nat) :
    (m.unsubscribe id).Numbered where
  nodup := hm.nodup.sublist (List.filter_sublist.map _)
  given l hl := hm.given l (List.mem_filter.mp hl).1

private theorem Numbered.transition (hm : m.Numbered) (h : HealthState) :
    (m.transition h).2.Numbered := by
  unfold HealthMonitor.transition
  split
  · exact hm
  · exact ⟨hm.nodup, hm.given⟩

private theorem IsSubscribed.subscribe (h : m.IsSubscribed id) (l : ι) :
    (m.subscribe l).2.IsSubscribed id := by
  obtain ⟨old, hold, heq⟩ := h
  exact ⟨old, List.mem_append_left _ hold, heq⟩

private theorem IsSubscribed.unsubscribe (h : m.IsSubscribed id) {other : Nat} (hne : other ≠ id) :
    (m.unsubscribe other).IsSubscribed id := by
  obtain ⟨l, hl, rfl⟩ := h
  refine ⟨l, List.mem_filter.mpr ⟨hl, ?_⟩, rfl⟩
  simpa using hne.symm

private theorem IsSubscribed.transition (h : m.IsSubscribed id) (next : HealthState) :
    (m.transition next).2.IsSubscribed id := by
  unfold IsSubscribed
  rw [m.listeners_transition next]
  exact h

end HealthMonitor

def MonitorWork.pending : MonitorWork ι → List (Nat × ι)
  | telling _ rest | listening _ rest => rest
  | _ => []

namespace MonitorThreads

variable {n : Nat} {aud : Audience ι α β} {s s' : MonitorThreads n ι β} {t : Fin n}
  {m : MonitorMove ι α} {id : Nat}

/-- No listener is to be called twice of one change. -/
def CallsOnce (s : MonitorThreads n ι β) : Prop :=
  ∀ t, ∀ w ∈ s.stackOf t, (w.pending.map Prod.fst).Nodup

theorem CallsOnce.step (hs : s.CallsOnce) (hnumbered : s.shared.monitor.Numbered)
    (hstep : s.step? (monitorProgram aud) t m = some s') : s'.CallsOnce := by
  obtain ⟨before, shared, after, rest, turn, hbefore, rfl⟩ := turn_of_step? hstep
  have top : ∀ w ∈ before, (w.pending.map Prod.fst).Nodup :=
    fun w hw => hs t w (Threads.mem_of_exchange hbefore hw)
  refine Threads.forall_mem_exchange hs hbefore (fun w hw => ?_) _
  cases turn with
  | keep | drop _ | act _ | done _ | subscribe _ => cases hw
  | change h _ | join l =>
    cases hw
    exact List.nodup_nil
  | lookUp h =>
    cases hw
    exact hnumbered.nodup
  | call h l ls =>
    cases hw
    exact (top (.telling h (l :: ls)) rfl).of_cons
  | back h ls =>
    cases hw
    exact top (.listening h ls) rfl

structure Keeps (id : Nat) (s : MonitorThreads n ι β) : Prop where
  numbered : s.shared.monitor.Numbered
  subscribed : s.shared.monitor.IsSubscribed id
  once : ∀ t, ∀ w ∈ s.stackOf t, (w.pending.map Prod.fst).Nodup

theorem Keeps.step (hs : s.Keeps id) (hm : m ≠ .drop id)
    (hstep : s.step? (monitorProgram aud) t m = some s') : s'.Keeps id := by
  have honce := CallsOnce.step hs.once hs.numbered hstep
  obtain ⟨before, shared, after, rest, turn, hbefore, rfl⟩ := turn_of_step? hstep
  obtain ⟨numbered, subscribed, _⟩ := hs
  have monitor : shared.monitor.Numbered ∧ shared.monitor.IsSubscribed id := by
    cases turn with
    | change h _ => exact ⟨numbered.transition h, subscribed.transition h⟩
    | drop other =>
      exact ⟨numbered.unsubscribe other, subscribed.unsubscribe fun h => hm (congrArg _ h)⟩
    | subscribe l => exact ⟨numbered.subscribe l, subscribed.subscribe l⟩
    | _ => exact ⟨numbered, subscribed⟩
  exact ⟨monitor.1, monitor.2, honce⟩

end MonitorThreads

end BrokerBridge
