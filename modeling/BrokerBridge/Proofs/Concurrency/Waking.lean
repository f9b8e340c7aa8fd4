import BrokerBridge.Proofs.Concurrency.Guards

/-!
# Waking a thread that waits

A thread that finds another one inside goes to sleep, and whoever frees the lock wakes one of the
sleepers. The woken thread tries again like any other: one that comes later may be inside before it,
and then it sleeps again. In every interleaving a free lock with sleepers has a woken thread that
gets in when it tries.
-/

namespace BrokerBridge

namespace HostLock

private theorem owner_of_enter? {l l' : HostLock} {t : ThreadId} {k : Nat}
    (h : l.enter? t k = some l') :
    l'.owner = some t := by
  unfold enter? at h
  split at h
  · simp at h
    simp [← h]
  · split at h
    · simp at h
      simp [← h]
    · simp at h

private theorem owner_ne_none_of_enter? {l : HostLock} {t : ThreadId} {k : Nat}
    (h : l.enter? t k = none) :
    l.owner ≠ none := by
  intro hfree
  simp [enter?, hfree] at h

end HostLock

def GuardWork.waits : List GuardWork → Bool
  | entering :: _ => true
  | dropping (.steppedOut saved) :: _ => saved != 0
  | _ => false

namespace GuardRoom

variable {s s' : GuardRoom} {t u heir : ThreadId} {lock : HostLock}

private theorem wakeOne_cases (s : GuardRoom) (heir : ThreadId) :
    (s.asleep = [] ∧ s.wakeOne heir = s) ∨ ∃ u ∈ s.asleep, s.wakeOne heir = s.wake u := by
  by_cases hheir : heir ∈ s.asleep
  · exact .inr ⟨heir, hheir, if_pos hheir⟩
  · cases hasleep : s.asleep with
    | nil => simp [wakeOne, hasleep]
    | cons u rest =>
      right
      refine ⟨u, List.mem_cons_self, ?_⟩
      rw [wakeOne, if_neg hheir, hasleep]
      rfl

/-- Who changes the lock waits no longer. One sleeper is woken where the lock is freed. -/
theorem change_cases (s : GuardRoom) (t : ThreadId) (lock : HostLock) (heir : ThreadId) :
    ((s.change t lock heir).asleep = s.asleep ∧
        (s.change t lock heir).woken = s.woken.filter (· != t) ∧
        (lock.owner = none → s.asleep ≠ [] → s.lock.owner = none)) ∨
      ∃ u ∈ s.asleep, (s.change t lock heir).asleep = s.asleep.filter (· != u) ∧
        (s.change t lock heir).woken = s.woken.filter (· != t) ++ [u] := by
  unfold change
  dsimp only
  split
  · rcases wakeOne_cases { s with lock, woken := s.woken.filter (· != t) } heir with
      ⟨hnone, heq⟩ | ⟨u, hu, heq⟩
    · rw [heq]
      exact .inl ⟨rfl, rfl, fun _ hsome => absurd hnone hsome⟩
    · rw [heq]
      exact .inr ⟨u, hu, rfl, rfl⟩
  · next hkept =>
    left
    refine ⟨rfl, rfl, ?_⟩
    intro hfree _
    simpa [hfree] using hkept

/-! ## What a move can do -/

/-- What a move makes of those who wait: nothing, where its thread did not wait and makes no use of
the lock; a change of the lock by a thread that is awake; or its thread goes to sleep. -/
inductive Queues (s : GuardRoom) (t : ThreadId) (stack : List GuardWork) :
    GuardRoom → List GuardWork → Prop
  | stay {stack'} (busy : GuardWork.waits stack = false) : Queues s t stack s stack'
  | release {lock heir stack'} (busy : GuardWork.waits stack = false) :
      Queues s t stack (s.change t lock heir) stack'
  | pass {lock heir stack'} (awake : t ∉ s.asleep)
      (inside : GuardWork.waits stack = true → lock.owner = some t) :
      Queues s t stack (s.change t lock heir) stack'
  | sleep (awake : t ∉ s.asleep) (waits : GuardWork.waits stack = true)
      (taken : s.lock.owner ≠ none) : Queues s t stack (s.sleep t) stack

private theorem queues_of_pass? {before after stack : List GuardWork} {section? : Option HostLock}
    (h : s.pass? t heir before after section? = some (s', stack))
    (hnone : section? = none → GuardWork.waits before = true ∧ s.lock.owner ≠ none)
    (hsome : ∀ lock, section? = some lock → GuardWork.waits before = true → lock.owner = some t) :
    Queues s t before s' stack := by
  unfold pass? at h
  split at h
  · cases h
  · next awake =>
    cases section? with
    | none =>
      cases h
      exact .sleep awake (hnone rfl).1 (hnone rfl).2
    | some lock =>
      cases h
      exact .pass awake (hsome lock rfl)

end GuardRoom

private theorem GuardWork.waits_of_idle {stack : List GuardWork} (h : GuardWork.idle stack = true) :
    GuardWork.waits stack = false := by
  cases stack with
  | nil => rfl
  | cons w rest =>
    cases w with
    | holding g => rfl
    | entering => simp [idle] at h
    | dropping g => simp [idle] at h

section Dropping

variable {g : HostGuard} {lock lock' : HostLock} {t : ThreadId} {rest : List GuardWork}

/-- A guard that cannot be dropped yet has levels to take back, and the lock is taken. -/
theorem GuardWork.waits_of_drop?_eq_none (h : g.drop? lock t = none) :
    GuardWork.waits (.dropping g :: rest) = true ∧ lock.owner ≠ none := by
  cases g with
  | entered => simp [HostGuard.drop?] at h
  | steppedOut saved =>
    simp only [HostGuard.drop?, HostLock.restore?] at h
    split at h
    · simp at h
    · next hsaved =>
      exact ⟨by simpa [GuardWork.waits] using hsaved, HostLock.owner_ne_none_of_enter? h⟩

private theorem GuardWork.owner_of_drop? (h : g.drop? lock t = some lock')
    (hwaits : GuardWork.waits (.dropping g :: rest) = true) : lock'.owner = some t := by
  cases g with
  | entered => simp [GuardWork.waits] at hwaits
  | steppedOut saved =>
    have hsaved : saved ≠ 0 := by simpa [GuardWork.waits] using hwaits
    simp only [HostGuard.drop?, HostLock.restore?, hsaved, if_false] at h
    exact HostLock.owner_of_enter? h

end Dropping

private theorem queues_of_guardProgram {s s' : GuardRoom} {t : ThreadId}
    {stack stack' : List GuardWork}
    {m : GuardMove} (h : guardProgram s t stack m = some (s', stack')) :
    GuardRoom.Queues s t stack s' stack' := by
  unfold guardProgram at h
  split at h
  · split at h
    · next hidle =>
      cases h
      exact .stay (GuardWork.waits_of_idle hidle)
    · cases h
  · split at h
    · next hidle =>
      cases h
      exact .release (GuardWork.waits_of_idle hidle)
    · cases h
  · cases h
    exact .stay rfl
  · refine GuardRoom.queues_of_pass? h ?_ ?_
    · intro hnone
      exact ⟨rfl, HostLock.owner_ne_none_of_enter? hnone⟩
    · intro lock hlock _
      exact HostLock.owner_of_enter? hlock
  · refine GuardRoom.queues_of_pass? h ?_ ?_
    · exact GuardWork.waits_of_drop?_eq_none
    · exact fun lock => GuardWork.owner_of_drop?
  · cases h

namespace GuardThreads

variable {n : Nat} {s s' : GuardThreads n} {t : Fin n} {m : GuardMove}

/-- The thread waits for the lock: it is asleep, or has yet to try, or has been woken. -/
def Waits (s : GuardThreads n) (t : Fin n) : Prop := GuardWork.waits (s.stackOf t) = true

/-- Sleepers and woken threads wait, none is both, and a free lock with sleepers has woken one. -/
structure Attended (s : GuardThreads n) : Prop where
  asleep : ∀ u ∈ s.shared.asleep, ∃ t : Fin n, u = t ∧ s.Waits t
  woken : ∀ u ∈ s.shared.woken, u ∉ s.shared.asleep ∧ ∃ t : Fin n, u = t ∧ s.Waits t
  served : s.shared.lock.owner = none → s.shared.asleep ≠ [] → s.shared.woken ≠ []

private theorem attended_idle (n : Nat) : (idle n).Attended where
  asleep := nofun
  woken := nofun
  served _ hsome := absurd rfl hsome

private theorem waits_set_of_ne {u : ThreadId} {shared : GuardRoom} {stack : List GuardWork}
    (hne : u ≠ t) (h : ∃ v : Fin n, u = v ∧ s.Waits v) :
    ∃ v : Fin n, u = v ∧ Waits (s.set t shared stack) v := by
  obtain ⟨v, rfl, hv⟩ := h
  refine ⟨v, rfl, ?_⟩
  rw [Waits, Threads.stackOf_set_of_ne s fun heq => hne (congrArg Fin.val heq)]
  exact hv

namespace Attended

variable {shared : GuardRoom} {stack : List GuardWork} {lock : HostLock} {heir : ThreadId}

/-- A change of the lock that wakes nobody: it is not free, nobody sleeps, or it was free before. -/
theorem change_unwoken (hs : s.Attended) (hasleep : (t : ThreadId) ∉ s.shared.asleep)
    (hwoken : (t : ThreadId) ∈ s.shared.woken → lock.owner = some (t : ThreadId))
    (hsame : shared.asleep = s.shared.asleep)
    (hless : shared.woken = s.shared.woken.filter (· != (t : ThreadId)))
    (hlock : shared.lock = lock)
    (hfreed : lock.owner = none → s.shared.asleep ≠ [] → s.shared.lock.owner = none) :
    Attended (s.set t shared stack) := by
  refine ⟨?_, ?_, ?_⟩
  · intro u hu
    rw [Threads.shared_set, hsame] at hu
    exact waits_set_of_ne (fun heq => hasleep (heq ▸ hu)) (hs.asleep u hu)
  · intro u hu
    rw [Threads.shared_set, hless] at hu
    obtain ⟨hold, hne⟩ := List.mem_filter.mp hu
    obtain ⟨hawake, hwaits⟩ := hs.woken u hold
    rw [Threads.shared_set, hsame]
    exact ⟨hawake, waits_set_of_ne (by simpa using hne) hwaits⟩
  · intro hfree hsleepers
    rw [Threads.shared_set, hlock] at hfree
    rw [Threads.shared_set, hsame] at hsleepers
    rw [Threads.shared_set, hless]
    obtain ⟨u, hu⟩ := List.exists_mem_of_ne_nil _ (hs.served (hfreed hfree hsleepers) hsleepers)
    -- the thread itself was not woken, for it would be inside now
    have hne : u ≠ t := by
      intro heq
      rw [hwoken (heq ▸ hu)] at hfree
      cases hfree
    exact List.ne_nil_of_mem (List.mem_filter.mpr ⟨hu, by simpa using hne⟩)

private theorem change_woken (hs : s.Attended) (hasleep : (t : ThreadId) ∉ s.shared.asleep)
    {woken : ThreadId} (hmem : woken ∈ s.shared.asleep)
    (hfewer : shared.asleep = s.shared.asleep.filter (· != woken))
    (hmore : shared.woken = s.shared.woken.filter (· != (t : ThreadId)) ++ [woken]) :
    Attended (s.set t shared stack) := by
  have hother {u : ThreadId} (hu : u ∈ s.shared.asleep) : u ≠ t := fun heq => hasleep (heq ▸ hu)
  refine ⟨?_, ?_, ?_⟩
  · intro u hu
    rw [Threads.shared_set, hfewer] at hu
    have hold := (List.mem_filter.mp hu).1
    exact waits_set_of_ne (hother hold) (hs.asleep u hold)
  · intro u hu
    rw [Threads.shared_set, hmore] at hu
    rw [Threads.shared_set, hfewer]
    rcases List.mem_append.mp hu with hu | hu
    · obtain ⟨hold, hne⟩ := List.mem_filter.mp hu
      obtain ⟨hawake, hwaits⟩ := hs.woken u hold
      exact ⟨fun h => hawake (List.mem_filter.mp h).1,
        waits_set_of_ne (by simpa using hne) hwaits⟩
    · rw [List.mem_singleton.mp hu]
      exact ⟨by simp, waits_set_of_ne (hother hmem) (hs.asleep woken hmem)⟩
  · intro _ _
    rw [Threads.shared_set, hmore]
    simp

private theorem change (hs : s.Attended) (hasleep : (t : ThreadId) ∉ s.shared.asleep)
    (hwoken : (t : ThreadId) ∈ s.shared.woken → lock.owner = some (t : ThreadId)) :
    Attended (s.set t (s.shared.change t lock heir) stack) := by
  rcases GuardRoom.change_cases s.shared t lock heir with
    ⟨hsame, hless, hfreed⟩ | ⟨woken, hmem, hfewer, hmore⟩
  · exact hs.change_unwoken hasleep hwoken hsame hless (GuardRoom.lock_change ..) hfreed
  · exact hs.change_woken hasleep hmem hfewer hmore

private theorem sleep (hs : s.Attended) (hwaits : s.Waits t) (htaken : s.shared.lock.owner ≠ none) :
    Attended (s.set t (s.shared.sleep t) (s.stackOf t)) := by
  rw [Threads.set_stackOf]
  refine ⟨?_, ?_, ?_⟩
  · intro u hu
    rcases List.mem_append.mp hu with hu | hu
    · exact hs.asleep u hu
    · exact ⟨t, List.mem_singleton.mp hu, hwaits⟩
  · intro u hu
    obtain ⟨hold, hne⟩ := List.mem_filter.mp hu
    obtain ⟨hawake, hwaits⟩ := hs.woken u hold
    refine ⟨?_, hwaits⟩
    simp only [GuardRoom.sleep, List.mem_append, List.mem_singleton, not_or]
    exact ⟨hawake, by simpa using hne⟩
  · intro hfree _
    exact absurd hfree htaken

private theorem step (hs : s.Attended) (h : s.step? guardProgram t m = some s') : s'.Attended := by
  obtain ⟨shared, stack, hp, rfl⟩ := Threads.exists_of_step? h
  -- a thread that does not wait is neither asleep nor woken
  have hbusy (hnot : GuardWork.waits (s.stackOf t) = false) :
      (t : ThreadId) ∉ s.shared.asleep ∧ (t : ThreadId) ∉ s.shared.woken := by
    have hwaits : ¬∃ u : Fin n, (t : ThreadId) = u ∧ s.Waits u := by
      rintro ⟨u, hu, hwaits⟩
      rw [← Fin.ext hu, Waits, hnot] at hwaits
      cases hwaits
    exact ⟨fun h => hwaits (hs.asleep _ h), fun h => hwaits (hs.woken _ h).2⟩
  cases queues_of_guardProgram hp with
  | stay busy =>
    obtain ⟨hasleep, hwoken⟩ := hbusy busy
    refine ⟨?_, ?_, hs.served⟩
    · intro u hu
      exact waits_set_of_ne (fun heq => hasleep (heq ▸ hu)) (hs.asleep u hu)
    · intro u hu
      obtain ⟨hawake, hwaits⟩ := hs.woken u hu
      exact ⟨hawake, waits_set_of_ne (fun heq => hwoken (heq ▸ hu)) hwaits⟩
  | release busy =>
    obtain ⟨hasleep, hwoken⟩ := hbusy busy
    exact hs.change hasleep fun h => absurd h hwoken
  | pass awake inside =>
    refine hs.change awake ?_
    intro hwoken
    obtain ⟨-, u, hu, hwaits⟩ := hs.woken _ hwoken
    rw [← Fin.ext hu] at hwaits
    exact inside hwaits
  | sleep awake waits taken => exact hs.sleep waits taken

end Attended

private theorem attended_of_play? {moves : List (Fin n × GuardMove)}
    (h : (idle n).play? guardProgram moves = some s) : s.Attended :=
  Threads.play?_induction (fun _ _ _ _ _ hs hstep => hs.step hstep) (attended_idle n) h

private theorem exists_step?_of_waits (hwaits : s.Waits t)
    (hawake : (t : ThreadId) ∉ s.shared.asleep)
    (hfree : s.shared.lock.owner = none) (heir : ThreadId) :
    ∃ s', s.step? guardProgram t (.proceed heir) = some s' ∧
      s'.shared.lock.owner = some (t : ThreadId) := by
  rw [Waits] at hwaits
  unfold Threads.step?
  match hstack : s.stackOf t with
  | [] => simp [hstack, GuardWork.waits] at hwaits
  | .holding g :: rest => simp [hstack, GuardWork.waits] at hwaits
  | .entering :: rest =>
    simp [guardProgram, GuardRoom.pass?, hawake, HostLock.enter?, hfree]
  | .dropping .entered :: rest => simp [hstack, GuardWork.waits] at hwaits
  | .dropping (.steppedOut saved) :: rest =>
    have hsaved : saved ≠ 0 := by simpa [hstack, GuardWork.waits] using hwaits
    simp [guardProgram, GuardRoom.pass?, hawake, HostGuard.drop?, HostLock.restore?, hsaved,
      HostLock.enter?, hfree]

/-- In every interleaving those who sleep wait for the lock, and where it is free while somebody
sleeps, one that waits has been woken, is awake, and is inside as soon as it tries again. -/
theorem free_lock_has_woken_waiter {moves : List (Fin n × GuardMove)}
    (h : (idle n).play? guardProgram moves = some s) :
    (∀ u ∈ s.shared.asleep, ∃ t : Fin n, u = t ∧ s.Waits t) ∧
      (s.shared.lock.owner = none → s.shared.asleep ≠ [] →
        ∃ t : Fin n, (t : ThreadId) ∈ s.shared.woken ∧ (t : ThreadId) ∉ s.shared.asleep ∧
          s.Waits t ∧ ∀ heir, ∃ s', s.step? guardProgram t (.proceed heir) = some s' ∧
            s'.shared.lock.owner = some (t : ThreadId)) := by
  have hs := attended_of_play? h
  refine ⟨hs.asleep, ?_⟩
  intro hfree hsleepers
  obtain ⟨u, hu⟩ := List.exists_mem_of_ne_nil _ (hs.served hfree hsleepers)
  obtain ⟨hawake, t, rfl, hwaits⟩ := hs.woken u hu
  exact ⟨t, hu, hawake, hwaits, fun heir => exists_step?_of_waits hwaits hawake hfree heir⟩

/-- Two threads sleep while a third is inside; the one that is woken when it leaves finds it inside
again and sleeps once more; when it steps out the other one is woken. -/
theorem free_lock_has_woken_waiter_overtaken :
    let enter (t : Fin 3) := [(t, GuardMove.acquire), (t, .proceed 0)]
    let moves := enter 0 ++ enter 1 ++ enter 2 ++ [(0, .drop), (0, .proceed 2)] ++ enter 0 ++
      [(2, .proceed 0), (0, .release 1)]
    ∃ s : GuardThreads 3, (idle 3).play? guardProgram moves = some s ∧
      s.shared.lock.owner = none ∧ s.shared.asleep = [2] ∧
      ∃ t : Fin 3, (t : ThreadId) ∈ s.shared.woken ∧ s.Waits t := by
  intro enter moves
  obtain ⟨s, hs⟩ : ∃ s : GuardThreads 3, (idle 3).play? guardProgram moves = some s := ⟨_, rfl⟩
  have hfree : s.shared.lock.owner = none := by
    cases hs
    rfl
  have hasleep : s.shared.asleep = [2] := by
    cases hs
    rfl
  obtain ⟨t, hwoken, -, hwaits, -⟩ :=
    (free_lock_has_woken_waiter hs).2 hfree (by simp [hasleep])
  exact ⟨s, hs, hfree, hasleep, t, hwoken, hwaits⟩

end GuardThreads

end BrokerBridge
