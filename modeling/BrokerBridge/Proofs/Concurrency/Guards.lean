import BrokerBridge.Host.Guards
import BrokerBridge.Proofs.Concurrency.Threads

/-!
# Guards on threads

Any number of threads make guards on one host lock, and each drops its own in the reverse order. A
thread that finds another one inside sleeps until the lock is freed and it is woken. In every
interleaving a thread is as deep inside as it has entered since it last stepped out.
-/

namespace BrokerBridge

namespace HostGuard

/-- How often a thread has entered since it last stepped out, by its guards, the newest first. -/
def uncovered : List HostGuard → Nat
  | [] => 0
  | entered :: rest => uncovered rest + 1
  | steppedOut _ :: _ => 0

/-- What a guard has saved is how deep its thread was inside before. -/
def Saved : List HostGuard → Prop
  | [] => True
  | entered :: rest => Saved rest
  | steppedOut saved :: rest => saved = uncovered rest ∧ Saved rest

inductive Turn (l : HostLock) (t : ThreadId) (guards : List HostGuard) :
    HostLock → List HostGuard → Prop
  | stay : Turn l t guards l guards
  | enter {l'} (entered : l.enter? t 1 = some l') : Turn l t guards l' (.entered :: guards)
  | stepOut : Turn l t guards (l.leaveAll t).2 (.steppedOut (l.leaveAll t).1 :: guards)
  | drop {l'} (g rest) (newest : guards = g :: rest) (dropped : g.drop? l t = some l') :
      Turn l t guards l' rest

private theorem wellFormed_drop? {l l' : HostLock} {t : ThreadId} {g : HostGuard}
    (hl : l.WellFormed)
    (h : g.drop? l t = some l') : l'.WellFormed := by
  cases g with
  | entered =>
    cases h
    exact HostLock.wellFormed_leave hl
  | steppedOut saved =>
    change l.restore? t saved = some l' at h
    unfold HostLock.restore? at h
    split at h
    · cases h
      exact hl
    · next hsaved => exact HostLock.wellFormed_enter? (Nat.pos_of_ne_zero hsaved) h

/-- A thread that still has entered is inside when it leaves. -/
theorem owner_of_entered {l : HostLock} {t : ThreadId} {rest : List HostGuard}
    (h : l.depthOf t = uncovered (.entered :: rest)) : l.owner = some t := by
  apply HostLock.owner_of_depthOf
  rw [h]
  exact Nat.succ_ne_zero _

namespace Turn

variable {l l' : HostLock} {t : ThreadId} {guards guards' : List HostGuard}

private theorem wellFormed (h : Turn l t guards l' guards') (hl : l.WellFormed) :
    l'.WellFormed := by
  cases h with
  | stay => exact hl
  | enter entered => exact HostLock.wellFormed_enter? Nat.one_pos entered
  | stepOut => exact HostLock.wellFormed_leaveAll hl
  | drop g _ _ dropped => exact wellFormed_drop? hl dropped

private theorem depthOf (h : Turn l t guards l' guards') (hdepth : l.depthOf t = uncovered guards)
    (hsaved : Saved guards) (u : ThreadId) :
    l'.depthOf u = if u = t then uncovered guards' else l.depthOf u := by
  cases h with
  | stay =>
    split
    · next hu => rw [hu, hdepth]
    · rfl
  | enter entered =>
    rw [HostLock.depthOf_enter? entered, hdepth]
    rfl
  | stepOut =>
    rw [HostLock.depthOf_leaveAll]
    rfl
  | drop g rest newest dropped =>
    subst newest
    cases g with
    | entered =>
      cases dropped
      rw [HostLock.depthOf_leave (owner_of_entered hdepth), hdepth]
      rfl
    | steppedOut saved =>
      -- the thread is outside, since nothing was entered after it stepped out
      rw [HostLock.depthOf_restore? dropped, hdepth, hsaved.1, uncovered, Nat.zero_add]

private theorem saved (h : Turn l t guards l' guards') (hdepth : l.depthOf t = uncovered guards)
    (hsaved : Saved guards) : Saved guards' := by
  cases h with
  | stay => exact hsaved
  | enter => exact hsaved
  | stepOut => exact ⟨(l.leaveAll_fst t).trans hdepth, hsaved⟩
  | drop g rest newest _ =>
    subst newest
    cases g with
    | entered => exact hsaved
    | steppedOut _ => exact hsaved.2

end Turn

end HostGuard

/-! ## The program -/

/-- What a thread has to do with a guard: it keeps it, or is about to make or to drop it. -/
inductive GuardWork where
  | holding (g : HostGuard)
  | entering
  | dropping (g : HostGuard)
deriving DecidableEq, Repr

def GuardWork.guard? : GuardWork → Option HostGuard
  | holding g | dropping g => some g
  | entering => none

/-- The lock and the threads that wait for it: asleep until woken, then about to try again. -/
structure GuardRoom where
  lock : HostLock := .free
  asleep : List ThreadId := []
  woken : List ThreadId := []

namespace GuardRoom

def sleep (s : GuardRoom) (t : ThreadId) : GuardRoom :=
  { s with asleep := s.asleep ++ [t], woken := s.woken.filter (· != t) }

def wake (s : GuardRoom) (t : ThreadId) : GuardRoom :=
  { s with asleep := s.asleep.filter (· != t), woken := s.woken ++ [t] }

/-- Wake one of the sleepers: the given one, or the first where that one is not asleep. -/
def wakeOne (s : GuardRoom) (heir : ThreadId) : GuardRoom :=
  if heir ∈ s.asleep then s.wake heir else s.asleep.head?.elim s s.wake

def change (s : GuardRoom) (t : ThreadId) (lock : HostLock) (heir : ThreadId) : GuardRoom :=
  let changed := { s with lock, woken := s.woken.filter (· != t) }
  if s.lock.owner.isSome && lock.owner.isNone then changed.wakeOne heir else changed

/-- A section on the lock, which takes a thread from one stack to another; the thread goes to
sleep where another one is inside. -/
def pass? (s : GuardRoom) (t heir : ThreadId) (before after : List GuardWork)
    (lock : Option HostLock) : Option (GuardRoom × List GuardWork) :=
  if t ∈ s.asleep then none
  else
    match lock with
    | none => some (s.sleep t, before)
    | some lock => some (s.change t lock heir, after)

@[simp] theorem lock_sleep (s : GuardRoom) (t : ThreadId) : (s.sleep t).lock = s.lock := rfl

@[simp] theorem lock_wakeOne (s : GuardRoom) (heir : ThreadId) :
    (s.wakeOne heir).lock = s.lock := by
  unfold wakeOne
  split
  · rfl
  · cases s.asleep.head? <;> rfl

@[simp] theorem lock_change (s : GuardRoom) (t : ThreadId) (lock : HostLock) (heir : ThreadId) :
    (s.change t lock heir).lock = lock := by
  unfold change
  dsimp only
  split
  · exact lock_wakeOne ..
  · rfl

private theorem cases_of_pass? {s s' : GuardRoom} {t heir : ThreadId}
    {before after stack : List GuardWork}
    {lock : Option HostLock} (h : s.pass? t heir before after lock = some (s', stack)) :
    (s'.lock = s.lock ∧ stack = before) ∨ (lock = some s'.lock ∧ stack = after) := by
  unfold pass? at h
  split at h
  · cases h
  · split at h
    · cases h
      exact .inl ⟨rfl, rfl⟩
    · cases h
      exact .inr ⟨by rw [lock_change], rfl⟩

end GuardRoom

/-- Make a guard, drop the newest, or go on with either; `heir` is who wakes where the lock is
freed. -/
inductive GuardMove where
  | acquire
  | release (heir : ThreadId)
  | drop
  | proceed (heir : ThreadId)
deriving DecidableEq, Repr

def GuardWork.idle : List GuardWork → Bool
  | [] | holding _ :: _ => true
  | _ => false

def guardProgram : Program GuardRoom GuardWork GuardMove
  | s, _, stack, .acquire => if GuardWork.idle stack then some (s, .entering :: stack) else none
  | s, t, stack, .release heir =>
      if GuardWork.idle stack then
        some (s.change t (s.lock.leaveAll t).2 heir,
          .holding (.steppedOut (s.lock.leaveAll t).1) :: stack)
      else none
  | s, _, .holding g :: rest, .drop => some (s, .dropping g :: rest)
  | s, t, .entering :: rest, .proceed heir =>
      s.pass? t heir (.entering :: rest) (.holding .entered :: rest) (s.lock.enter? t 1)
  | s, t, .dropping g :: rest, .proceed heir =>
      s.pass? t heir (.dropping g :: rest) rest (g.drop? s.lock t)
  | _, _, _, _ => none

private theorem guardProgram_release (s : GuardRoom) (t heir : ThreadId) (stack : List GuardWork) :
    guardProgram s t stack (.release heir) =
      if GuardWork.idle stack then
        some (s.change t (s.lock.leaveAll t).2 heir,
          .holding (.steppedOut (s.lock.leaveAll t).1) :: stack)
      else none := by
  cases stack with
  | nil => rfl
  | cons w _ => cases w <;> rfl

private theorem turn_of_guardProgram {s s' : GuardRoom} {t : ThreadId}
    {stack stack' : List GuardWork}
    {m : GuardMove} (h : guardProgram s t stack m = some (s', stack')) :
    HostGuard.Turn s.lock t (stack.filterMap GuardWork.guard?) s'.lock
      (stack'.filterMap GuardWork.guard?) := by
  unfold guardProgram at h
  split at h
  · split at h
    · cases h
      exact .stay
    · cases h
  · split at h
    · cases h
      rw [GuardRoom.lock_change]
      exact .stepOut
    · cases h
  · cases h
    exact .stay
  · obtain ⟨hlock, rfl⟩ | ⟨hlock, rfl⟩ := GuardRoom.cases_of_pass? h
    · rw [hlock]
      exact .stay
    · exact .enter hlock
  · obtain ⟨hlock, rfl⟩ | ⟨hlock, rfl⟩ := GuardRoom.cases_of_pass? h
    · rw [hlock]
      exact .stay
    · exact .drop _ _ rfl hlock
  · cases h

/-! ## Interleavings -/

abbrev GuardThreads (n : Nat) := Threads n GuardRoom GuardWork

namespace GuardThreads

variable {n : Nat} {s s' : GuardThreads n} {t : Fin n} {m : GuardMove}

def idle (n : Nat) : GuardThreads n := Threads.atRest {}

def guardsOf (s : GuardThreads n) (t : Fin n) : List HostGuard :=
  (s.stackOf t).filterMap GuardWork.guard?

/-- Every thread is as deep inside as its guards say, and nobody else is inside. -/
structure Sound (s : GuardThreads n) : Prop where
  wellFormed : s.shared.lock.WellFormed
  depthOf : ∀ t : Fin n, s.shared.lock.depthOf t = HostGuard.uncovered (s.guardsOf t)
  saved : ∀ t : Fin n, HostGuard.Saved (s.guardsOf t)
  outside : ∀ u, n ≤ u → s.shared.lock.depthOf u = 0

private theorem sound_idle (n : Nat) : (idle n).Sound where
  wellFormed := HostLock.wellFormed_free
  depthOf _ := rfl
  saved _ := True.intro
  outside _ _ := rfl

private theorem turn_of_step? (h : s.step? guardProgram t m = some s') :
    HostGuard.Turn s.shared.lock t (s.guardsOf t) s'.shared.lock (s'.guardsOf t) ∧
      ∀ u ≠ t, s'.guardsOf u = s.guardsOf u := by
  obtain ⟨shared, stack, hp, rfl⟩ := Threads.exists_of_step? h
  unfold guardsOf
  rw [Threads.stackOf_set_self, Threads.shared_set]
  refine ⟨turn_of_guardProgram hp, fun u hu => ?_⟩
  rw [Threads.stackOf_set_of_ne s hu]

/-- A turn of one thread leaves the guards of the others as they are. -/
theorem Sound.turn (hs : s.Sound)
    (turn : HostGuard.Turn s.shared.lock t (s.guardsOf t) s'.shared.lock (s'.guardsOf t))
    (others : ∀ u ≠ t, s'.guardsOf u = s.guardsOf u) : s'.Sound := by
  have hdepth := turn.depthOf (hs.depthOf t) (hs.saved t)
  refine ⟨turn.wellFormed hs.wellFormed, fun u => ?_, fun u => ?_, fun u hu => ?_⟩
  · rw [hdepth]
    split
    · next hu => rw [Fin.ext hu]
    · next hu => rw [hs.depthOf u, others u fun h => hu (congrArg Fin.val h)]
  · by_cases hu : u = t
    · rw [hu]
      exact turn.saved (hs.depthOf t) (hs.saved t)
    · rw [others u hu]
      exact hs.saved u
  · have ht : u ≠ t := by omega
    rw [hdepth, if_neg ht, hs.outside u hu]

private theorem Sound.step (hs : s.Sound) (h : s.step? guardProgram t m = some s') : s'.Sound :=
  hs.turn (turn_of_step? h).1 (turn_of_step? h).2

private theorem sound_of_play? {moves : List (Fin n × GuardMove)}
    (h : (idle n).play? guardProgram moves = some s) : s.Sound :=
  Threads.play?_induction (fun _ _ _ _ _ hs hstep => hs.step hstep) (sound_idle n) h

namespace Sound

variable (hs : s.Sound)

include hs

theorem isHeldBy_iff (t : Fin n) :
    s.shared.lock.isHeldBy t = true ↔ 0 < HostGuard.uncovered (s.guardsOf t) := by
  rw [← hs.depthOf t, Nat.pos_iff_ne_zero, ne_eq, ← HostLock.isHeldBy_eq_false_iff hs.wellFormed,
    Bool.not_eq_false]

private theorem owner {u : ThreadId} (h : s.shared.lock.owner = some u) :
    ∃ t : Fin n, u = t ∧ s.shared.lock.depth = HostGuard.uncovered (s.guardsOf t) := by
  have hdepth : s.shared.lock.depthOf u = s.shared.lock.depth := if_pos h
  have hpos : 0 < s.shared.lock.depth := hs.wellFormed.mp (by rw [h]; rfl)
  have hu : u < n := by
    by_contra hge
    have hzero := hs.outside u (Nat.le_of_not_lt hge)
    omega
  exact ⟨⟨u, hu⟩, rfl, by rw [← hs.depthOf, hdepth]⟩

private theorem owner_of_dropping {rest : List GuardWork}
    (h : s.stackOf t = .dropping .entered :: rest) : s.shared.lock.owner = some (t : ThreadId) := by
  have hdepth := hs.depthOf t
  rw [guardsOf, h] at hdepth
  exact HostGuard.owner_of_entered hdepth

/-- A thread that drops the guard with which it stepped out is as deep inside as before. -/
theorem restored {saved : Nat} (hbefore : s.guardsOf t = .steppedOut saved :: s'.guardsOf t)
    (h : s.step? guardProgram t m = some s') : s'.shared.lock.depthOf t = saved := by
  have hsaved := hs.saved t
  rw [hbefore] at hsaved
  rw [(hs.step h).depthOf t, hsaved.1]

private theorem free_of_guardsOf (h : ∀ t, s.guardsOf t = []) : s.shared.lock = .free := by
  have howner : s.shared.lock.owner = none := by
    by_contra hne
    obtain ⟨u, hu⟩ := Option.ne_none_iff_exists'.mp hne
    obtain ⟨t, rfl, hdepth⟩ := hs.owner hu
    rw [h t] at hdepth
    have hpos := hs.wellFormed.mp (by rw [hu]; rfl)
    rw [hdepth] at hpos
    exact Nat.lt_irrefl 0 hpos
  have hdepth : ¬0 < s.shared.lock.depth := fun hpos => by
    have hsome := hs.wellFormed.mpr hpos
    rw [howner] at hsome
    cases hsome
  calc s.shared.lock = ⟨s.shared.lock.owner, s.shared.lock.depth⟩ := rfl
    _ = .free := by rw [howner, Nat.eq_zero_of_not_pos hdepth]; rfl

end Sound

private theorem guardsOf_release {heir : ThreadId}
    (h : s.step? guardProgram t (.release heir) = some s') :
    s'.guardsOf t = .steppedOut (s.shared.lock.depthOf t) :: s.guardsOf t := by
  obtain ⟨shared, stack, hp, rfl⟩ := Threads.exists_of_step? h
  rw [guardProgram_release] at hp
  split at hp
  · cases hp
    simp [guardsOf, GuardWork.guard?, HostLock.leaveAll_fst]
  · cases hp

/-- In every interleaving at most one thread is inside, as deep as it has entered since it last
stepped out; a guard that steps out saves that depth and brings it back when it is dropped. A thread
that leaves is inside, and once all guards are dropped nobody is. -/
theorem guards_exclusive {moves : List (Fin n × GuardMove)}
    (h : (idle n).play? guardProgram moves = some s) :
    (∀ t u : Fin n, s.shared.lock.isHeldBy t → s.shared.lock.isHeldBy u → t = u) ∧
      (s.shared.lock.owner.isSome ↔ 0 < s.shared.lock.depth) ∧
      (∀ t : Fin n, s.shared.lock.isHeldBy t ↔ 0 < HostGuard.uncovered (s.guardsOf t)) ∧
      (∀ u, s.shared.lock.owner = some u →
        ∃ t : Fin n, u = t ∧ s.shared.lock.depth = HostGuard.uncovered (s.guardsOf t)) ∧
      (∀ t heir (s' : GuardThreads n), s.step? guardProgram t (.release heir) = some s' →
        s'.guardsOf t = .steppedOut (s.shared.lock.depthOf t) :: s.guardsOf t) ∧
      (∀ t m (s' : GuardThreads n) saved, s.step? guardProgram t m = some s' →
        s.guardsOf t = .steppedOut saved :: s'.guardsOf t →
          s'.shared.lock.depthOf t = saved) ∧
      (∀ t rest, s.stackOf t = .dropping .entered :: rest →
        s.shared.lock.owner = some (t : ThreadId)) ∧
      ((∀ t, s.guardsOf t = []) → s.shared.lock = .free) := by
  have hs := sound_of_play? h
  refine ⟨fun t u ht hu => ?_, hs.wellFormed, hs.isHeldBy_iff, fun u hu => hs.owner hu,
    fun t heir s' hstep => guardsOf_release hstep,
    fun t m s' saved hstep hbefore => hs.restored hbefore hstep,
    fun t rest hstack => hs.owner_of_dropping hstack, hs.free_of_guardsOf⟩
  have howner := (beq_iff_eq.mp ht).symm.trans (beq_iff_eq.mp hu)
  exact Fin.ext (Option.some.inj howner)

/-- One thread enters twice and steps out, another enters; the first sleeps until that one leaves,
and is then inside twice again. -/
theorem guards_exclusive_steppedOut :
    let acquire (t : Fin 2) := [(t, GuardMove.acquire), (t, .proceed 0)]
    let moves := acquire 0 ++ acquire 0 ++ [(0, .release 0)] ++ acquire 1 ++
      [(0, .drop), (0, .proceed 0), (1, .drop), (1, .proceed 0), (0, .proceed 0)]
    ∃ s : GuardThreads 2, (idle 2).play? guardProgram moves = some s ∧
      s.guardsOf 0 = [.entered, .entered] ∧ s.shared.lock.depth = 2 := by
  intro acquire moves
  obtain ⟨s, hs⟩ : ∃ s : GuardThreads 2, (idle 2).play? guardProgram moves = some s := ⟨_, rfl⟩
  have hguards : s.guardsOf 0 = [.entered, .entered] := by
    cases hs
    rfl
  obtain ⟨_, _, holds, owner, _⟩ := guards_exclusive hs
  have howner : s.shared.lock.owner = some 0 :=
    beq_iff_eq.mp ((holds 0).mpr (by rw [hguards]; decide))
  obtain ⟨t, ht, hdepth⟩ := owner 0 howner
  obtain rfl : t = 0 := Fin.ext ht.symm
  exact ⟨s, hs, hguards, hdepth.trans (by rw [hguards]; rfl)⟩

end GuardThreads

end BrokerBridge
