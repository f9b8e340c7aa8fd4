import BrokerBridge.Proofs.Concurrency.Listeners
import BrokerBridge.Proofs.Replay.Suspension

/-!
# A client that watches a health monitor

A client notes the monitor's state in its books and then subscribes, while threads set the state and
use the client's queues. As long as the changes keep apart, from each other and from the
subscription, the books end with the monitor's state.
-/

namespace BrokerBridge

inductive HealthWatcher where
  | client
  | other
deriving DecidableEq, Repr

/-- A client keeps its books, whether it reads the state or is told of it. -/
def HealthWatcher.note (h : HealthState) (books : Ledger) : HealthWatcher → Ledger
  | client => (books.setHealth h).2
  | other => books

def bookkeeping : Audience HealthWatcher LedgerCall Ledger where
  hear l h books := l.2.note h books
  read l h books := l.note h books
  act c books := books.perform c

private theorem HealthWatcher.heedful_note {books : Ledger} (h : books.Heedful)
    (state : HealthState)
    (l : HealthWatcher) : (l.note state books).Heedful := by
  cases l with
  | client => exact h.setHealth state
  | other => exact h

namespace HealthMonitor

def isClient (l : Nat × HealthWatcher) : Bool := l.2 == .client

def IsWatched (m : HealthMonitor HealthWatcher) : Prop := m.listeners.any isClient

instance (m : HealthMonitor HealthWatcher) : Decidable m.IsWatched :=
  inferInstanceAs (Decidable (_ = true))

private theorem IsWatched.of_unsubscribe {m : HealthMonitor HealthWatcher} {id : Nat}
    (h : (m.unsubscribe id).IsWatched) : m.IsWatched := by
  obtain ⟨l, hl, hclient⟩ := List.any_eq_true.mp h
  exact List.any_eq_true.mpr ⟨l, (List.mem_filter.mp hl).1, hclient⟩

private theorem isWatched_subscribe {m : HealthMonitor HealthWatcher} {l : HealthWatcher} :
    (m.subscribe l).2.IsWatched ↔ m.IsWatched ∨ l = .client := by
  show (m.listeners ++ [(m.nextId, l)]).any isClient = true ↔ _
  rw [List.any_append, Bool.or_eq_true]
  simp [IsWatched, isClient]

end HealthMonitor

abbrev ClientThreads (n : Nat) := MonitorThreads n HealthWatcher Ledger

namespace ClientThreads

open HealthMonitor MonitorThreads

variable {n : Nat} {s s' : ClientThreads n} {t : Fin n} {m : MonitorMove HealthWatcher LedgerCall}

/-- No two changes are under way to the client at once, and none comes between the client's look
at the state and its subscription. -/
structure KeepApart (s : ClientThreads n) : Prop where
  changes : s.underWay isClient ≤ 1
  joining : ∀ t, ∀ w ∈ s.stackOf t, w = .joining .client →
    s.shared.books.health = s.shared.monitor.state

instance : DecidablePred (@KeepApart n) := fun s =>
  decidable_of_iff (s.underWay isClient ≤ 1 ∧ ∀ t, ∀ w ∈ s.stackOf t, w = .joining .client →
    s.shared.books.health = s.shared.monitor.state)
    ⟨fun h => ⟨h.1, h.2⟩, fun h => ⟨h.changes, h.joining⟩⟩

structure Following (s : ClientThreads n) : Prop where
  upToDate : s.UpToDate isClient
  heedful : s.shared.books.Heedful
  health : s.shared.monitor.IsWatched → s.underWay isClient = 0 →
    s.shared.books.health = s.shared.monitor.state

private theorem following_idle {monitor : HealthMonitor HealthWatcher} (h : ¬monitor.IsWatched) :
    Following (idle n monitor ({} : Ledger)) where
  upToDate := upToDate_idle monitor _
  heedful := Ledger.heedful_empty
  health hwatched := absurd hwatched h

private theorem Following.step (hs : Following s) (hapart : KeepApart s) (hapart' : KeepApart s')
    (hstep : s.step? (monitorProgram bookkeeping) t m = some s') : Following s' := by
  have hup := hs.upToDate.step hapart'.changes hstep
  obtain ⟨before, shared, after, rest, turn, hbefore, rfl⟩ := turn_of_step? hstep
  have hsum := Threads.weight_exchange (MonitorWork.due isClient) hbefore shared after
  -- most steps leave the number of changes under way as it is, and what is known of the health
  have same (hwatched : shared.monitor.IsWatched → s.shared.monitor.IsWatched)
      (hhealth : shared.books.health = s.shared.books.health)
      (hstate : shared.monitor.state = s.shared.monitor.state)
      (hdue : before.elim 0 (MonitorWork.due isClient) =
        after.elim 0 (MonitorWork.due isClient)) :
      shared.monitor.IsWatched → underWay isClient (s.set t shared (after.toList ++ rest)) = 0 →
        shared.books.health = shared.monitor.state := by
    intro hwatch hzero
    rw [hdue] at hsum
    rw [hhealth, hstate]
    exact hs.health (hwatched hwatch) ((Nat.add_right_cancel hsum).symm.trans hzero)
  refine ⟨hup, ?_, ?_⟩
  · cases turn with
    | join l => exact l.heedful_note hs.heedful _
    | act c => exact hs.heedful.perform c
    | call h l ls => exact l.2.heedful_note hs.heedful h
    | _ => exact hs.heedful
  · cases turn with
    | keep | done _ | back _ _ => exact same id rfl rfl rfl
    | drop id => exact same IsWatched.of_unsubscribe rfl rfl rfl
    | act c => exact same id (Ledger.health_perform _ c) rfl rfl
    | change h _ =>
      have hdue : (MonitorWork.changed h : MonitorWork HealthWatcher).due isClient = 1 := rfl
      rw [Option.elim_some, hdue] at hsum
      exact fun _ hzero => absurd (hsum.symm.trans hzero) (Nat.succ_ne_zero _)
    | join l =>
      cases l with
      | client => exact fun _ _ => Ledger.health_setHealth _ _
      | other => exact same id rfl rfl rfl
    | lookUp h =>
      intro hwatched
      have hdue : s.shared.monitor.listeners.any isClient = true := hwatched
      refine same id rfl rfl ?_ hwatched
      simp [MonitorWork.due, MonitorWork.isDue, hdue]
    | call h l ls =>
      obtain ⟨number, l⟩ := l
      cases l with
      | client =>
        have hnews := hs.upToDate t _ (Threads.mem_of_exchange hbefore rfl) rfl
        intro _ _
        exact (Ledger.health_setHealth _ h).trans (Option.some.inj hnews)
      | other => exact same id rfl rfl rfl
    | subscribe l =>
      cases l with
      | client =>
        exact fun _ _ => hapart.joining t _ (Threads.mem_of_exchange hbefore rfl) rfl
      | other =>
        exact same (fun h => (isWatched_subscribe.mp h).resolve_right (by decide)) rfl rfl rfl

/-- Once all calls have returned, a client that watches the monitor has its state in its books, and
the open queues that ask for it are suspended exactly if that state is unhealthy; as long as the
changes keep apart. -/
theorem client_follows_monitor {monitor : HealthMonitor HealthWatcher}
    (hnew : ¬monitor.IsWatched) {moves : List (Fin n × MonitorMove HealthWatcher LedgerCall)}
    (hapart : Threads.Throughout (monitorProgram bookkeeping) KeepApart
      (idle n monitor ({} : Ledger)) moves)
    (h : Threads.play? (monitorProgram bookkeeping) (idle n monitor ({} : Ledger)) moves = some s)
    (hrest : s.AtRest) (hwatched : s.shared.monitor.IsWatched) :
    s.shared.books.health = s.shared.monitor.state ∧
      ∀ q ∈ s.shared.books.openQueues,
        (s.shared.books.table.options q).suspendsOnBadHostHealth →
          (s.shared.books.table.isSuspended q = true ↔ s.shared.monitor.state = .unhealthy) := by
  have hs : Following s :=
    Threads.play?_induction_throughout
      (fun _ _ _ _ _ hs hapart hapart' hstep => hs.step hapart hapart' hstep)
      (following_idle hnew) hapart h
  have hhealth := hs.health hwatched (Threads.weight_eq_zero_of_atRest hrest _)
  refine ⟨hhealth, fun q hq hasks => ?_⟩
  rw [hs.heedful.heeds q hq, Ledger.wouldSuspend, hasks, hhealth]
  cases s.shared.monitor.state <;> simp [HealthState.isHealthy]

private def goesOn (t : Fin 2) (k : Nat) : List (Fin 2 × MonitorMove HealthWatcher LedgerCall) :=
  List.replicate k (t, .proceed)

private def sensitive : LedgerCall :=
  .openQueue "bmq://d/q" (.ofAccess true true) { suspendsOnBadHostHealth := true }

/-- A client opens a queue while another thread is about to tell it of a change. -/
theorem client_follows_monitor_late :
    let moves := (0, .join .client) :: goesOn 0 1 ++ [(1, .set .unhealthy), (0, .act sensitive)] ++
      goesOn 1 4
    ∃ s : ClientThreads 2,
      Threads.play? (monitorProgram bookkeeping) (idle 2 {} ({} : Ledger)) moves = some s ∧
      s.shared.books.health = .unhealthy ∧
      ∀ q ∈ s.shared.books.openQueues, s.shared.books.table.isSuspended q = true := by
  intro moves
  have hapart : Threads.Throughout (monitorProgram bookkeeping) KeepApart
      (idle 2 {} ({} : Ledger)) moves := by
    decide +kernel
  obtain ⟨s, hs⟩ : ∃ s : ClientThreads 2, Threads.play? (monitorProgram bookkeeping)
      (idle 2 {} ({} : Ledger)) moves = some s := ⟨_, rfl⟩
  have hrest : s.AtRest := by
    cases hs
    decide
  have hwatched : s.shared.monitor.IsWatched := by
    cases hs
    decide
  have hstate : s.shared.monitor.state = .unhealthy := by
    cases hs
    rfl
  have hasks : ∀ q ∈ s.shared.books.openQueues,
      (s.shared.books.table.options q).suspendsOnBadHostHealth := by
    cases hs
    decide
  obtain ⟨hhealth, hflags⟩ := client_follows_monitor (by decide) hapart hs hrest hwatched
  exact ⟨s, hs, hhealth.trans hstate, fun q hq => (hflags q hq (hasks q hq)).mpr hstate⟩

/-- The books are left behind by a change that comes before the client has subscribed, and by two
changes of which the client hears in the wrong order. A queue is left without the flag that its
options ask for by options that are rejected and put back. -/
theorem client_left_behind :
    let late := (0, .join .client) :: (1, .set .unhealthy) :: goesOn 1 2 ++ goesOn 0 1
    let overtaken := (0, .join .client) :: goesOn 0 1 ++
      [(0, .set .unhealthy), (1, .set .healthy)] ++ goesOn 1 4 ++ goesOn 0 4
    (∃ s : ClientThreads 2,
      Threads.play? (monitorProgram bookkeeping) (idle 2 {} ({} : Ledger)) late = some s ∧
      s.AtRest ∧ s.shared.monitor.IsWatched ∧ s.shared.monitor.state = .unhealthy ∧
      s.shared.books.health = .healthy) ∧
    (∃ s : ClientThreads 2,
      Threads.play? (monitorProgram bookkeeping) (idle 2 {} ({} : Ledger)) overtaken = some s ∧
      s.AtRest ∧ s.shared.monitor.IsWatched ∧ s.shared.monitor.state = .healthy ∧
      s.shared.books.health = .unhealthy) ∧
    ∃ b', (DecidedCall.configureQueue DecidedCall.openedQueue {} ⟨0⟩).perform
        (.ending fun _ => .ok) (DecidedCall.troubled { suspendsOnBadHostHealth := true }) =
          .ok (-2) b' ∧
      b'.native.ledger.health = .unhealthy ∧
      b'.native.ledger.openQueues = [DecidedCall.openedQueue] ∧
      b'.native.ledger.table.state DecidedCall.openedQueue =
        { options := { suspendsOnBadHostHealth := true }, suspended := false } := by
  refine ⟨⟨_, rfl, ?_, ?_, rfl, rfl⟩, ⟨_, rfl, ?_, ?_, rfl, rfl⟩, _, rfl, rfl, rfl, rfl⟩
  all_goals decide

end ClientThreads

end BrokerBridge
