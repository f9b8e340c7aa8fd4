import BrokerBridge.Proofs.Concurrency.Stopping

/-!
# Starting and stopping side by side

A start changes the started state after its call took effect on the client, a stop before. As long
as no start is between the two while a stop is, the started state follows the client.
-/

namespace BrokerBridge

def CallEdge.effect? : CallEdge → Option Bool
  | took _ running => some running
  | _ => none

/-- The last call that took effect on the client was a start. -/
def running (log : List CallEdge) : Bool := (log.filterMap CallEdge.effect?).getLast? == some true

theorem running_append (log : List CallEdge) (e : CallEdge) :
    running (log ++ [e]) = e.effect?.getD (running log) := by
  unfold running
  rw [List.filterMap_append]
  cases he : e.effect? with
  | none => simp [he]
  | some up => cases up <;> simp [he]

namespace Activity

/-- A start that took effect on the client and has yet to change the started state. -/
def accepted : Activity → Nat
  | start .effective _ | start .changing _ => 1
  | _ => 0

/-- A stop that changed the started state and has yet to take effect on the client. -/
def pending : Activity → Nat
  | stop _ .ready _ | stop _ .calling _ => 1
  | _ => 0

inductive Lifecycle : (started running : Bool) → (accepted pending : Nat) →
    (started' running' : Bool) → (accepted' pending' : Nat) → Prop
  | same (started running accepted pending) :
      Lifecycle started running accepted pending started running accepted pending
  | accept (started running) : Lifecycle started running 0 0 started true 1 0
  | start (started running) : Lifecycle started running 1 0 true running 0 0
  | clear (running) : Lifecycle true running 0 0 false running 0 1
  | stop (started running) : Lifecycle started running 0 1 started false 0 0

structure Agreement (started running : Bool) (accepted pending : Nat) : Prop where
  ofStarted : started = true → running = true ∧ pending = 0
  ofAccepted : accepted ≠ 0 → running = true ∧ pending = 0
  ofStopped : started = false → accepted = 0 → pending = 0 → running = false

private theorem Lifecycle.agreement {started running started' running' : Bool}
    {accepted pending accepted' pending' accepteds pendings accepteds' pendings' : Nat}
    (h : Lifecycle started running accepted pending started' running' accepted' pending')
    (hs : Agreement started running accepteds pendings) (hle : pending ≤ pendings)
    (haccepted : accepteds' + accepted = accepteds + accepted')
    (hpending : pendings' + pending = pendings + pending')
    (hapart : accepteds' = 0 ∨ pendings' = 0) :
    Agreement started' running' accepteds' pendings' := by
  cases h with
  | same =>
    have haccepteds : accepteds' = accepteds := by omega
    have hpendings : pendings' = pendings := by omega
    rw [haccepteds, hpendings]
    exact hs
  | accept =>
    have hnone : pendings' = 0 := by omega
    exact ⟨fun _ => ⟨rfl, hnone⟩, fun _ => ⟨rfl, hnone⟩, by omega⟩
  | start =>
    obtain ⟨hrunning, hnone⟩ := hs.ofAccepted (by omega)
    exact ⟨fun _ => ⟨hrunning, by omega⟩, fun _ => ⟨hrunning, by omega⟩, nofun⟩
  | clear => exact ⟨nofun, by omega, by omega⟩
  | stop =>
    have hstopped : started = false := by
      by_contra hnot
      have hnone := (hs.ofStarted (by simpa using hnot)).2
      omega
    have hnone : accepteds' = 0 := by
      by_contra hnot
      have hnone := (hs.ofAccepted (by omega)).2
      omega
    exact ⟨by simp [hstopped], fun hnot => absurd hnone hnot, fun _ _ _ => rfl⟩

variable {s s' : SharedSession} {t : ThreadId} {a : Activity} {a' : Option Activity}

private theorem Next.lifecycle (h : a.Next s t s' a') :
    Lifecycle s.gate.started (running s.log) a.accepted a.pending
      s'.gate.started (running s'.log) (a'.elim 0 accepted) (a'.elim 0 pending) := by
  cases h with
  | edge he =>
    rw [SharedSession.gate_record, SharedSession.log_record, running_append]
    cases he with
    | startTakes => exact .accept ..
    | stopTakes => exact .stop ..
    | _ => exact .same ..
  | startChange => exact .start ..
  | stopChange _ _ _ started =>
    rw [started]
    exact .clear _
  | stopIdle _ _ _ started =>
    rw [started]
    exact .same ..
  | count | uncount =>
    simp only [SharedSession.gate_onGate, Gate.started_count, Gate.started_uncount]
    exact .same ..
  | operationBack _ _ _ back | startBack _ _ back | stopBack _ _ _ back =>
    obtain ⟨hgate, hlog⟩ := SharedSession.eq_of_stepBack? back
    rw [hgate, hlog]
    exact .same ..
  | _ => exact .same ..

private theorem Edge.pending_of_effect {a₁ : Activity} {e : CallEdge} (h : a.Edge t e a₁)
    (he : e.effect? = some false) : a.pending = 1 := by
  cases h with
  | stopTakes => rfl
  | _ => cases he

end Activity

/-- What the log shows where the lifecycle and the queue calls agree: a queue call begins and ends
while the client runs, and has ended before a stop takes effect. -/
def RunsInside (before : List CallEdge) (e : CallEdge) : Prop :=
  (e.beginsQueueCall = true ∨ e.endsQueueCall = true → running before = true) ∧
    (e.effect? = some false →
      before.countP CallEdge.endsQueueCall = before.countP CallEdge.beginsQueueCall)

namespace SessionThreads

variable {n : Nat} {s s' : SessionThreads n} {t : Fin n} {m : SessionMove}

/-- No start took effect on the client and has yet to change the started state, while a stop
changed the started state and has yet to take effect on the client. -/
def Apart (s : SessionThreads n) : Prop :=
  s.weight Activity.accepted = 0 ∨ s.weight Activity.pending = 0

instance (s : SessionThreads n) : Decidable s.Apart :=
  inferInstanceAs (Decidable (_ ∨ _))

structure Agreeing (s : SessionThreads n) : Prop where
  accounted : s.Accounted
  calling : s.shared.log.countP CallEdge.endsQueueCall + s.weight Activity.calling =
    s.shared.log.countP CallEdge.beginsQueueCall
  agreement : Activity.Agreement s.shared.gate.started (running s.shared.log)
    (s.weight Activity.accepted) (s.weight Activity.pending)
  inside : InOrder RunsInside s.shared.log

private theorem agreeing_idle : (idle n false).Agreeing where
  accounted := accounted_idle false
  calling := by simp
  agreement := by
    rw [weight_idle, weight_idle]
    exact ⟨nofun, fun h => absurd rfl h, fun _ _ _ => rfl⟩
  inside := inOrder_nil _

private theorem runsInside_of_edge (hs : s.Agreeing) {a a' : Activity} {e : CallEdge}
    (ha : a ∈ s.stackOf t) (he : a.Edge t e a') : RunsInside s.shared.log e := by
  have hstopped := hs.accounted.stopped
  constructor
  · intro hqueue
    have hinside : a.insides = 1 := hqueue.elim he.insides he.insides_of_ends
    have hinsides := Threads.le_weight Activity.insides ha
    apply (hs.agreement.ofStarted _).1
    by_contra hnot
    have hzero := hstopped (by simpa using hnot)
    omega
  · intro heffect
    have hone := he.pending_of_effect heffect
    have hpending := Threads.le_weight Activity.pending ha
    have hzero : s.weight Activity.insides = 0 := by
      apply hstopped
      by_contra hnot
      have hnone := (hs.agreement.ofStarted (by simpa using hnot)).2
      omega
    have hcalling := s.weight_le_weight Activity.calling_le_insides
    have hbalance := hs.calling
    omega

private theorem agreeing_step (hs : s.Agreeing) (hapart : s'.Apart)
    (h : s.step? sessionProgram t m = some s') : s'.Agreeing := by
  have haccounted := accounted_step hs.accounted h
  rcases cases_of_step? h with ⟨e, rfl, hshared, hw⟩ | ⟨a, a', ha, hn, hw⟩
  · have haccepted : e.activity.accepted = 0 := by cases e <;> rfl
    have hpending : e.activity.pending = 0 := by cases e <;> rfl
    have hcalling : e.activity.calling = 0 := by cases e <;> rfl
    refine ⟨haccounted, ?_, ?_, ?_⟩
    all_goals simp only [hw, haccepted, hpending, hcalling, hshared, Nat.add_zero]
    · exact hs.calling
    · exact hs.agreement
    · exact hs.inside
  · refine ⟨haccounted, ?_, ?_, ?_⟩
    · have hbalance := hs.calling
      have hcalling := hn.calling
      have hsum := hw Activity.calling
      omega
    · exact hn.lifecycle.agreement hs.agreement (Threads.le_weight Activity.pending ha)
        (hw Activity.accepted) (hw Activity.pending) hapart
    · rcases hn.log with hlog | ⟨e, a₁, _, hrecord, he⟩
      · rw [hlog]
        exact hs.inside
      · rw [hrecord]
        exact hs.inside.append (runsInside_of_edge hs ha he)

/-- However starts, stops and operations interleave on a session that is not started yet, as long
as starts and stops keep apart: queue calls are made while the client runs, and once every call
has returned the session is started exactly when the last call that took effect was a start. -/
theorem lifecycle_agrees {moves : List (Fin n × SessionMove)}
    (hapart : (idle n false).Throughout sessionProgram Apart moves)
    (h : (idle n false).play? sessionProgram moves = some s) :
    InOrder RunsInside s.shared.log ∧
      (s.AtRest → s.shared.gate.started = running s.shared.log) := by
  have hs : s.Agreeing := by
    refine Threads.play?_induction_throughout ?_ agreeing_idle hapart h
    intro s t m s' _ hs _ hapart hstep
    exact agreeing_step hs hapart hstep
  refine ⟨hs.inside, ?_⟩
  intro hrest
  have haccepted := Threads.weight_eq_zero_of_atRest hrest Activity.accepted
  have hpending := Threads.weight_eq_zero_of_atRest hrest Activity.pending
  cases hstarted : s.shared.gate.started with
  | true => exact (hs.agreement.ofStarted hstarted).1.symm
  | false => exact (hs.agreement.ofStopped hstarted haccepted hpending).symm

/-- A start, a stop that waits for a queue to be configured, and another start beside the stop. -/
def restart (t u : Fin 2) : List (Fin 2 × SessionMove) :=
  List.flatten [
    (t, .begin .start) :: proceeds t 2,
    (t, .takeEffect) :: (t, .finish Code.success) :: proceeds t 2,
    (t, .begin (.operation .configureQueue)) :: proceeds t 6,
    [(u, .begin (.stop false)), (u, .proceed), (u, .wait)],
    [(t, .finish Code.success), (t, .proceed)],
    (t, .finish Code.success) :: proceeds t 4,
    (t, .begin .start) :: proceeds t 2,
    [(u, .proceed), (u, .proceed), (u, .takeEffect)],
    (t, .takeEffect) :: (t, .finish Code.success) :: proceeds t 2,
    [(u, .finish Code.success), (u, .proceed)]]

theorem lifecycle_agrees_restart : ∃ s : SessionThreads 2,
    (idle 2 false).Throughout sessionProgram Apart (restart 0 1) ∧
    (idle 2 false).play? sessionProgram (restart 0 1) = some s ∧ s.AtRest ∧
    InOrder RunsInside s.shared.log ∧ s.shared.gate.started = running s.shared.log ∧
    s.shared.gate.started = true := by
  have hapart : (idle 2 false).Throughout sessionProgram Apart (restart 0 1) := by decide +kernel
  have hrun : ((idle 2 false).play? sessionProgram (restart 0 1)).any
      (fun s => decide s.AtRest && s.shared.gate.started) = true := by decide +kernel
  obtain ⟨s, hplay, hs⟩ := (Option.any_eq_true _ _).mp hrun
  simp only [Bool.and_eq_true, decide_eq_true_eq] at hs
  obtain ⟨hrest, hstarted⟩ := hs
  obtain ⟨hinside, hagree⟩ := lifecycle_agrees hapart hplay
  exact ⟨s, hapart, hplay, hrest, hinside, hagree hrest, hstarted⟩

def refusedStart (t : Fin 1) : List (Fin 1 × SessionMove) :=
  List.flatten [
    (t, .begin .start) :: proceeds t 2,
    (t, .takeEffect) :: (t, .finish Code.success) :: proceeds t 2,
    (t, .begin .start) :: proceeds t 2,
    [(t, .finish Code.timeout), (t, .proceed)]]

/-- A start takes both its steps between those of a stop. -/
def startInsideStop (t u : Fin 2) : List (Fin 2 × SessionMove) :=
  List.flatten [
    (t, .begin .start) :: proceeds t 2,
    (t, .takeEffect) :: (t, .finish Code.success) :: proceeds t 2,
    (u, .begin (.stop false)) :: proceeds u 2,
    (t, .begin .start) :: proceeds t 2,
    (t, .takeEffect) :: (t, .finish Code.success) :: proceeds t 2,
    [(u, .proceed), (u, .takeEffect), (u, .finish Code.success), (u, .proceed)]]

/-- A refused start leaves a session started. A start that overtakes a stop leaves it started with
a client that does not run, and the next operation calls that client. -/
theorem lifecycle_disagrees :
    (∃ s : SessionThreads 1,
      (idle 1 false).play? sessionProgram (refusedStart 0) = some s ∧ s.AtRest ∧
      s.shared.log.getLast? = some (.ended 0 .start Code.timeout) ∧
      s.shared.gate.started = true) ∧
    (∃ s s' : SessionThreads 2,
      (idle 2 false).play? sessionProgram (startInsideStop 0 1) = some s ∧ s.AtRest ∧
      s.shared.gate.started = true ∧ running s.shared.log = false ∧
      s.play? sessionProgram ((0, .begin (.operation .queueOptions)) :: proceeds 0 6) = some s' ∧
      s'.shared.log = s.shared.log ++ [.began 0 (.queue .findQueue)]) := by
  constructor
  · have hrun : ((idle 1 false).play? sessionProgram (refusedStart 0)).any
        (fun s => decide s.AtRest && s.shared.gate.started &&
          s.shared.log.getLast? == some (.ended 0 .start Code.timeout)) = true := by
      decide +kernel
    obtain ⟨s, hplay, hs⟩ := (Option.any_eq_true _ _).mp hrun
    simp only [Bool.and_eq_true, decide_eq_true_eq, beq_iff_eq] at hs
    exact ⟨s, hplay, hs.1.1, hs.2, hs.1.2⟩
  · have hrun : ((idle 2 false).play? sessionProgram (startInsideStop 0 1)).any
        (fun s => decide s.AtRest && s.shared.gate.started && !running s.shared.log &&
          (s.play? sessionProgram ((0, .begin (.operation .queueOptions)) :: proceeds 0 6)).any
            fun s' => s'.shared.log == s.shared.log ++ [.began 0 (.queue .findQueue)]) = true := by
      decide +kernel
    obtain ⟨s, hplay, hs⟩ := (Option.any_eq_true _ _).mp hrun
    simp only [Bool.and_eq_true, decide_eq_true_eq, Bool.not_eq_true'] at hs
    obtain ⟨⟨⟨hrest, hstarted⟩, hstopped⟩, hnext⟩ := hs
    obtain ⟨s', hplay', hlog⟩ := (Option.any_eq_true _ _).mp hnext
    exact ⟨s, s', hplay, hrest, hstarted, hstopped, hplay', eq_of_beq hlog⟩

end SessionThreads

end BrokerBridge
