import BrokerBridge.Proofs.Concurrency.Progress
import BrokerBridge.Proofs.Concurrency.Stopping
import BrokerBridge.Proofs.Session.Computations

/-!
# Arriving while a stop waits

What comes of an operation that arrives at the gate after a stop has begun to wait: on a thread
that is not inside anything it is turned away, on one that is inside an operation, or delivers
while an operation is in flight, it is let in at once.
-/

namespace BrokerBridge

namespace Threads

variable {n : Nat} {σ φ μ : Type} {p : Program σ φ μ}

end Threads

def CallEdge.thread : CallEdge → ThreadId
  | began t _ | took t _ | ended t _ _ => t

def SharedSession.edgesOf (s : SharedSession) (t : ThreadId) : List CallEdge :=
  s.log.filter (·.thread == t)

def OperationStage.isEarly : OperationStage → Bool
  | asking => true
  | entering nested => !nested
  | _ => false

def OperationStage.isRefused : OperationStage → Bool
  | checking | releasing | returning => true
  | _ => false

def OperationStage.isAdmitted : OperationStage → Bool
  | asking | checking | counting => true
  | entering nested => nested
  | _ => false

private theorem Activity.starts_eq_zero_of_weight {n : Nat} {s : SessionThreads n} {t : Fin n}
    {a : Activity} (hs : s.weight Activity.starts = 0) (ha : a ∈ s.stackOf t) : a.starts = 0 :=
  Threads.weight_eq_zero_iff.mp hs t a ha

namespace Activity.Next

variable {s s' : SharedSession} {t : ThreadId} {a : Activity} {a' : Option Activity}

end Activity.Next

namespace SessionThreads

variable {n : Nat} {s s' : SessionThreads n} {t u : Fin n} {m : SessionMove} {a : Activity}
  {saved : Nat} {calls : List QueueCall} {rest : List Activity}

/-- The innermost activity of a thread need not wait for its next section. -/
def MayProceed (t : Fin n) (s : SessionThreads n) : Prop :=
  (s.step? sessionProgram t .proceed).isSome = true

private theorem mayProceed_of_proceed? (hstack : s.stackOf t = a :: rest)
    (h : (a.proceed? s.shared t (rest.any Activity.delivers)).isSome = true) : s.MayProceed t := by
  rw [MayProceed, Threads.step?, hstack]
  simpa [sessionProgram] using h

/-- An operation on its way in: it need not wait for anything and finds the session started. -/
def LetIn (t : Fin n) (saved : Nat) (calls : List QueueCall) (rest : List Activity)
    (s : SessionThreads n) : Prop :=
  s.shared.gate.started = true ∧ s.MayProceed t ∧
    ∃ stage, s.stackOf t = .operation stage saved calls :: rest ∧ stage.isAdmitted = true

structure Closing (s : SessionThreads n) : Prop where
  starts : s.weight Activity.starts = 0
  closed : s.shared.gate.waiting ≠ [] ∨ s.shared.gate.started = false

private theorem next_of_step? {stage : OperationStage}
    (hstack : s.stackOf t = .operation stage saved calls :: rest)
    (hopen : ∀ c, stage ≠ .calling c) (h : s.step? sessionProgram t m = some s') :
    ∃ a' shared, (Activity.operation stage saved calls).Next s.shared t shared a' ∧
      (Activity.operation stage saved calls).Notes s.shared t (rest.any Activity.delivers) a' ∧
      s' = s.set t shared (a'.toList ++ rest) := by
  rcases turn_of_step? h with ⟨e, _, hhead, _⟩ | ⟨a, rest', a', shared, hstack', hn, hnotes, rfl⟩
  · rw [hstack] at hhead
    cases stage with
    | calling c => exact absurd rfl (hopen c)
    | _ => cases hhead
  · rw [hstack] at hstack'
    cases hstack'
    exact ⟨a', shared, hn, hnotes, rfl⟩

/-! ## Turned away -/

structure Closed (t : Fin n) (saved : Nat) (calls : List QueueCall) (rest : List Activity)
    (before : List CallEdge) (s : SessionThreads n) : Prop where
  holding : s.Holding
  closing : s.Closing
  edges : s.shared.edgesOf t = before
  stage : ∃ stage, s.stackOf t = .operation stage saved calls :: rest ∧
    (stage.isEarly = true ∨ stage.isRefused = true ∧ s.shared.gate.started = false)

variable {before : List CallEdge}

private theorem Closing.waitingStarts (hs : s.Closing) (hholding : s.Holding) :
    s.shared.waitingStarts = [] := by
  cases hwaiting : s.shared.waitingStarts with
  | nil => rfl
  | cons v _ =>
    obtain ⟨u, _, saved, rest, hstack⟩ := hholding.starts v (by simp [hwaiting])
    have hmem : .start .changing saved ∈ s.stackOf u := by simp [hstack]
    cases Activity.starts_eq_zero_of_weight hs.starts hmem

structure Admitted (t : Fin n) (saved : Nat) (calls : List QueueCall) (rest : List Activity)
    (s : SessionThreads n) : Prop where
  holding : s.Holding
  accounted : s.Accounted
  started : s.shared.gate.started = true
  held : 0 < s.shared.gate.holds
  stage : ∃ stage, s.stackOf t = .operation stage saved calls :: rest ∧ stage.isAdmitted = true

private theorem Admitted.letIn (hs : s.Admitted t saved calls rest) :
    s.LetIn t saved calls rest := by
  obtain ⟨stage, hstack, hstage⟩ := hs.stage
  refine ⟨hs.started, mayProceed_of_proceed? hstack ?_, stage, hstack, hstage⟩
  cases stage with
  | asking | checking | counting => rfl
  | entering nested =>
    have hnested : nested = true := hstage
    have hheld : s.shared.gate.holds ≠ 0 := Nat.ne_of_gt hs.held
    simp [Activity.proceed?, SharedSession.admits, Gate.admits, hnested, hheld]
  | _ => cases hstage

end SessionThreads

namespace SessionThreads

variable {n : Nat} {s : SessionThreads n} {t : Fin n} {saved : Nat} {calls : List QueueCall}
  {rest : List Activity}

end SessionThreads

end BrokerBridge
