import BrokerBridge.Proofs.Concurrency.Sections

/-!
# Readers of a shared session

In every interleaving the gate counts exactly the operations that hold it, and no operation is
past its check while the session is stopped.
-/

namespace BrokerBridge

/-- Past the started check, and not counted out yet. -/
def OperationStage.isInside : OperationStage → Bool
  | counting | inside | calling _ | leaving => true
  | _ => false

def OperationStage.isHolding : OperationStage → Bool
  | checking | releasing => true
  | stage => stage.isInside

namespace Activity

def isInside : Activity → Bool
  | operation stage _ _ => stage.isInside
  | _ => false

def isHolding : Activity → Bool
  | operation stage _ _ => stage.isHolding
  | _ => false

def holds (a : Activity) : Nat := a.isHolding.toNat

def insides (a : Activity) : Nat := a.isInside.toNat

theorem insides_le_holds (a : Activity) : a.insides ≤ a.holds := by
  cases a with
  | operation stage _ _ =>
    cases stage <;> simp [insides, holds, isInside, isHolding, OperationStage.isInside,
      OperationStage.isHolding]
  | _ => exact Nat.le_refl _

end Activity

private theorem Errand.holds_activity (e : Errand) : e.activity.holds = 0 := by
  cases e <;> rfl

private theorem Errand.insides_activity (e : Errand) : e.activity.insides = 0 := by
  cases e <;> rfl

namespace SharedSession

variable (s : SharedSession)

@[simp] theorem gate_record (e : CallEdge) : (s.record e).gate = s.gate := rfl

@[simp] theorem gate_onGate (f : Gate → Gate) : (s.onGate f).gate = f s.gate := rfl

@[simp] theorem log_record (e : CallEdge) : (s.record e).log = s.log ++ [e] := rfl

variable {s}

theorem eq_of_stepBack? {s' : SharedSession} {t : ThreadId} {saved : Nat}
    (h : s.stepBack? t saved = some s') : s'.gate = s.gate ∧ s'.log = s.log := by
  obtain ⟨host, _, rfl⟩ := Option.map_eq_some_iff.mp h
  exact ⟨rfl, rfl⟩

end SharedSession

namespace Gate

theorem holds_of_isClear {g : Gate} (h : g.isClear = true) : g.holds = 0 := by
  simpa [isClear] using h

end Gate

namespace Activity.Next

variable {s s' : SharedSession} {t : ThreadId} {a : Activity} {a' : Option Activity}

/-- The gate is held by one more for an operation that takes hold, and by one less for one that
lets go. -/
theorem holds (h : a.Next s t s' a') (hle : a.holds ≤ s.gate.holds) :
    s'.gate.holds + a.holds = s.gate.holds + a'.elim 0 Activity.holds := by
  cases h with
  | edge he => cases he <;> rfl
  | release => exact Nat.sub_add_cancel hle
  | operationBack _ _ _ back | startBack _ _ back | stopBack _ _ _ back =>
    rw [(SharedSession.eq_of_stepBack? back).1]
    rfl
  | count | uncount =>
    simp [Activity.holds, isHolding, OperationStage.isHolding, OperationStage.isInside]
  | _ => rfl

/-- Nobody gets inside while the session is stopped, and it is stopped while nobody holds it. -/
theorem stopped (h : a.Next s t s' a') (hs : s'.gate.started = false) :
    a'.elim 0 insides ≤ a.insides ∧ (s.gate.started = false ∨ s.gate.isClear = true) := by
  cases h with
  | edge he => exact ⟨by cases he <;> exact Nat.le_refl _, .inl hs⟩
  | pass _ _ started =>
    rw [hs] at started
    cases started
  | stopChange _ _ clear | stopIdle _ _ clear => exact ⟨Nat.le_refl _, .inr clear⟩
  | startChange => cases hs
  | operationBack _ _ _ back | startBack _ _ back | stopBack _ _ _ back =>
    rw [(SharedSession.eq_of_stepBack? back).1] at hs
    exact ⟨Nat.zero_le _, .inl hs⟩
  | count | uncount => exact ⟨Nat.le_of_ble_eq_true rfl, .inl (by simpa using hs)⟩
  | _ => exact ⟨by simp [insides, isInside, OperationStage.isInside], .inl hs⟩

/-- The log grows by the ends of native calls. -/
theorem log (h : a.Next s t s' a') :
    s'.log = s.log ∨ ∃ e a₁, a' = some a₁ ∧ s' = s.record e ∧ a.Edge t e a₁ := by
  cases h with
  | edge he => exact .inr ⟨_, _, rfl, rfl, he⟩
  | operationBack _ _ _ back | startBack _ _ back | stopBack _ _ _ back =>
    exact .inl (SharedSession.eq_of_stepBack? back).2
  | _ => exact .inl rfl

end Activity.Next

namespace SessionThreads

variable {n : Nat} {s s' : SessionThreads n} {t : Fin n} {m : SessionMove}

/-- The gate counts the operations that hold it, and a stopped session has none inside. -/
structure Accounted (s : SessionThreads n) : Prop where
  holds : s.shared.gate.holds = s.weight Activity.holds
  stopped : s.shared.gate.started = false → s.weight Activity.insides = 0

private theorem Accounted.insides_of_isClear (hs : s.Accounted) (h : s.shared.gate.isClear = true) :
    s.weight Activity.insides = 0 := by
  have hle := s.weight_le_weight Activity.insides_le_holds
  rw [← hs.holds, Gate.holds_of_isClear h] at hle
  omega

theorem accounted_idle (started : Bool) : (idle n started).Accounted where
  holds := (weight_idle ..).symm
  stopped _ := weight_idle ..

theorem accounted_step (hs : s.Accounted) (h : s.step? sessionProgram t m = some s') :
    s'.Accounted := by
  rcases cases_of_step? h with ⟨e, rfl, hshared, hw⟩ | ⟨a, a', ha, hn, hw⟩
  · have hholds := hw Activity.holds
    have hinsides := hw Activity.insides
    rw [e.holds_activity] at hholds
    rw [e.insides_activity] at hinsides
    exact ⟨by rw [hshared, hholds, hs.holds]; rfl, by rw [hshared, hinsides]; exact hs.stopped⟩
  · have hle := Threads.le_weight Activity.holds ha
    constructor
    · have hholds := hw Activity.holds
      have hgate := hn.holds (by rw [hs.holds]; exact hle)
      have hbefore := hs.holds
      omega
    · intro hstopped
      obtain ⟨hgrow, hbefore⟩ := hn.stopped hstopped
      have hzero : s.weight Activity.insides = 0 := hbefore.elim hs.stopped hs.insides_of_isClear
      have hinsides := hw Activity.insides
      omega

end SessionThreads

end BrokerBridge
