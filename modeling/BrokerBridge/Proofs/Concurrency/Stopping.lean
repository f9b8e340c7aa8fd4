import BrokerBridge.Proofs.Concurrency.Readers

/-!
# Stopping beside queue operations

While no start runs, a stop changes the started state at most once. The stop that changed it finds
no operation past its check, and none passes it from then on.
-/

namespace BrokerBridge

namespace CallEdge

def beginsStop : CallEdge → Bool
  | began _ .stop => true
  | _ => false

def beginsQueueCall : CallEdge → Bool
  | began _ (.queue _) => true
  | _ => false

def endsQueueCall : CallEdge → Bool
  | ended _ (.queue _) _ => true
  | _ => false

end CallEdge

private theorem SharedSession.countP_record (p : CallEdge → Bool) (s : SharedSession)
    (e : CallEdge) :
    (s.record e).log.countP p = s.log.countP p + (p e).toNat := by
  rw [log_record, List.countP_append, List.countP_singleton]
  cases p e <;> rfl

namespace Activity

def starts : Activity → Nat
  | start _ _ => 1
  | _ => 0

/-- A stop that has changed the started state and has yet to stop the client. -/
def armed : Activity → Nat
  | stop _ .ready _ => 1
  | _ => 0

def calling : Activity → Nat
  | operation (.calling _) _ _ => 1
  | _ => 0

theorem calling_le_insides (a : Activity) : a.calling ≤ a.insides := by
  cases a with
  | operation stage _ _ =>
    cases stage <;> simp [calling, insides, isInside, OperationStage.isInside]
  | _ => exact Nat.le_refl _

namespace Edge

variable {t : ThreadId} {a a' : Activity} {e : CallEdge}

theorem insides (h : a.Edge t e a') (he : e.beginsQueueCall = true) : a.insides = 1 := by
  cases h with
  | call => rfl
  | _ => cases he

theorem insides_of_ends (h : a.Edge t e a') (he : e.endsQueueCall = true) : a.insides = 1 := by
  cases h with
  | answer => rfl
  | _ => cases he

private theorem armed (h : a.Edge t e a') :
    a'.armed + e.beginsStop.toNat = a.armed := by
  cases h <;> rfl

private theorem calling (h : a.Edge t e a') :
    a'.calling + e.endsQueueCall.toNat = a.calling + e.beginsQueueCall.toNat := by
  cases h <;> rfl

private theorem starts (h : a.Edge t e a') : a'.starts = a.starts := by
  cases h <;> rfl

end Edge

namespace Next

variable {s s' : SharedSession} {t : ThreadId} {a : Activity} {a' : Option Activity}

theorem starts (h : a.Next s t s' a') : a'.elim 0 Activity.starts ≤ a.starts := by
  cases h with
  | edge he => exact Nat.le_of_eq he.starts
  | _ => first | exact Nat.le_refl _ | exact Nat.zero_le _

/-- Without starts, a stop is armed only where the session was started and no longer is. -/
theorem armed (h : a.Next s t s' a') (hstarts : a.starts = 0) :
    (s'.gate.started = s.gate.started ∧
      a'.elim 0 Activity.armed + s'.log.countP CallEdge.beginsStop =
        a.armed + s.log.countP CallEdge.beginsStop) ∨
    (s.gate.started = true ∧ s'.gate.started = false ∧ s'.log = s.log ∧ a.armed = 0 ∧
      a'.elim 0 Activity.armed = 1) := by
  cases h with
  | edge he =>
    have harmed := he.armed
    refine .inl ⟨rfl, ?_⟩
    rw [SharedSession.countP_record, Option.elim_some]
    omega
  | stopChange _ _ _ started => exact .inr ⟨started, rfl, rfl, rfl, rfl⟩
  | stopIdle _ _ _ started => exact .inl ⟨started.symm, rfl⟩
  | startChange => cases hstarts
  | count | uncount => exact .inl ⟨by simp, rfl⟩
  | operationBack _ _ _ back | startBack _ _ back | stopBack _ _ _ back =>
    obtain ⟨hgate, hlog⟩ := SharedSession.eq_of_stepBack? back
    exact .inl ⟨by rw [hgate], by rw [hlog]; rfl⟩
  | _ => exact .inl ⟨rfl, rfl⟩

/-- The calls in progress are those that have begun and not ended. -/
theorem calling (h : a.Next s t s' a') :
    s'.log.countP CallEdge.endsQueueCall + a'.elim 0 Activity.calling +
        s.log.countP CallEdge.beginsQueueCall =
      s.log.countP CallEdge.endsQueueCall + a.calling +
        s'.log.countP CallEdge.beginsQueueCall := by
  cases h with
  | edge he =>
    have hcalling := he.calling
    rw [SharedSession.countP_record, SharedSession.countP_record, Option.elim_some]
    omega
  | operationBack _ _ _ back | startBack _ _ back | stopBack _ _ _ back =>
    rw [(SharedSession.eq_of_stepBack? back).2]
    rfl
  | _ => rfl

end Next

end Activity

/-- What the log shows where stops and queue calls keep apart: no stop of the client has begun
before a queue call or before another stop, and the queue calls before a stop have ended. -/
def StopsApart (before : List CallEdge) (e : CallEdge) : Prop :=
  (e.beginsQueueCall = true → before.countP CallEdge.beginsStop = 0) ∧
    (e.beginsStop = true → before.countP CallEdge.beginsStop = 0 ∧
      before.countP CallEdge.endsQueueCall = before.countP CallEdge.beginsQueueCall)

namespace SessionThreads

variable {n : Nat} {s s' : SessionThreads n} {t : Fin n} {m : SessionMove}

def Quiet (s : SessionThreads n) : Prop := ∀ t, ∀ a ∈ s.stackOf t, a.isInside = false

private theorem quiet_of_weight (h : s.weight Activity.insides = 0) : s.Quiet := by
  intro t a ha
  have hzero := Threads.weight_eq_zero_iff.mp h t a ha
  exact Bool.toNat_eq_zero.mp hzero

structure StopOnly (s : SessionThreads n) : Prop where
  accounted : s.Accounted
  starts : s.weight Activity.starts = 0
  armed : s.weight Activity.armed + s.shared.log.countP CallEdge.beginsStop ≤ 1
  started : s.shared.gate.started = true →
    s.weight Activity.armed + s.shared.log.countP CallEdge.beginsStop = 0
  calling : s.shared.log.countP CallEdge.endsQueueCall + s.weight Activity.calling =
    s.shared.log.countP CallEdge.beginsQueueCall
  apart : InOrder StopsApart s.shared.log

private theorem StopOnly.insides_of_armed (hs : s.StopOnly) {a : Activity} (ha : a ∈ s.stackOf t)
    (harmed : 0 < a.armed) : s.weight Activity.insides = 0 := by
  have hle := Threads.le_weight Activity.armed ha
  apply hs.accounted.stopped
  cases hstarted : s.shared.gate.started
  · rfl
  · have hzero := hs.started hstarted
    omega

private theorem stopOnly_idle (started : Bool) : (idle n started).StopOnly where
  accounted := accounted_idle started
  starts := weight_idle ..
  armed := by simp
  started _ := by simp
  calling := by simp
  apart := inOrder_nil _

private theorem stopsApart_of_edge (hs : s.StopOnly) {a a' : Activity} {e : CallEdge}
    (ha : a ∈ s.stackOf t) (he : a.Edge t e a') : StopsApart s.shared.log e := by
  constructor
  · intro hbegins
    have hle := Threads.le_weight Activity.insides ha
    rw [he.insides hbegins] at hle
    have hstarted : s.shared.gate.started = true := by
      by_contra hnot
      have hzero := hs.accounted.stopped (by simpa using hnot)
      omega
    have hzero := hs.started hstarted
    omega
  · intro hbegins
    have harmed := he.armed
    rw [hbegins, Bool.toNat_true] at harmed
    have hle := Threads.le_weight Activity.armed ha
    have hmost := hs.armed
    have hquiet := hs.insides_of_armed ha (by omega)
    have hcalling := s.weight_le_weight Activity.calling_le_insides
    have hbalance := hs.calling
    exact ⟨by omega, by omega⟩

private theorem stopOnly_step (hs : s.StopOnly) (hm : m ≠ .begin .start)
    (h : s.step? sessionProgram t m = some s') : s'.StopOnly := by
  have haccounted := accounted_step hs.accounted h
  rcases cases_of_step? h with ⟨e, rfl, hshared, hw⟩ | ⟨a, a', ha, hn, hw⟩
  · have hstarts : e.activity.starts = 0 := by
      cases e with
      | start => exact absurd rfl hm
      | _ => rfl
    have harmed : e.activity.armed = 0 := by cases e <;> rfl
    have hcalling : e.activity.calling = 0 := by cases e <;> rfl
    refine ⟨haccounted, ?_, ?_, ?_, ?_, ?_⟩
    · rw [hw, hs.starts, hstarts]
    · rw [hw, harmed, hshared]
      exact hs.armed
    · rw [hw, harmed, hshared]
      exact hs.started
    · rw [hw, hcalling, hshared]
      exact hs.calling
    · rw [hshared]
      exact hs.apart
  · have hstarts : a.starts = 0 := by
      have hle := Threads.le_weight Activity.starts ha
      have hnone := hs.starts
      omega
    have hchange := hn.armed hstarts
    have harmed := hw Activity.armed
    have hmost := hs.armed
    have hopen := hs.started
    refine ⟨haccounted, ?_, ?_, ?_, ?_, ?_⟩
    · have hnone := hs.starts
      have hgrow := hn.starts
      have hsum := hw Activity.starts
      omega
    · rcases hchange with ⟨_, hsame⟩ | ⟨hwas, _, hlog, _, _⟩
      · omega
      · have hzero := hopen hwas
        rw [hlog]
        omega
    · intro hstarted
      rcases hchange with ⟨hgate, hsame⟩ | ⟨_, hnow, _, _, _⟩
      · have hzero := hopen (hgate ▸ hstarted)
        omega
      · rw [hnow] at hstarted
        cases hstarted
    · have hbalance := hs.calling
      have hcalling := hn.calling
      have hsum := hw Activity.calling
      omega
    · rcases hn.log with hlog | ⟨e, a₁, _, hrecord, he⟩
      · rw [hlog]
        exact hs.apart
      · rw [hrecord]
        exact hs.apart.append (stopsApart_of_edge hs ha he)

private theorem stopOnly_of_play? {started : Bool} {moves : List (Fin n × SessionMove)}
    (hm : ∀ t, (t, SessionMove.begin .start) ∉ moves)
    (h : (idle n started).play? sessionProgram moves = some s) : s.StopOnly := by
  refine Threads.play?_induction ?_ (stopOnly_idle started) h
  intro s t m s' hmem hs hstep
  exact stopOnly_step hs (fun heq => hm t (heq ▸ hmem)) hstep

/-- However operations and stops interleave while nobody starts the session: the client is stopped
only where no operation is past its check, no queue call begins after that, and the client is
stopped at most once. -/
theorem stop_excludes_operations {started : Bool} {moves : List (Fin n × SessionMove)}
    (hm : ∀ t, (t, SessionMove.begin .start) ∉ moves)
    (h : (idle n started).play? sessionProgram moves = some s) :
    (∀ t m s', s.step? sessionProgram t m = some s' →
      s'.shared.log = s.shared.log ++ [.began t .stop] → s.Quiet) ∧
    InOrder StopsApart s.shared.log ∧
    s.shared.log.countP CallEdge.beginsStop ≤ 1 := by
  have hs := stopOnly_of_play? hm h
  refine ⟨?_, hs.apart, ?_⟩
  · intro t m s' hstep hlog
    apply quiet_of_weight
    rcases cases_of_step? hstep with ⟨_, _, hshared, _⟩ | ⟨a, a', ha, hn, _⟩
    · rw [hshared] at hlog
      simp at hlog
    · rcases hn.log with hsame | ⟨e, a₁, _, hrecord, he⟩
      · rw [hsame] at hlog
        simp at hlog
      · rw [hrecord, SharedSession.log_record, List.append_cancel_left_eq] at hlog
        cases hlog
        have harmed : a₁.armed + 1 = a.armed := he.armed
        exact hs.insides_of_armed ha (by omega)
  · have hmost := hs.armed
    omega

def configureBesideStop (t u : Fin 2) : List (Fin 2 × SessionMove) :=
  List.flatten [
    (t, .begin (.operation .configureQueue)) :: proceeds t 6,
    [(t, .finish Code.success), (t, .proceed)],
    [(u, .begin (.stop false)), (u, .proceed), (u, .wait)],
    [(t, .begin (.host true)), (t, .proceed)],
    (t, .begin (.operation .queueOptions)) :: proceeds t 6,
    (t, .finish Code.success) :: proceeds t 5,
    (t, .finish Code.success) :: proceeds t 4,
    [(u, .proceed)]]

theorem stop_excludes_configure : ∃ s s' : SessionThreads 2,
    (∀ t, (t, SessionMove.begin .start) ∉ configureBesideStop 0 1) ∧
    (idle 2 true).play? sessionProgram (configureBesideStop 0 1) = some s ∧
    s.step? sessionProgram 1 .proceed = some s' ∧
    s'.shared.log = s.shared.log ++ [.began (1 : Fin 2) .stop] ∧
    s.Quiet ∧ InOrder StopsApart s.shared.log ∧ s.shared.log.countP CallEdge.beginsStop ≤ 1 := by
  have hm : ∀ t, (t, SessionMove.begin .start) ∉ configureBesideStop 0 1 := by decide +kernel
  have hrun : (((idle 2 true).play? sessionProgram (configureBesideStop 0 1)).bind fun s =>
      (s.step? sessionProgram 1 .proceed).map fun s' =>
        s'.shared.log == s.shared.log ++ [.began (1 : Fin 2) .stop]) = some true := by
    decide +kernel
  obtain ⟨s, hplay, hrun⟩ := Option.bind_eq_some_iff.mp hrun
  obtain ⟨s', hstep, hlog⟩ := Option.map_eq_some_iff.mp hrun
  have hlog := eq_of_beq hlog
  obtain ⟨hquiet, hapart, honce⟩ := stop_excludes_operations hm hplay
  exact ⟨s, s', hm, hplay, hstep, hlog, hquiet 1 .proceed s' hstep hlog, hapart, honce⟩

end SessionThreads

end BrokerBridge
