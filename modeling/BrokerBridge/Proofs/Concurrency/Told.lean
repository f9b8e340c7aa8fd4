import BrokerBridge.Proofs.Concurrency.Listeners
import Mathlib.Data.List.Chain

/-!
# What listeners are told

A listener that is told of one change at a time hears of both states by turns, and knows the
monitor's state in the end. One that a listener before it makes wait, by changing the state from
inside its own call, hears of the changes in the wrong order.
-/

namespace BrokerBridge

variable {ι : Type}

abbrev HealthLog := List (Nat × HealthState)

def recorder : Audience ι Empty HealthLog where
  hear l h log := log ++ [(l.1, h)]
  read _ _ log := log
  act a _ := a.elim

namespace HealthLog

variable (log : HealthLog) (id : Nat) (first h : HealthState)

def toldTo : List HealthState := log.filterMap fun c => if c.1 = id then some c.2 else none

def lastKnown : HealthState := (log.toldTo id).getLast?.getD first

@[simp] theorem toldTo_append_self : toldTo (log ++ [(id, h)]) id = log.toldTo id ++ [h] := by
  simp [toldTo]

theorem toldTo_append_of_ne {id other : Nat} (hne : other ≠ id) :
    toldTo (log ++ [(other, h)]) id = log.toldTo id := by
  simp [toldTo, hne]

theorem isChain_append (hlog : (first :: log.toldTo id).IsChain (· ≠ ·))
    (hne : log.lastKnown id first ≠ h) :
    (first :: toldTo (log ++ [(id, h)]) id).IsChain (· ≠ ·) := by
  rw [toldTo_append_self, ← List.cons_append]
  refine List.isChain_append.mpr ⟨hlog, List.isChain_singleton h, fun x hx y hy => ?_⟩
  rw [List.getLast?_cons] at hx
  cases hx
  cases hy
  exact hne

end HealthLog

/-- A listener that is being called is not called again for the same change. -/
theorem MonitorWork.isDue_listening {l : Nat × ι} {ls : List (Nat × ι)} (h : HealthState)
    (hnodup : ((l :: ls).map Prod.fst).Nodup) :
    MonitorWork.isDue (·.1 == l.1) (.listening h ls) = false := by
  apply List.any_eq_false.mpr
  intro other hother heq
  exact (List.nodup_cons.mp hnodup).1 (List.mem_map.mpr ⟨other, hother, beq_iff_eq.mp heq⟩)

namespace MonitorThreads

variable {n : Nat} {s s' : MonitorThreads n ι HealthLog} {t : Fin n} {m : MonitorMove ι Empty}
  {id : Nat} {first : HealthState}

abbrev underWayTo (id : Nat) (s : MonitorThreads n ι HealthLog) : Nat := s.underWay (·.1 == id)

/-- No two changes are on their way to the listener at once. -/
def ToldOneByOne (id : Nat) (s : MonitorThreads n ι HealthLog) : Prop := s.underWayTo id ≤ 1

instance (id : Nat) : DecidablePred (@ToldOneByOne ι n id) :=
  fun s => inferInstanceAs (Decidable (s.underWayTo id ≤ 1))

/-- The listener has heard of both states by turns, and of the last change unless that is on its
way. -/
structure Hears (id : Nat) (first : HealthState) (s : MonitorThreads n ι HealthLog) : Prop where
  alternate : (first :: s.shared.books.toldTo id).IsChain (· ≠ ·)
  last : s.shared.books.lastKnown id first = s.shared.monitor.state ↔ s.underWayTo id = 0

private theorem hears_idle (monitor : HealthMonitor ι) :
    (idle n monitor []).Hears id monitor.state where
  alternate := List.isChain_singleton _
  last := ⟨fun _ => Threads.weight_atRest .., fun _ => rfl⟩

private theorem Hears.step (hs : s.Hears id first) (hkeeps : s.Keeps id)
    (hup : s.UpToDate (·.1 == id)) (hone : s.underWayTo id ≤ 1) (hone' : s'.underWayTo id ≤ 1)
    (hstep : s.step? (monitorProgram recorder) t m = some s') : s'.Hears id first := by
  obtain ⟨before, shared, after, rest, turn, hbefore, rfl⟩ := turn_of_step? hstep
  have hsum := Threads.weight_exchange (MonitorWork.due (·.1 == id)) hbefore shared after
  -- most steps leave the number of changes on their way as it is, and tell nobody anything
  have same (hbooks : shared.books.toldTo id = s.shared.books.toldTo id)
      (hstate : shared.monitor.state = s.shared.monitor.state)
      (hdue : before.elim 0 (MonitorWork.due (·.1 == id)) =
        after.elim 0 (MonitorWork.due (·.1 == id))) :
      Hears id first (s.set t shared (after.toList ++ rest)) := by
    rw [hdue] at hsum
    have hway := Nat.add_right_cancel hsum
    obtain ⟨alternate, last⟩ := hs
    refine ⟨by rw [Threads.shared_set, hbooks]; exact alternate, ?_⟩
    rw [Threads.shared_set, HealthLog.lastKnown, hbooks, hstate]
    show _ ↔ Threads.weight _ _ = 0
    rw [hway]
    exact last
  cases turn with
  | keep | drop _ | done _ | subscribe _ | join _ | back _ _ => exact same rfl rfl rfl
  | act a => exact a.elim
  | lookUp h =>
    refine same rfl rfl ?_
    obtain ⟨l, hl, heq⟩ := hkeeps.subscribed
    have hdue : s.shared.monitor.listeners.any (·.1 == id) = true :=
      List.any_eq_true.mpr ⟨l, hl, beq_iff_eq.mpr heq⟩
    simp [MonitorWork.due, MonitorWork.isDue, hdue]
  | change h new =>
    have hdue : (MonitorWork.changed h : MonitorWork ι).due (·.1 == id) = 1 := rfl
    rw [Option.elim_some, hdue] at hsum
    have hzero : s.underWayTo id = 0 :=
      Nat.le_zero.mp (Nat.le_of_succ_le_succ (hsum.symm.trans_le hone'))
    refine ⟨hs.alternate, ?_⟩
    show s.shared.books.lastKnown id first = (s.shared.monitor.transition h).2.state ↔
      Threads.weight _ _ = 0
    rw [hs.last.mpr hzero, s.shared.monitor.state_transition h]
    exact ⟨fun heq => absurd heq new,
      fun hway => absurd (hsum.symm.trans hway) (Nat.succ_ne_zero _)⟩
  | call h l ls =>
    have hmem := Threads.mem_of_exchange hbefore rfl
    by_cases hl : l.1 = id
    · have hdue : MonitorWork.isDue (·.1 == id) (.telling h (l :: ls)) = true := by
        simp [MonitorWork.isDue, hl]
      have hstate : h = s.shared.monitor.state := Option.some.inj (hup t _ hmem hdue)
      have hnew : s.shared.books.lastKnown id first ≠ h := by
        rw [hstate]
        intro heq
        have hzero := isDue_of_underWay (hs.last.mp heq) hmem
        rw [hdue] at hzero
        cases hzero
      have hrest : MonitorWork.isDue (·.1 == id) (.listening h ls) = false := by
        rw [← hl]
        exact MonitorWork.isDue_listening h (hkeeps.once t _ hmem)
      have hway : Threads.weight (MonitorWork.due (·.1 == id)) (s.set t
          { s.shared with books := recorder.hear l h s.shared.books }
          ((some (.listening h ls)).toList ++ rest)) = 0 := by
        simp only [Option.elim_some, MonitorWork.due, hdue, hrest] at hsum
        exact Nat.le_zero.mp (Nat.le_of_succ_le_succ (hsum.trans_le hone))
      subst hl
      refine ⟨HealthLog.isChain_append _ _ _ _ hs.alternate hnew, fun _ => hway, fun _ => ?_⟩
      show HealthLog.lastKnown (s.shared.books ++ [(l.1, h)]) l.1 first = s.shared.monitor.state
      simp [HealthLog.lastKnown, hstate]
    · have hne : (l.1 == id) = false := beq_eq_false_iff_ne.mpr hl
      refine same (HealthLog.toldTo_append_of_ne _ _ hl) rfl ?_
      simp [MonitorWork.due, MonitorWork.isDue, hne]

structure Abreast (id : Nat) (first : HealthState) (s : MonitorThreads n ι HealthLog) : Prop where
  keeps : s.Keeps id
  upToDate : s.UpToDate (·.1 == id)
  hears : s.Hears id first

private theorem abreast_idle {monitor : HealthMonitor ι} (hmonitor : monitor.Numbered)
    (hid : monitor.IsSubscribed id) : (idle n monitor []).Abreast id monitor.state where
  keeps := ⟨hmonitor, hid, nofun⟩
  upToDate := upToDate_idle monitor []
  hears := hears_idle monitor

private theorem abreast_of_play? {monitor : HealthMonitor ι} (hmonitor : monitor.Numbered)
    (hid : monitor.IsSubscribed id) {moves : List (Fin n × MonitorMove ι Empty)}
    (hkept : ∀ move ∈ moves, move.2 ≠ .drop id)
    (hone : (idle n monitor []).Throughout (monitorProgram recorder) (ToldOneByOne id) moves)
    (h : (idle n monitor []).play? (monitorProgram recorder) moves = some s) :
    s.Abreast id monitor.state := by
  refine Threads.play?_induction_throughout ?_ (abreast_idle hmonitor hid) hone h
  intro s t m s' hmove hs hone hone' hstep
  exact
    { keeps := hs.keeps.step (hkept (t, m) hmove) hstep
      upToDate := hs.upToDate.step hone' hstep
      hears := hs.hears.step hs.keeps hs.upToDate hone hone' hstep }

/-- However threads set the state, subscribe and unsubscribe, from inside listeners or not: a
listener that stays subscribed hears of both states by turns, as long as no change is made while it
has yet to be told of another, and knows the monitor's state once all calls have returned. -/
theorem told_by_turns {monitor : HealthMonitor ι} (hmonitor : monitor.Numbered)
    (hid : monitor.IsSubscribed id) {moves : List (Fin n × MonitorMove ι Empty)}
    (hkept : ∀ move ∈ moves, move.2 ≠ .drop id)
    (hone : (idle n monitor []).Throughout (monitorProgram recorder) (ToldOneByOne id) moves)
    (h : (idle n monitor []).play? (monitorProgram recorder) moves = some s) :
    (monitor.state :: s.shared.books.toldTo id).IsChain (· ≠ ·) ∧
      (s.AtRest → s.shared.books.lastKnown id monitor.state = s.shared.monitor.state) := by
  have hs := abreast_of_play? hmonitor hid hkept hone h
  exact ⟨hs.hears.alternate, fun hrest =>
    hs.hears.last.mpr (Threads.weight_eq_zero_of_atRest hrest _)⟩

/-- A listener sets the state from inside its own call, and another one hears of that first. -/
theorem told_by_turns_nested :
    let monitor : HealthMonitor Unit := ((({} : HealthMonitor Unit).subscribe ()).2.subscribe ()).2
    let proceeds (k : Nat) := List.replicate k ((0 : Fin 1), (.proceed : MonitorMove Unit Empty))
    let moves := (0, .set .unhealthy) :: proceeds 2 ++ (0, .set .healthy) :: proceeds 10
    ∃ s : MonitorThreads 1 Unit HealthLog,
      (idle 1 monitor []).play? (monitorProgram recorder) moves = some s ∧ s.AtRest ∧
      s.shared.books.toldTo 0 = [.unhealthy, .healthy] ∧
      s.shared.books.lastKnown 0 .healthy = s.shared.monitor.state := by
  intro monitor proceeds moves
  have hmonitor : monitor.Numbered :=
    (HealthMonitor.numbered_new.subscribe ()).subscribe ()
  have hid : monitor.IsSubscribed 0 := ⟨(0, ()), by decide, rfl⟩
  have hone : (idle 1 monitor []).Throughout (monitorProgram recorder) (ToldOneByOne 0) moves := by
    decide +kernel
  obtain ⟨s, hs⟩ : ∃ s : MonitorThreads 1 Unit HealthLog,
      (idle 1 monitor []).play? (monitorProgram recorder) moves = some s := ⟨_, rfl⟩
  have hrest : s.AtRest := by
    cases hs
    decide
  have hnested : s.shared.books.toldTo 0 = [.unhealthy, .healthy] := by
    cases hs
    rfl
  exact ⟨s, hs, hrest, hnested, (told_by_turns hmonitor hid (by decide) hone hs).2 hrest⟩

end MonitorThreads

/-! ## The first listener -/

namespace HealthMonitor

variable {monitor : HealthMonitor ι} {id : Nat}

def IsFirst (monitor : HealthMonitor ι) (id : Nat) : Prop :=
  ∃ l others, monitor.listeners = (id, l) :: others

private theorem IsFirst.isSubscribed (h : monitor.IsFirst id) : monitor.IsSubscribed id := by
  obtain ⟨l, others, h⟩ := h
  exact ⟨(id, l), by rw [h]; exact List.mem_cons_self .., rfl⟩

private theorem IsFirst.subscribe (h : monitor.IsFirst id) (l : ι) :
    (monitor.subscribe l).2.IsFirst id := by
  obtain ⟨l₀, others, h⟩ := h
  refine ⟨l₀, others ++ [(monitor.nextId, l)], ?_⟩
  show monitor.listeners ++ _ = _
  rw [h]
  rfl

private theorem IsFirst.unsubscribe (h : monitor.IsFirst id) {other : Nat} (hne : other ≠ id) :
    (monitor.unsubscribe other).IsFirst id := by
  obtain ⟨l, others, h⟩ := h
  refine ⟨l, others.filter (·.1 != other), ?_⟩
  show monitor.listeners.filter (·.1 != other) = _
  rw [h]
  exact List.filter_cons_of_pos (bne_iff_ne.mpr hne.symm)

private theorem IsFirst.transition (h : monitor.IsFirst id) (next : HealthState) :
    (monitor.transition next).2.IsFirst id := by
  unfold IsFirst
  rw [monitor.listeners_transition next]
  exact h

end HealthMonitor

/-- A change that the first listener is told of before anything else can happen on the thread. -/
def MonitorWork.IsPrompt (id : Nat) : MonitorWork ι → Prop
  | changed _ => True
  | telling _ (l :: _) => l.1 = id
  | _ => False

namespace MonitorThreads

variable {s s' : MonitorThreads 1 ι HealthLog} {t : Fin 1} {m : MonitorMove ι Empty} {id : Nat}

structure First (id : Nat) (s : MonitorThreads 1 ι HealthLog) : Prop where
  keeps : s.Keeps id
  first : s.shared.monitor.IsFirst id
  top : ∀ w ∈ (s.stackOf 0).head?, w.isDue (·.1 == id) → w.IsPrompt id
  below : ∀ w ∈ (s.stackOf 0).tail, w.isDue (·.1 == id) = false

private theorem First.toldOneByOne (hs : s.First id) : s.ToldOneByOne id := by
  show ∑ t : Fin 1, ((s.stackOf t).map (MonitorWork.due (·.1 == id))).sum ≤ 1
  rw [Fin.sum_univ_one]
  have hbelow := hs.below
  cases hstack : s.stackOf 0 with
  | nil => exact Nat.zero_le 1
  | cons w rest =>
    rw [hstack] at hbelow
    have hrest : (rest.map (MonitorWork.due (·.1 == id))).sum = 0 := by
      apply List.sum_eq_zero
      intro x hx
      obtain ⟨v, hv, rfl⟩ := List.mem_map.mp hx
      rw [MonitorWork.due, hbelow v hv]
      rfl
    rw [List.map_cons, List.sum_cons, hrest]
    exact Bool.toNat_le _

private theorem First.step (hs : s.First id) (hm : m ≠ .drop id)
    (hstep : s.step? (monitorProgram recorder) t m = some s') : s'.First id := by
  have hkeeps := hs.keeps.step hm hstep
  obtain ⟨before, shared, after, rest, turn, hbefore, rfl⟩ := turn_of_step? hstep
  obtain rfl : t = 0 := Subsingleton.elim t 0
  have htop : ∀ w ∈ before, w.isDue (·.1 == id) → w.IsPrompt id := by
    intro w hw
    refine hs.top w ?_
    rw [hbefore, Option.mem_def.mp hw]
    rfl
  -- nothing below the innermost is on its way, and a listener that is being called has been told
  have hrest : ∀ w ∈ rest, w.isDue (·.1 == id) = false := by
    have hbelow := hs.below
    cases before with
    | some w => rwa [hbefore] at hbelow
    | none =>
      have hopen := isOpen_of_step? (by rintro rfl; cases turn) hstep
      have hinner := hs.top
      rw [hbefore] at hopen hbelow hinner
      match rest, hopen with
      | [], _ => exact nofun
      | .listening h ls :: rest, _ =>
        refine List.forall_mem_cons.mpr ⟨?_, hbelow⟩
        exact Bool.eq_false_iff.mpr (hinner _ rfl)
  have hafter : ∀ w ∈ after, w.isDue (·.1 == id) → w.IsPrompt id := by
    intro w hw hdue
    cases turn with
    | keep | drop _ | act _ | done _ | subscribe _ => cases hw
    | change h _ =>
      cases hw
      exact True.intro
    | join l =>
      cases hw
      cases hdue
    | lookUp h =>
      cases hw
      obtain ⟨l, others, hfirst⟩ := hs.first
      rw [hfirst]
      rfl
    | call h l ls =>
      cases hw
      have hl : l.1 = id := htop _ rfl (MonitorWork.isDue_telling hdue)
      subst hl
      have hnot := MonitorWork.isDue_listening h
        (hs.keeps.once 0 _ (Threads.mem_of_exchange hbefore rfl))
      rw [hdue] at hnot
      cases hnot
    | back h ls =>
      cases hw
      exact (htop _ rfl hdue).elim
  refine ⟨hkeeps, ?_, ?_, ?_⟩
  · cases turn with
    | change h _ => exact hs.first.transition h
    | drop other => exact hs.first.unsubscribe fun heq => hm (congrArg _ heq)
    | subscribe l => exact hs.first.subscribe l
    | _ => exact hs.first
  · rw [Threads.stackOf_set_self]
    cases after with
    | some w =>
      intro v hv
      cases hv
      exact hafter w rfl
    | none =>
      intro w hw hdue
      rw [hrest w (List.mem_of_mem_head? hw)] at hdue
      cases hdue
  · rw [Threads.stackOf_set_self]
    cases after with
    | some w => exact hrest
    | none => exact fun w hw => hrest w (List.mem_of_mem_tail hw)

/-- On one thread the first listener is told of every change before another one is made. -/
theorem toldOneByOne_of_isFirst {monitor : HealthMonitor ι} (hmonitor : monitor.Numbered)
    (hfirst : monitor.IsFirst id) {moves : List (Fin 1 × MonitorMove ι Empty)}
    (hkept : ∀ move ∈ moves, move.2 ≠ .drop id) :
    (idle 1 monitor []).Throughout (monitorProgram recorder) (ToldOneByOne id) moves := by
  have hidle : (idle 1 monitor []).First id :=
    ⟨(abreast_idle hmonitor hfirst.isSubscribed).keeps, hfirst, nofun, nofun⟩
  exact Threads.throughout_of_step? (fun _ hs => hs.toldOneByOne)
    (fun _ _ _ _ hmove hs hstep => hs.step (hkept _ hmove) hstep) hidle

end MonitorThreads

/-! ## Listeners with fixed reactions -/

namespace HealthBench

def log (b : HealthBench) : HealthLog := b.calls.map fun c => (c.id, c.passed)

def alone (b : HealthBench) (stack : List (MonitorWork HealthListener)) :
    MonitorThreads 1 HealthListener HealthLog :=
  ⟨⟨b.monitor, b.log⟩, fun _ => stack⟩

def Leads (b : HealthBench) (stack : List (MonitorWork HealthListener)) (b' : HealthBench)
    (stack' : List (MonitorWork HealthListener)) : Prop :=
  ∃ moves, (b.alone stack).play? (monitorProgram recorder) moves = some (b'.alone stack')

variable {b b₁ b' : HealthBench} {stack stack₁ stack' : List (MonitorWork HealthListener)}

theorem Leads.refl : b.Leads stack b stack := ⟨[], rfl⟩

theorem Leads.trans (h₁ : b.Leads stack b₁ stack₁) (h₂ : b₁.Leads stack₁ b' stack') :
    b.Leads stack b' stack' := by
  obtain ⟨moves₁, h₁⟩ := h₁
  obtain ⟨moves₂, h₂⟩ := h₂
  exact ⟨moves₁ ++ moves₂, by rw [Threads.play?_append, h₁]; exact h₂⟩

private theorem leads_of_monitorProgram {m : MonitorMove HealthListener Empty}
    (h : monitorProgram recorder ⟨b.monitor, b.log⟩ 0 stack m =
      some (⟨b'.monitor, b'.log⟩, stack')) :
    b.Leads stack b' stack' := by
  refine ⟨[(0, m)], ?_⟩
  have hset : (b.alone stack).set 0 ⟨b'.monitor, b'.log⟩ stack' = b'.alone stack' := by
    unfold Threads.set alone
    congr
    funext t
    rw [Subsingleton.elim t 0, Function.update_self]
  show ((b.alone stack).step? (monitorProgram recorder) 0 m).bind _ = _
  show (Option.map _ (monitorProgram recorder ⟨b.monitor, b.log⟩ 0 stack m)).bind _ = _
  rw [h, ← hset]
  rfl

private theorem leads_dropSubscription (hopen : MonitorWork.isOpen stack = true) (b : HealthBench)
    (name : String) : b.Leads stack (b.dropSubscription name) stack := by
  unfold dropSubscription
  split
  · exact .refl
  · next id _ =>
    refine leads_of_monitorProgram (m := .drop id) ?_
    show (if MonitorWork.isOpen stack then _ else none) = _
    rw [hopen]
    rfl

private theorem leads_use (hopen : MonitorWork.isOpen stack = true)
    {m : MonitorMove HealthListener Empty}
    (hm : m ≠ .proceed)
    (h : MonitorRoom.use recorder ⟨b.monitor, b.log⟩ stack m =
      some (⟨b'.monitor, b'.log⟩, stack')) :
    b.Leads stack b' stack' := by
  refine leads_of_monitorProgram (m := m) ?_
  unfold monitorProgram
  split
  · exact absurd rfl hm
  · rw [hopen]
    exact h

private theorem leads_subscribe (hopen : MonitorWork.isOpen stack = true) (b : HealthBench)
    (l : HealthListener) : b.Leads stack (b.subscribe l) stack := by
  have hread : b.Leads stack b (.joining l :: stack) := leads_use hopen (m := .join l) nofun rfl
  have hjoin :
      b.Leads (.joining l :: stack) { b with monitor := (b.monitor.subscribe l).2 } stack :=
    leads_of_monitorProgram (m := .proceed) rfl
  exact hread.trans (hjoin.trans (leads_dropSubscription hopen _ l.name))

private theorem leads_change (hopen : MonitorWork.isOpen stack = true) {next : HealthState}
    (hnew : b.monitor.state ≠ next) :
    b.Leads stack { b with monitor := (b.monitor.transition next).2 }
      (.telling next b.monitor.listeners :: stack) := by
  let changed : HealthBench := { b with monitor := (b.monitor.transition next).2 }
  have hset : b.Leads stack changed (.changed next :: stack) :=
    leads_use hopen (m := .set next) nofun (if_neg hnew)
  have hlook : changed.Leads (.changed next :: stack) changed
      (.telling next changed.monitor.listeners :: stack) :=
    leads_of_monitorProgram (m := .proceed) rfl
  rw [b.monitor.listeners_transition next] at hlook
  exact hset.trans hlook

private theorem leads_done (b : HealthBench) (next : HealthState) :
    b.Leads (.telling next [] :: stack) b stack :=
  leads_of_monitorProgram (m := .proceed) rfl

private theorem log_record (b : HealthBench) (id : Nat) (l : HealthListener)
    (passed : HealthState) :
    (b.record id l passed).log = b.log ++ [(id, passed)] := by
  simp [log, record]

def Interleaves (react : HealthBench → List HealthAction → Option HealthBench) : Prop :=
  ∀ b actions b' stack, MonitorWork.isOpen stack = true → react b actions = some b' →
    b.Leads stack b' stack

private theorem leads_tell {react : HealthBench → List HealthAction → Option HealthBench}
    (hreact : Interleaves react) {next : HealthState} {listeners : List (Nat × HealthListener)}
    (h : listeners.foldlM (fun b (id, l) => react (b.record id l next) (l.reaction next)) b =
      some b') :
    b.Leads (.telling next listeners :: stack) b' stack := by
  induction listeners generalizing b with
  | nil =>
    cases h
    exact leads_done _ next
  | cons l ls ih =>
    obtain ⟨id, l⟩ := l
    obtain ⟨b₁, hfirst, hrest⟩ := Option.bind_eq_some_iff.mp h
    have hcall : b.Leads (.telling next ((id, l) :: ls) :: stack) (b.record id l next)
        (.listening next ls :: stack) := by
      refine leads_of_monitorProgram (m := .proceed) ?_
      rw [log_record]
      rfl
    have hback : b₁.Leads (.listening next ls :: stack) b₁ (.telling next ls :: stack) :=
      leads_of_monitorProgram (m := .proceed) rfl
    exact hcall.trans ((hreact _ _ _ _ rfl hfirst).trans (hback.trans (ih hrest)))

private theorem interleaves_perform_of_lt {depth : Nat}
    (hbelow : ∀ d < depth, Interleaves (perform d)) :
    Interleaves (perform depth) := by
  intro b actions b' stack hopen h
  induction actions generalizing b with
  | nil =>
    rw [perform] at h
    cases h
    exact .refl
  | cons action rest ih =>
    cases action with
    | subscribe name onHealthy onUnhealthy =>
      rw [perform] at h
      exact (leads_subscribe hopen b _).trans (ih _ h)
    | drop name =>
      rw [perform] at h
      exact (leads_dropSubscription hopen b name).trans (ih _ h)
    | set next =>
      by_cases hsame : b.monitor.state = next
      · -- nobody is called
        subst hsame
        cases depth with
        | zero =>
          rw [perform, HealthMonitor.transition_same] at h
          exact ih _ h
        | succ d =>
          rw [perform, HealthMonitor.transition_same] at h
          exact ih _ h
      · obtain ⟨monitor, htransition⟩ : ∃ monitor,
            b.monitor.transition next = (b.monitor.listeners, monitor) := ⟨_, if_neg hsame⟩
        have hchange : b.Leads stack { b with monitor }
            (.telling next b.monitor.listeners :: stack) := by
          have hchange := leads_change hopen hsame
          rwa [htransition] at hchange
        cases depth with
        | zero =>
          rw [perform, htransition] at h
          split at h
          · next hnobody =>
            obtain ⟨hlisteners, rfl⟩ := Prod.mk.inj hnobody
            rw [hlisteners] at hchange
            exact hchange.trans ((leads_done _ next).trans (ih _ h))
          · cases h
        | succ d =>
          rw [perform, htransition] at h
          obtain ⟨b₁, htell, hrest⟩ := Option.bind_eq_some_iff.mp h
          exact hchange.trans
            ((leads_tell (hbelow d (Nat.lt_succ_self d)) htell).trans (ih _ hrest))

/-- Whatever listeners with fixed reactions do is an interleaving of one thread. -/
theorem interleaves_perform (depth : Nat) : Interleaves (perform depth) := by
  induction depth using Nat.strong_induction_on with
  | _ depth ih => exact interleaves_perform_of_lt ih

/-- A listener that changes the state back overtakes the change of which it is told. The listener
behind it hears of the changes in the wrong order, and the last state passed to it is not the
monitor's; or it hears of one state twice in a row. -/
theorem perform_overtakes :
    let bench (onHealthy onUnhealthy : List HealthAction) : HealthBench :=
      { monitor :=
          { listeners := [(0, ⟨"a", onHealthy, onUnhealthy⟩), (1, ⟨"b", [], []⟩)], nextId := 2 }
        subscriptions := [("a", 0), ("b", 1)] }
    ((bench [] [.set .healthy]).perform 2 [.set .unhealthy]).map
        (fun b => (b.log.toldTo 1, b.monitor.state)) =
      some ([.healthy, .unhealthy], .healthy) ∧
    ((bench [.set .unhealthy] []).perform 2 [.set .unhealthy, .set .healthy]).map
        (fun b => (b.log.toldTo 1, b.monitor.state)) =
      some ([.unhealthy, .unhealthy, .healthy], .unhealthy) := by
  constructor <;>
    simp [perform, HealthMonitor.transition, record, HealthListener.reaction, log,
      HealthLog.toldTo]

end HealthBench

end BrokerBridge
