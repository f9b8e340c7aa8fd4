import BrokerBridge.Proofs.Concurrency.Rounds

/-!
# Dropped subscriptions

Nobody who looks up the listeners of a monitor finds one whose subscription has been dropped. A
round that had found it before still calls it, once, unless it never gets so far.
-/

namespace BrokerBridge

variable {ι α β : Type} {n : Nat}

namespace HealthMonitor

variable {m : HealthMonitor ι} {id : Nat}

structure Gone (m : HealthMonitor ι) (id : Nat) : Prop where
  given : id < m.nextId
  unheard : ∀ l ∈ m.listeners, l.1 ≠ id

private theorem gone_unsubscribe (h : id < m.nextId) : (m.unsubscribe id).Gone id where
  given := h
  unheard := by simp [unsubscribe]

private theorem Gone.countP_listeners (h : m.Gone id) : m.listeners.countP (·.1 = id) = 0 := by
  simpa [List.countP_eq_zero] using h.unheard

end HealthMonitor

/-- How often a round that tells of a state has yet to call a listener. -/
def MonitorWork.owed (id : Nat) (h : HealthState) (w : MonitorWork ι) : Nat :=
  if w.news? = some h then w.pending.countP (·.1 = id) else 0

namespace MonitorWork

variable (id : Nat) (h state : HealthState) (l : Nat × ι) (ls : List (Nat × ι))

@[simp] theorem owed_changed : (changed h : MonitorWork ι).owed id state = 0 := by
  simp [owed, pending]

@[simp] theorem owed_joining (l : ι) : (joining l).owed id state = 0 := rfl

private theorem owed_telling :
    (telling h ls).owed id state = if h = state then ls.countP (·.1 = id) else 0 := by
  simp [owed, pending, news?]

@[simp] theorem owed_listening : (listening h ls).owed id state = (telling h ls).owed id state :=
  rfl

theorem owed_telling_cons :
    (telling h (l :: ls)).owed id state =
      (if l.1 = id ∧ h = state then 1 else 0) + (telling h ls).owed id state := by
  by_cases hstate : h = state <;> by_cases hl : l.1 = id <;>
    simp [owed_telling, hstate, hl, Nat.add_comm]

end MonitorWork

private theorem MonitorWork.owed_le_one {w : MonitorWork ι} (h : (w.pending.map Prod.fst).Nodup)
    (id : Nat) (state : HealthState) : w.owed id state ≤ 1 := by
  have hcount := List.nodup_iff_count_le_one.mp h id
  rw [List.count_eq_countP, List.countP_map] at hcount
  unfold owed
  split
  · exact (List.countP_congr fun l _ => by simp).trans_le hcount
  · exact Nat.zero_le 1

private theorem HealthLog.toldTo_append_calls (log : HealthLog) (cs : List (ListenerCall n))
    (id : Nat) :
    HealthLog.toldTo (log ++ cs.map fun c => (c.id, c.state)) id =
      log.toldTo id ++ (cs.filter (·.id = id)).map (·.state) := by
  induction cs generalizing log with
  | nil => simp [toldTo]
  | cons c cs ih =>
    rw [List.map_cons, List.append_cons, ih]
    by_cases hc : c.id = id
    · subst hc
      simp
    · simp [toldTo_append_of_ne _ _ hc, hc]

namespace MonitorThreads

variable {aud : Audience ι α β} {s s' : MonitorThreads n ι β} {t u : Fin n} {m : MonitorMove ι α}
  {moves : List (Fin n × MonitorMove ι α)} {id : Nat} {c : ListenerCall n}

private theorem gone_of_step? (hs : s.shared.monitor.Gone id)
    (h : s.step? (monitorProgram aud) t m = some s') : s'.shared.monitor.Gone id := by
  rcases registers_of_step? h with ⟨_, hnext, hlisteners⟩ | ⟨l, _, _, hmonitor⟩
  · refine ⟨by rw [hnext]; exact hs.given, fun l hl => ?_⟩
    rw [hlisteners] at hl
    exact hs.unheard l (List.mem_filter.mp hl).1
  · rw [hmonitor]
    refine ⟨Nat.lt_succ_of_lt hs.given, fun other hother => ?_⟩
    rcases List.mem_append.mp hother with hold | hnew
    · exact hs.unheard other hold
    · rw [List.mem_singleton.mp hnew]
      exact Nat.ne_of_gt hs.given

private theorem callsOnce_of_play? {books : β}
    (h : (idle n {} books).play? (monitorProgram aud) moves = some s) : s.CallsOnce := by
  have hidle : (idle n ({} : HealthMonitor ι) books).shared.monitor.Ranked ∧
      (idle n ({} : HealthMonitor ι) books).CallsOnce := ⟨HealthMonitor.ranked_new, nofun⟩
  have hkept : s.shared.monitor.Ranked ∧ s.CallsOnce :=
    Threads.play?_induction
      (P := fun s : MonitorThreads n ι β => s.shared.monitor.Ranked ∧ s.CallsOnce)
      (fun _ _ _ _ _ hs hstep =>
        ⟨ranked_of_step? hs.1 hstep, hs.2.step hs.1.numbered hstep⟩) hidle h
  exact hkept.2

/-- How often a call is still to be made by the round that is at its place. -/
def owed (s : MonitorThreads n ι β) (c : ListenerCall n) : Nat :=
  (s.placed c.thread c.depth).elim 0 (MonitorWork.owed c.id c.state)

private theorem owed_le_one (hs : s.CallsOnce) (c : ListenerCall n) : s.owed c ≤ 1 := by
  unfold owed
  cases h : s.placed c.thread c.depth with
  | none => exact Nat.zero_le 1
  | some w => exact MonitorWork.owed_le_one (hs _ w (Threads.mem_of_placed h)) c.id c.state

private theorem owed_of_atRest (hs : s.AtRest) (c : ListenerCall n) : s.owed c = 0 := by
  simp [owed, Threads.placed, hs c.thread]

/-- A call of a listener that is gone is one of those that are still to be made, and no more such
come up. -/
theorem count_callOf_add_owed (hgone : s.shared.monitor.Gone c.id)
    (h : s.step? (monitorProgram aud) u m = some s') :
    (s.callOf u m).toList.count c + s'.owed c = s.owed c := by
  have hnone := hgone.countP_listeners
  obtain ⟨t, depth, id, state⟩ := c
  rcases turn_at_or_elsewhere h t depth with ⟨rfl, turn, hcall⟩ | ⟨hsame, helsewhere⟩
  · rw [hcall, owed, owed]
    generalize s.placed _ _ = before at turn ⊢
    generalize s'.placed _ _ = after at turn ⊢
    generalize s'.shared = shared at turn
    cases turn with
    | call news l ls =>
      rw [Option.elim_some, Option.elim_some, MonitorWork.owed_telling_cons]
      by_cases hl : l.1 = id ∧ news = state <;> simp [MonitorWork.nextCall?, hl]
    | lookUp news => simp [MonitorWork.nextCall?, MonitorWork.owed_telling, hnone]
    | done news => simp [MonitorWork.nextCall?, MonitorWork.owed_telling]
    | _ => simp [MonitorWork.nextCall?]
  · have hother : ⟨t, depth, id, state⟩ ∉ (s.callOf u m).toList :=
      fun hc => helsewhere _ (Option.mem_toList.mp hc) ⟨rfl, rfl⟩
    rw [owed, owed, hsame, List.count_eq_zero.mpr hother, Nat.zero_add]

private theorem count_calls_add_owed (hgone : s.shared.monitor.Gone c.id)
    (h : s.play? (monitorProgram aud) moves = some s') :
    (s.calls aud moves).count c + s'.owed c = s.owed c := by
  induction moves generalizing s with
  | nil =>
    cases h
    simp [calls, Threads.collect]
  | cons move rest ih =>
    obtain ⟨t, m⟩ := move
    obtain ⟨s₁, hstep, hrest⟩ := Option.bind_eq_some_iff.mp h
    have hfirst := count_callOf_add_owed hgone hstep
    have hlater := ih (gone_of_step? hgone hstep) hrest
    rw [calls_cons hstep, List.count_append]
    omega

/-- A listener whose subscription has been dropped is called only by rounds that had looked up the
listeners before and had not come to it, by each of these once at most, and once if they all come to
their ends; if there are none, it is never called again. -/
theorem dropped_called_by_rounds_under_way {s s₁ s₂ : MonitorThreads n ι HealthLog} {t : Fin n}
    {before after : List (Fin n × MonitorMove ι Empty)}
    (hbefore : (idle n {} []).play? (monitorProgram recorder) before = some s)
    (hid : id < s.shared.monitor.nextId)
    (hdrop : s.step? (monitorProgram recorder) t (.drop id) = some s₁)
    (hafter : s₁.play? (monitorProgram recorder) after = some s₂) :
    s₂.shared.books.toldTo id = s.shared.books.toldTo id ++
        ((s₁.calls recorder after).filter (·.id = id)).map (·.state) ∧
      (∀ c : ListenerCall n, c.id = id →
        s.owed c ≤ 1 ∧ (s₁.calls recorder after).count c ≤ s.owed c ∧
          (s₂.AtRest → (s₁.calls recorder after).count c = s.owed c)) ∧
      ((∀ c : ListenerCall n, c.id = id → s.owed c = 0) →
        s₂.shared.books.toldTo id = s.shared.books.toldTo id) := by
  have honce : s.CallsOnce := callsOnce_of_play? hbefore
  obtain ⟨hbooks, howed, hgone⟩ : s₁.shared.books = s.shared.books ∧
      (∀ c : ListenerCall n, s₁.owed c = s.owed c) ∧ s₁.shared.monitor.Gone id := by
    obtain ⟨_, shared, _, rest, turn, hstack, rfl⟩ := turn_of_step? hdrop
    cases turn
    have hsame : (none : Option (MonitorWork ι)).toList ++ rest = s.stackOf t := hstack.symm
    rw [hsame, Threads.set_stackOf]
    exact ⟨rfl, fun _ => rfl, HealthMonitor.gone_unsubscribe hid⟩
  have htold : s₂.shared.books.toldTo id = s.shared.books.toldTo id ++
      ((s₁.calls recorder after).filter (·.id = id)).map (·.state) := by
    rw [log_of_play? hafter, HealthLog.toldTo_append_calls, hbooks]
  have hcounts : ∀ c : ListenerCall n, c.id = id →
      (s₁.calls recorder after).count c + s₂.owed c = s.owed c := by
    rintro c rfl
    rw [count_calls_add_owed hgone hafter, howed]
  refine ⟨htold, fun c hc => ⟨owed_le_one honce c, ?_, fun hrest => ?_⟩, fun hnone => ?_⟩
  · have := hcounts c hc
    omega
  · rw [← hcounts c hc, owed_of_atRest hrest, Nat.add_zero]
  · have hnobody : (s₁.calls recorder after).filter (·.id = id) = [] := by
      rw [List.filter_eq_nil_iff]
      intro c hc hcid
      have hcount := hcounts c (of_decide_eq_true hcid)
      have hpos := List.count_pos_iff.mpr hc
      have hzero := hnone c (of_decide_eq_true hcid)
      omega
    rw [htold, hnobody]
    simp

/-- The first listener drops the second one's subscription from inside its own call. The second one
is called once more, and not of the next change. -/
theorem dropped_called_by_rounds_under_way_nested :
    let proceeds (k : Nat) := List.replicate k ((0 : Fin 1), (.proceed : MonitorMove Unit Empty))
    let subscribed : List (Fin 1 × MonitorMove Unit Empty) :=
      [(0, .join ()), (0, .proceed), (0, .join ()), (0, .proceed)]
    let before := subscribed ++ (0, .set .unhealthy) :: proceeds 2
    let after := proceeds 4 ++ (0, .set .healthy) :: proceeds 4
    ∃ s s₁ s₂ : MonitorThreads 1 Unit HealthLog,
      (idle 1 {} []).play? (monitorProgram recorder) before = some s ∧
      1 < s.shared.monitor.nextId ∧
      s.step? (monitorProgram recorder) 0 (.drop 1) = some s₁ ∧
      s₁.play? (monitorProgram recorder) after = some s₂ ∧ s₂.AtRest ∧
      s.owed ⟨0, 0, 1, .unhealthy⟩ = 1 ∧ (s₁.calls recorder after).count ⟨0, 0, 1, .unhealthy⟩ = 1 ∧
      s₂.shared.books.toldTo 0 = [.unhealthy, .healthy] ∧
      s₂.shared.books.toldTo 1 = [.unhealthy] := by
  intro proceeds subscribed before after
  obtain ⟨s, s₁, s₂, hs, hid, hs₁, hs₂, hrest, howed, hfirst, hsecond⟩ :
      ∃ s s₁ s₂ : MonitorThreads 1 Unit HealthLog,
        (idle 1 {} []).play? (monitorProgram recorder) before = some s ∧
        1 < s.shared.monitor.nextId ∧
        s.step? (monitorProgram recorder) 0 (.drop 1) = some s₁ ∧
        s₁.play? (monitorProgram recorder) after = some s₂ ∧ s₂.AtRest ∧
        s.owed ⟨0, 0, 1, .unhealthy⟩ = 1 ∧ s₂.shared.books.toldTo 0 = [.unhealthy, .healthy] ∧
        s₂.shared.books.toldTo 1 = [.unhealthy] :=
    ⟨_, _, _, rfl, by decide, rfl, rfl, by decide +kernel, by decide +kernel, rfl, rfl⟩
  have hcounts := (dropped_called_by_rounds_under_way hs hid hs₁ hs₂).2.1
  have hcount := (hcounts ⟨0, 0, 1, .unhealthy⟩ rfl).2.2 hrest
  exact ⟨s, s₁, s₂, hs, hid, hs₁, hs₂, hrest, howed, hcount.trans howed, hfirst, hsecond⟩

/-- Dropping a subscription does not silence its listener at once: a round that has looked up the
listeners calls it afterwards, be it among the moves of a thread or with listeners of which the
first one drops the second. -/
theorem called_once_dropped :
    (¬∀ (before after : List (Fin 1 × MonitorMove Unit Empty)) (id : Nat)
        (s s₁ s₂ : MonitorThreads 1 Unit HealthLog),
      (idle 1 {} []).play? (monitorProgram recorder) before = some s →
      id < s.shared.monitor.nextId →
      s.step? (monitorProgram recorder) 0 (.drop id) = some s₁ →
      s₁.play? (monitorProgram recorder) after = some s₂ →
      s₂.shared.books.toldTo id = s₁.shared.books.toldTo id) ∧
    ((({} : HealthBench).perform 1
        [.subscribe "a" [] [.drop "b"], .subscribe "b" [] [], .set .unhealthy]).map
      fun b => (b.log, b.monitor.listeners.map Prod.fst)) =
        some ([(0, .unhealthy), (1, .unhealthy)], [0]) := by
  constructor
  · intro hsilent
    have hsame := hsilent
      [(0, .join ()), (0, .proceed), (0, .join ()), (0, .proceed), (0, .set .unhealthy),
        (0, .proceed), (0, .proceed)]
      [(0, .proceed), (0, .proceed)] 1 _ _ _ rfl (by decide) rfl rfl
    exact absurd hsame (by decide +kernel)
  · simp [HealthBench.perform, HealthMonitor.transition, HealthMonitor.subscribe,
      HealthBench.subscribe, HealthBench.dropSubscription, HealthMonitor.unsubscribe,
      HealthBench.record, HealthListener.reaction, HealthBench.log, List.lookup_cons]

end MonitorThreads

end BrokerBridge
