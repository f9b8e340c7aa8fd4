import BrokerBridge.Proofs.Replay.Rejected

/-!
# Queues suspended on bad health

In books that are only changed by calls of their session, an open queue is suspended exactly when
its options ask for it and the host was last known to be unhealthy.
-/

namespace BrokerBridge

namespace QueueTable

theorem state_setSuspended_all {affected : List QueueHandle} {suspended : Bool} {t : QueueTable}
    {r : QueueHandle} (hr : r.id < t.states.length) :
    (affected.foldl (fun t q => t.setSuspended q suspended) t).state r =
      if r.id ∈ affected.map (·.id) then { t.state r with suspended } else t.state r := by
  induction affected generalizing t with
  | nil => rfl
  | cons q rest ih =>
    have hlength : r.id < (t.setSuspended q suspended).states.length := by
      rwa [setSuspended, length_modify]
    rw [List.foldl_cons, ih hlength]
    by_cases hq : q.id = r.id
    · rw [setSuspended, state_modify_of_eq hq hr]
      simp [hq]
    · rw [setSuspended, state_modify_of_ne hq]
      simp [Ne.symm hq]

end QueueTable

inductive LedgerCall where
  | start
  | stop
  | openQueue (uri : String) (flags : QueueFlags) (options : QueueOptions)
  | configureQueue (q : QueueHandle) (options : QueueOptions)
  | closeQueue (q : QueueHandle)
  | dropQueue (uri : String)
deriving DecidableEq, Repr

namespace Ledger

def perform (l : Ledger) : LedgerCall → Ledger
  | .start => l.start
  | .stop => l.stop
  | .openQueue uri flags options => (l.openQueue uri flags options).2
  | .configureQueue q options => (l.configureQueue q options).2
  | .closeQueue q => (l.closeQueue q).2
  | .dropQueue uri => l.dropQueue uri

private theorem update_perform (l : Ledger) (c : LedgerCall) :
    l.Update (l.perform c) ∨ ∃ started, l.perform c = { l with started } := by
  cases c with
  | start => exact .inr ⟨true, rfl⟩
  | stop => exact .inr ⟨false, rfl⟩
  | openQueue uri flags options => exact .inl (.openQueue uri flags options)
  | configureQueue q options => exact .inl (.configureQueue q options)
  | closeQueue q => exact .inl (.closeQueue q)
  | dropQueue uri => exact .inl (.dropQueue uri)

theorem health_setHealth (l : Ledger) (health : HealthState) :
    (l.setHealth health).2.health = health := by
  unfold setHealth
  split
  · assumption
  · rfl

def Heeds (l : Ledger) (q : QueueHandle) : Prop :=
  l.table.isSuspended q = l.wouldSuspend (l.table.options q)

instance (l : Ledger) (q : QueueHandle) : Decidable (l.Heeds q) :=
  inferInstanceAs (Decidable (_ = _))

private theorem Heeds.of_state {l l' : Ledger} {q : QueueHandle} (h : l.Heeds q)
    (hhealth : l'.health = l.health)
    (hstate : ∃ valid, l'.table.state q = { l.table.state q with valid }) : l'.Heeds q := by
  obtain ⟨valid, hstate⟩ := hstate
  unfold Heeds wouldSuspend QueueTable.isSuspended QueueTable.options at h ⊢
  rw [hstate, hhealth]
  exact h

private theorem heeds_of_flag {l : Ledger} {q : QueueHandle} {options : QueueOptions}
    (hoptions : l.table.options q = options)
    (hflag : l.table.isSuspended q = l.wouldSuspend options) : l.Heeds q := by
  rw [Heeds, hoptions, hflag]

private theorem state_invalidate {t : QueueTable} {q r : QueueHandle}
    (hr : r.id < t.states.length) :
    ∃ valid, (t.invalidate q).state r = { t.state r with valid } := by
  by_cases hq : q.id = r.id
  · exact ⟨false, QueueTable.state_modify_of_eq hq hr _⟩
  · exact ⟨_, QueueTable.state_modify_of_ne hq _⟩

def Distinct (l : Ledger) : Prop := (l.openQueues.map (·.id)).Nodup

/-! ## What calls do to the books -/

structure Retains (l l' : Ledger) : Prop where
  health : l'.health = l.health
  length : l.table.states.length ≤ l'.table.states.length
  state : ∀ q : QueueHandle, q.id < l.table.states.length →
    ∃ valid, l'.table.state q = { l.table.state q with valid }

theorem Retains.trans {l₁ l₂ l₃ : Ledger} (h₁ : l₁.Retains l₂) (h₂ : l₂.Retains l₃) :
    l₁.Retains l₃ where
  health := h₂.health.trans h₁.health
  length := Nat.le_trans h₁.length h₂.length
  state q hq := by
    obtain ⟨valid₂, hstate₂⟩ := h₁.state q hq
    obtain ⟨valid₃, hstate₃⟩ := h₂.state q (Nat.lt_of_lt_of_le hq h₁.length)
    exact ⟨valid₃, by rw [hstate₃, hstate₂]⟩

theorem Retains.of_table {l l' : Ledger} (hhealth : l'.health = l.health)
    (htable : l'.table = l.table) : l.Retains l' where
  health := hhealth
  length := Nat.le_of_eq (by rw [htable])
  state q _ := ⟨(l.table.state q).valid, by rw [htable]⟩

structure Thins (l l' : Ledger) : Prop extends Retains l l' where
  openQueues : l'.openQueues.Sublist l.openQueues

theorem thins_refl (l : Ledger) : l.Thins l := ⟨.of_table rfl rfl, .refl _⟩

theorem Thins.trans {l₁ l₂ l₃ : Ledger} (h₁ : l₁.Thins l₂) (h₂ : l₂.Thins l₃) : l₁.Thins l₃ :=
  ⟨h₁.toRetains.trans h₂.toRetains, h₂.openQueues.trans h₁.openQueues⟩

/-- Queues are opened and closed at most. A new one has a new place, and is suspended as its
options ask. -/
structure Grows (l l' : Ledger) : Prop extends Retains l l' where
  openQueues : ∀ q ∈ l'.openQueues, q ∈ l.openQueues ∨
    l.table.states.length ≤ q.id ∧ q.id < l'.table.states.length ∧ l'.Heeds q
  distinct : l.Known → l.Distinct → l'.Distinct

theorem Retains.heeds {l l' : Ledger} (h : l.Retains l') {q : QueueHandle}
    (hq : q.id < l.table.states.length) (hheeds : l.Heeds q) : l'.Heeds q :=
  hheeds.of_state h.health (h.state q hq)

theorem Grows.known {l l' : Ledger} (h : l.Grows l') (hl : l.Known) : l'.Known := by
  intro q hq
  rcases h.openQueues q hq with hopen | ⟨_, hlt, _⟩
  · exact Nat.lt_of_lt_of_le (hl q hopen) h.length
  · exact hlt

theorem Grows.trans {l₁ l₂ l₃ : Ledger} (h₁ : l₁.Grows l₂) (h₂ : l₂.Grows l₃) : l₁.Grows l₃ where
  toRetains := h₁.toRetains.trans h₂.toRetains
  openQueues q hq := by
    rcases h₂.openQueues q hq with hq | ⟨hnew, hlt, hheeds⟩
    · rcases h₁.openQueues q hq with hq | ⟨hnew, hlt, hheeds⟩
      · exact .inl hq
      · exact .inr ⟨hnew, Nat.lt_of_lt_of_le hlt h₂.length, h₂.heeds hlt hheeds⟩
    · exact .inr ⟨Nat.le_trans h₁.length hnew, hlt, hheeds⟩
  distinct hknown hdistinct := h₂.distinct (h₁.known hknown) (h₁.distinct hknown hdistinct)

theorem Thins.grows {l l' : Ledger} (h : l.Thins l') : l.Grows l' where
  toRetains := h.toRetains
  openQueues _ hq := .inl (h.openQueues.subset hq)
  distinct _ hdistinct := hdistinct.sublist (h.openQueues.map _)

theorem Retains.options {l l' : Ledger} (h : l.Retains l') {q : QueueHandle}
    (hq : q.id < l.table.states.length) : l'.table.options q = l.table.options q := by
  obtain ⟨valid, hstate⟩ := h.state q hq
  rw [QueueTable.options, hstate]
  rfl

theorem retains_invalidate {l : Ledger} (q : QueueHandle) (uri : String) :
    l.Retains (remove { l with table := l.table.invalidate q } uri) where
  health := rfl
  length := Nat.le_of_eq (QueueTable.length_modify ..).symm
  state _ hr := state_invalidate hr

theorem thins_closeQueue (l : Ledger) (q : QueueHandle) : l.Thins (l.closeQueue q).2 := by
  unfold closeQueue
  split
  · exact ⟨retains_invalidate q q.uri, List.filter_sublist⟩
  · exact l.thins_refl

theorem thins_dropQueue (l : Ledger) (uri : String) : l.Thins (l.dropQueue uri) := by
  unfold dropQueue
  split
  · exact ⟨retains_invalidate _ uri, List.filter_sublist⟩
  · exact l.thins_refl

theorem grows_openQueue (l : Ledger) (uri : String) (flags : QueueFlags) (options : QueueOptions) :
    l.Grows (l.openQueue uri flags options).2 := by
  cases hold : l.queue? uri with
  | some existing =>
    rw [openQueue, hold]
    exact l.thins_refl.grows
  | none =>
  let q := (l.table.create uri flags options).1
  let t := (l.table.create uri flags options).2
  have hq : q.id < t.states.length := by
    rw [QueueTable.length_create]
    exact Nat.lt_succ_self _
  have hlength : (t.setSuspended q (l.wouldSuspend options)).states.length =
      l.table.states.length + 1 := by
    simp [QueueTable.setSuspended, t]
  rw [openQueue, hold]
  constructor
  case toRetains =>
    refine ⟨rfl, ?_, fun r hr => ⟨(l.table.state r).valid, ?_⟩⟩
    · show l.table.states.length ≤ (t.setSuspended q (l.wouldSuspend options)).states.length
      omega
    · show (t.setSuspended q (l.wouldSuspend options)).state r = l.table.state r
      rw [QueueTable.setSuspended, QueueTable.state_modify_of_ne (Nat.ne_of_gt hr),
        QueueTable.state_create_of_lt hr]
  case openQueues =>
    intro r hr
    -- the place of the new queue comes after those of all open ones
    rcases List.mem_append.mp hr with hr | hr
    · exact .inl hr
    rw [List.mem_singleton.mp hr]
    refine .inr ⟨Nat.le_refl _, ?_, ?_⟩
    · show l.table.states.length < (t.setSuspended q (l.wouldSuspend options)).states.length
      omega
    · have hstate : (t.setSuspended q (l.wouldSuspend options)).state q =
          { options, suspended := l.wouldSuspend options } := by
        rw [QueueTable.setSuspended, QueueTable.state_modify hq, QueueTable.state_create]
      exact heeds_of_flag (congrArg QueueState.options hstate)
        (congrArg QueueState.suspended hstate)
  case distinct =>
    intro hknown hdistinct
    show ((l.openQueues ++ [q]).map (·.id)).Nodup
    rw [List.map_append]
    refine List.nodup_append.mpr ⟨hdistinct, List.pairwise_singleton .., ?_⟩
    intro i hi j hj hij
    obtain ⟨r, hr, hid⟩ := List.mem_map.mp hi
    have hlt := hknown r hr
    rw [hid, hij, List.mem_singleton.mp hj] at hlt
    exact Nat.lt_irrefl _ hlt

/-- The handle of an open queue, or one of the same identity. -/
theorem open_of_isCurrent {l : Ledger} {q : QueueHandle} (h : l.isCurrent q = true) :
    ∃ r ∈ l.openQueues, r.uri = q.uri ∧ r.id = q.id := by
  unfold isCurrent at h
  split at h
  · next r hr =>
    exact ⟨r, mem_of_queue? hr, uri_of_queue? hr, eq_of_beq h⟩
  · cases h

/-- A queue that is configured is suspended as its options ask; no other one is touched. -/
theorem state_configureQueue {l : Ledger} {q r : QueueHandle} (hcurrent : l.isCurrent q = true)
    (hr : r.id < l.table.states.length) (options : QueueOptions) :
    (l.configureQueue q options).2.table.state r =
      if q.id = r.id then
        { l.table.state r with options, suspended := l.wouldSuspend options }
      else l.table.state r := by
  rw [configureQueue, if_pos hcurrent]
  show ((l.table.setOptions q options).setSuspended q (l.wouldSuspend options)).state r = _
  split
  · next hq =>
    rw [QueueTable.setSuspended,
      QueueTable.state_modify_of_eq hq (by simpa [QueueTable.setOptions]), QueueTable.setOptions,
      QueueTable.state_modify_of_eq hq hr]
  · next hq =>
    rw [QueueTable.setSuspended, QueueTable.state_modify_of_ne hq, QueueTable.setOptions,
      QueueTable.state_modify_of_ne hq]

theorem health_configureQueue (l : Ledger) (q : QueueHandle) (options : QueueOptions) :
    (l.configureQueue q options).2.health = l.health := by
  unfold configureQueue
  split <;> rfl

theorem length_configureQueue (l : Ledger) (q : QueueHandle) (options : QueueOptions) :
    (l.configureQueue q options).2.table.states.length = l.table.states.length := by
  unfold configureQueue
  split <;> simp [QueueTable.setSuspended, QueueTable.setOptions]

theorem openQueues_configureQueue (l : Ledger) (q : QueueHandle) (options : QueueOptions) :
    (l.configureQueue q options).2.openQueues = l.openQueues := by
  unfold configureQueue
  split <;> rfl

theorem heeds_configureQueue {l : Ledger} {q r : QueueHandle} (hcurrent : l.isCurrent q = true)
    (hr : r.id < l.table.states.length) (hq : q.id = r.id) (options : QueueOptions) :
    (l.configureQueue q options).2.Heeds r := by
  have hstate := state_configureQueue hcurrent hr options
  rw [if_pos hq] at hstate
  show (QueueTable.state _ r).suspended =
    ((QueueTable.state _ r).options.suspendsOnBadHostHealth && _)
  rw [hstate, l.health_configureQueue q options]
  rfl

/-! ## Books changed by calls only -/

theorem health_perform (l : Ledger) (c : LedgerCall) : (l.perform c).health = l.health := by
  cases c with
  | start | stop => rfl
  | openQueue uri flags options => exact (l.grows_openQueue uri flags options).health
  | configureQueue q options => exact l.health_configureQueue q options
  | closeQueue q => exact (l.thins_closeQueue q).health
  | dropQueue uri => exact (l.thins_dropQueue uri).health

structure Heedful (l : Ledger) : Prop where
  known : l.Known
  heeds : ∀ q ∈ l.openQueues, l.Heeds q

theorem heedful_empty : ({} : Ledger).Heedful := ⟨nofun, nofun⟩

theorem Heedful.heeds_grows {l l' : Ledger} (h : l.Heedful) (hgrows : l.Grows l') :
    ∀ q ∈ l'.openQueues, l'.Heeds q := by
  intro q hq
  rcases hgrows.openQueues q hq with hopen | ⟨_, _, hheeds⟩
  · exact hgrows.heeds (h.known q hopen) (h.heeds q hopen)
  · exact hheeds

private theorem Heedful.heeds_configureQueue {l : Ledger} (h : l.Heedful) (q : QueueHandle)
    (options : QueueOptions) :
    ∀ r ∈ (l.configureQueue q options).2.openQueues, (l.configureQueue q options).2.Heeds r := by
  rw [openQueues_configureQueue]
  intro r hopen
  by_cases hcurrent : l.isCurrent q = true
  case neg =>
    rw [configureQueue, if_neg hcurrent]
    exact h.heeds r hopen
  by_cases hq : q.id = r.id
  · exact Ledger.heeds_configureQueue hcurrent (h.known r hopen) hq options
  · have hstate := state_configureQueue hcurrent (h.known r hopen) options
    rw [if_neg hq] at hstate
    exact (h.heeds r hopen).of_state (l.health_configureQueue q options) ⟨_, hstate⟩

theorem Heedful.perform {l : Ledger} (h : l.Heedful) (c : LedgerCall) : (l.perform c).Heedful := by
  have hknown : (l.perform c).Known := by
    rcases l.update_perform c with hupdate | ⟨started, heq⟩
    · exact h.known.update hupdate
    · rw [heq]
      exact h.known
  refine ⟨hknown, ?_⟩
  cases c with
  | start | stop => exact h.heeds
  | openQueue uri flags options => exact h.heeds_grows (l.grows_openQueue uri flags options)
  | configureQueue q options => exact h.heeds_configureQueue q options
  | closeQueue q => exact h.heeds_grows (l.thins_closeQueue q).grows
  | dropQueue uri => exact h.heeds_grows (l.thins_dropQueue uri).grows

/-- Those whose options ask for it are suspended while the host is unhealthy, and no others. -/
theorem state_setHealth {l : Ledger} (hknown : l.Known) {health : HealthState}
    (hnew : l.health ≠ health) {r : QueueHandle} (hopen : r ∈ l.openQueues) :
    (l.setHealth health).2.table.state r =
      if (l.table.options r).suspendsOnBadHostHealth then
        { l.table.state r with suspended := !health.isHealthy }
      else l.table.state r := by
  have haffected : r.id ∈ (l.openQueues.filter fun q =>
      (l.table.options q).suspendsOnBadHostHealth).map (·.id) ↔
        (l.table.options r).suspendsOnBadHostHealth = true := by
    rw [List.mem_map]
    constructor
    · rintro ⟨q, hq, hid⟩
      have hsame : l.table.options q = l.table.options r := by
        simp only [QueueTable.options, QueueTable.state, hid]
      rw [← hsame]
      exact (List.mem_filter.mp hq).2
    · intro hasks
      exact ⟨r, List.mem_filter.mpr ⟨hopen, hasks⟩, rfl⟩
  rw [setHealth, if_neg hnew]
  show (List.foldl _ l.table _).state r = _
  rw [QueueTable.state_setSuspended_all (hknown r hopen)]
  simp only [haffected]

theorem openQueues_setHealth (l : Ledger) (health : HealthState) :
    (l.setHealth health).2.openQueues = l.openQueues := by
  unfold setHealth
  split <;> rfl

theorem length_setHealth (l : Ledger) (health : HealthState) :
    (l.setHealth health).2.table.states.length = l.table.states.length := by
  unfold setHealth
  split
  · rfl
  · exact length_setSuspended_all _ _ _

theorem heeds_setHealth {l : Ledger} (hknown : l.Known) (health : HealthState) {r : QueueHandle}
    (hopen : r ∈ l.openQueues) (h : l.Heeds r) : (l.setHealth health).2.Heeds r := by
  by_cases hnew : l.health = health
  · rw [setHealth, if_pos hnew]
    exact h
  have hstate := state_setHealth hknown hnew hopen
  cases hasks : (l.table.options r).suspendsOnBadHostHealth with
  | true =>
    rw [hasks, if_pos rfl] at hstate
    refine heeds_of_flag (congrArg QueueState.options hstate) ?_
    rw [QueueTable.isSuspended, hstate, wouldSuspend, health_setHealth]
    show _ = ((l.table.options r).suspendsOnBadHostHealth && _)
    rw [hasks, Bool.true_and]
  | false =>
    rw [hasks, if_neg Bool.false_ne_true] at hstate
    rw [Heeds, wouldSuspend, hasks, Bool.false_and] at h
    refine heeds_of_flag (congrArg QueueState.options hstate) ?_
    rw [QueueTable.isSuspended, hstate, wouldSuspend]
    show l.table.isSuspended r = ((l.table.options r).suspendsOnBadHostHealth && _)
    rw [hasks, Bool.false_and, h]

theorem Heedful.setHealth {l : Ledger} (h : l.Heedful) (health : HealthState) :
    (l.setHealth health).2.Heedful := by
  refine ⟨h.known.update (.setHealth health), fun r hr => ?_⟩
  rw [openQueues_setHealth] at hr
  exact heeds_setHealth h.known health hr (h.heeds r hr)

end Ledger

end BrokerBridge
