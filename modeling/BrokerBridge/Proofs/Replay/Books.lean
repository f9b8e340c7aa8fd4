import BrokerBridge.Proofs.Replay.Suspension
import Mathlib.Data.List.Nodup

/-!
# The books over their history

Whatever is asked of the books, with handles of any kind, a handle that a queue was opened under
stays valid for as long as it is the one its address is open under. The flag of an open queue
follows its options and the health of the host all the while.
-/

namespace BrokerBridge

inductive LedgerUse where
  | call (call : LedgerCall)
  | setHealth (health : HealthState)
  | confirm (q : QueueHandle)
  /-- A handle is made elsewhere. -/
  | foreignQueue (uri : String) (flags : QueueFlags) (options : QueueOptions)
  | post (event : MessageEvent)
  | takePosted
  | enqueue (event : NativeEvent)
  | takePending

structure LedgerHistory where
  ledger : Ledger := {}
  /-- The handles that queues were opened under, in the order of their opening. -/
  opened : List QueueHandle := []
  /-- The handles made elsewhere. -/
  foreign : List QueueHandle := []

namespace LedgerHistory

def openedBy (l : Ledger) : LedgerCall → List QueueHandle
  | .openQueue uri flags options =>
      let status := (l.openQueue uri flags options).1
      if status.code = Code.success then status.queue.toList else []
  | _ => []

def use (h : LedgerHistory) : LedgerUse → LedgerHistory
  | .call c => { h with
      ledger := h.ledger.perform c
      opened := h.opened ++ openedBy h.ledger c }
  | .setHealth health => { h with ledger := (h.ledger.setHealth health).2 }
  | .confirm _ => h
  | .foreignQueue uri flags options =>
      let (q, ledger) := h.ledger.foreignQueue uri flags options
      { h with ledger, foreign := h.foreign ++ [q] }
  | .post event => { h with ledger := h.ledger.post event }
  | .takePosted => { h with ledger := h.ledger.takePosted.2 }
  | .enqueue event => { h with ledger := h.ledger.enqueue event }
  | .takePending => { h with ledger := h.ledger.takePending.2 }

def after (uses : List LedgerUse) : LedgerHistory := uses.foldl use {}

private theorem after_induction {P : LedgerHistory → Prop} (hempty : P {})
    (huse : ∀ h u, P h → P (h.use u)) (uses : List LedgerUse) : P (after uses) := by
  suffices hfold : ∀ h, P h → P (uses.foldl use h) from hfold {} hempty
  induction uses with
  | nil => exact fun _ h => h
  | cons u rest ih => exact fun h hh => ih _ (huse h u hh)

end LedgerHistory

namespace Ledger

/-! ## Suspended queues -/

private theorem grows_foreignQueue (l : Ledger) (uri : String) (flags : QueueFlags)
    (options : QueueOptions) : l.Grows (l.foreignQueue uri flags options).2 where
  health := rfl
  length := by simp [foreignQueue]
  state q hq :=
    ⟨(l.table.state q).valid, QueueTable.state_create_of_lt hq uri flags options⟩
  openQueues _ hq := .inl hq
  distinct _ hdistinct := hdistinct

private theorem Heedful.use {h : LedgerHistory} (hh : h.ledger.Heedful) (u : LedgerUse) :
    (h.use u).ledger.Heedful := by
  cases u with
  | call c => exact hh.perform c
  | setHealth health => exact hh.setHealth health
  | foreignQueue uri flags options =>
    have hgrows := h.ledger.grows_foreignQueue uri flags options
    exact ⟨hgrows.known hh.known, hh.heeds_grows hgrows⟩
  | confirm | post | takePosted | enqueue | takePending => exact ⟨hh.known, hh.heeds⟩

/-- While queues heed their options, those that ask for it are those whose flag a new health
changes. -/
theorem Heedful.affected_eq {l : Ledger} (h : l.Heedful) (health : HealthState) :
    (l.setHealth health).1 = l.openQueues.filter fun q =>
      (l.setHealth health).2.table.isSuspended q != l.table.isSuspended q := by
  by_cases hnew : l.health = health
  · rw [Ledger.setHealth, if_pos hnew]
    simp
  have haffected : (l.setHealth health).1 =
      l.openQueues.filter fun q => (l.table.options q).suspendsOnBadHostHealth := by
    rw [Ledger.setHealth, if_neg hnew]
  rw [haffected]
  refine List.filter_congr fun q hq => ?_
  have hbefore := h.heeds q hq
  rw [Heeds, wouldSuspend] at hbefore
  have hafter : (l.setHealth health).2.table.isSuspended q = _ :=
    congrArg QueueState.suspended (state_setHealth h.known hnew hq)
  cases hasks : (l.table.options q).suspendsOnBadHostHealth with
  | false =>
    rw [hafter, hasks, if_neg Bool.false_ne_true, QueueTable.isSuspended, bne_self_eq_false]
  | true =>
    rw [hasks, Bool.true_and] at hbefore
    rw [hafter, hasks, if_pos rfl, hbefore]
    -- one of the two healths is good and the other bad
    cases hold : l.health <;> cases health <;> first | rfl | exact absurd hold hnew

/-! ## Valid handles -/

def Stored (l : Ledger) (q : QueueHandle) : Prop := l.queue? q.uri = some q

private theorem stored_iff_mem {l : Ledger} (huris : l.openUris.Nodup) {q : QueueHandle} :
    l.Stored q ↔ q ∈ l.openQueues := by
  refine ⟨mem_of_queue?, fun hq => ?_⟩
  have hfound : (l.queue? q.uri).isSome := List.find?_isSome.mpr ⟨q, hq, beq_self_eq_true _⟩
  obtain ⟨r, hr⟩ := Option.isSome_iff_exists.mp hfound
  have hsame := List.inj_on_of_nodup_map huris (mem_of_queue? hr) hq (uri_of_queue? hr)
  rw [Stored, hr, hsame]

structure SameHandles (l l' : Ledger) : Prop where
  openQueues : l'.openQueues = l.openQueues
  length : l.table.states.length ≤ l'.table.states.length
  isValid : ∀ q : QueueHandle, q.id < l.table.states.length →
    l'.table.isValid q = l.table.isValid q

private theorem SameHandles.of_eq {l l' : Ledger} (hqueues : l'.openQueues = l.openQueues)
    (htable : l'.table = l.table) : l.SameHandles l' :=
  ⟨hqueues, Nat.le_of_eq (by rw [htable]), fun _ _ => by rw [htable]⟩

private theorem sameHandles_configureQueue (l : Ledger) (q : QueueHandle) (options : QueueOptions) :
    l.SameHandles (l.configureQueue q options).2 where
  openQueues := l.openQueues_configureQueue q options
  length := Nat.le_of_eq (l.length_configureQueue q options).symm
  isValid r hr := by
    by_cases hcurrent : l.isCurrent q = true
    · have hstate := state_configureQueue hcurrent hr options
      rw [QueueTable.isValid, hstate]
      split <;> rfl
    · rw [configureQueue, if_neg hcurrent]

private theorem sameHandles_setHealth (l : Ledger) (health : HealthState) :
    l.SameHandles (l.setHealth health).2 where
  openQueues := l.openQueues_setHealth health
  length := Nat.le_of_eq (l.length_setHealth health).symm
  isValid r hr := by
    unfold setHealth
    split
    · rfl
    · rw [QueueTable.isValid, QueueTable.state_setSuspended_all hr]
      split <;> rfl

structure Makes (l l' : Ledger) (q : QueueHandle) : Prop where
  id : q.id = l.table.states.length
  length : l'.table.states.length = l.table.states.length + 1
  isValid : ∀ r : QueueHandle, r.id < l.table.states.length →
    l'.table.isValid r = l.table.isValid r

private theorem makes_foreignQueue (l : Ledger) (uri : String) (flags : QueueFlags)
    (options : QueueOptions) :
    l.Makes (l.foreignQueue uri flags options).2 (l.foreignQueue uri flags options).1 where
  id := rfl
  length := l.table.length_create uri flags options
  isValid _ hr := congrArg QueueState.valid (QueueTable.state_create_of_lt hr uri flags options)

theorem openQueue_of_none {l : Ledger} {uri : String} (hnew : l.queue? uri = none)
    (flags : QueueFlags) (options : QueueOptions) :
    let q := (l.table.create uri flags options).1
    let l' := (l.openQueue uri flags options).2
    (l.openQueue uri flags options).1 = ⟨some q, Code.success, ""⟩ ∧ l.Makes l' q ∧
      l'.openQueues = l.openQueues ++ [q] ∧ l'.table.isValid q = true := by
  intro q l'
  have htable : l'.table = (l.table.create uri flags options).2.setSuspended q
      (l.wouldSuspend options) := by
    show (l.openQueue uri flags options).2.table = _
    rw [openQueue, hnew]
  have hq : q.id < (l.table.create uri flags options).2.states.length := by
    rw [QueueTable.length_create]
    exact Nat.lt_succ_self _
  refine ⟨?_, ⟨rfl, ?_, fun r hr => ?_⟩, ?_, ?_⟩
  · rw [openQueue, hnew]
  · rw [htable, QueueTable.setSuspended, QueueTable.length_modify, QueueTable.length_create]
  · rw [htable, QueueTable.isValid, QueueTable.setSuspended,
      QueueTable.state_modify_of_ne (Nat.ne_of_gt hr), QueueTable.state_create_of_lt hr,
      QueueTable.isValid]
  · show (l.openQueue uri flags options).2.openQueues = _
    rw [openQueue, hnew]
  · rw [htable, QueueTable.isValid, QueueTable.setSuspended, QueueTable.state_modify hq,
      QueueTable.state_create]

private theorem refused_of_not_current {l : Ledger} {q : QueueHandle} (h : l.isCurrent q = false) :
    (∀ options, l.configureQueue q options =
      (⟨some q, Code.invalidQueue, "unknown queue"⟩, l)) ∧
    l.closeQueue q = (⟨some q, Code.unknownQueue, "unknown queue"⟩, l) ∧
    l.confirm q = Code.invalidArgument := by
  simp [configureQueue, closeQueue, confirm, h]

private theorem done_of_current {l : Ledger} {q : QueueHandle} (h : l.isCurrent q = true) :
    (∀ options, (l.configureQueue q options).1.code = Code.success) ∧
    (l.closeQueue q).1.code = Code.success ∧ l.confirm q = Code.success := by
  simp [configureQueue, closeQueue, confirm, h]

end Ledger

namespace LedgerHistory

open Ledger

/-- Every handle has a place of its own in the table, and the open queues are those whose handle
is valid. -/
structure Consistent (h : LedgerHistory) : Prop where
  made : ∀ q ∈ h.opened ++ h.foreign, q.id < h.ledger.table.states.length
  ids : ((h.opened ++ h.foreign).map (·.id)).Nodup
  uris : h.ledger.openUris.Nodup
  openQueues : h.ledger.openQueues = h.opened.filter h.ledger.table.isValid

theorem consistent_empty : Consistent {} := ⟨nofun, .nil, .nil, rfl⟩

namespace Consistent

variable {h : LedgerHistory}

private theorem mem_opened (hh : h.Consistent) {q : QueueHandle} (hq : q ∈ h.ledger.openQueues) :
    q ∈ h.opened := by
  rw [hh.openQueues] at hq
  exact (List.mem_filter.mp hq).1

private theorem eq_of_id (hh : h.Consistent) {q r : QueueHandle} (hq : q ∈ h.opened ++ h.foreign)
    (hr : r ∈ h.opened ++ h.foreign) (hid : q.id = r.id) : q = r :=
  List.inj_on_of_nodup_map hh.ids hq hr hid

private theorem isValid_iff_stored (hh : h.Consistent) {q : QueueHandle} (hq : q ∈ h.opened) :
    h.ledger.table.isValid q = true ↔ h.ledger.Stored q := by
  rw [stored_iff_mem hh.uris, hh.openQueues, List.mem_filter]
  exact (and_iff_right hq).symm

private theorem isCurrent_iff_stored (hh : h.Consistent) {q : QueueHandle}
    (hq : q ∈ h.opened ++ h.foreign) : h.ledger.isCurrent q = true ↔ h.ledger.Stored q := by
  constructor
  · intro hcurrent
    obtain ⟨r, hr, huri, hid⟩ := open_of_isCurrent hcurrent
    have hsame := hh.eq_of_id (List.mem_append_left _ (hh.mem_opened hr)) hq hid
    exact (stored_iff_mem hh.uris).mpr (hsame ▸ hr)
  · intro hstored
    rw [isCurrent, hstored]
    exact beq_self_eq_true _

/-! ### What uses preserve -/

private theorem same (hh : h.Consistent) {l : Ledger} (hsame : h.ledger.SameHandles l) :
    Consistent { h with ledger := l } where
  made q hq := Nat.lt_of_lt_of_le (hh.made q hq) hsame.length
  ids := hh.ids
  uris := by
    rw [openUris, hsame.openQueues]
    exact hh.uris
  openQueues := by
    rw [hsame.openQueues, hh.openQueues]
    refine List.filter_congr fun q hq => ?_
    exact (hsame.isValid q (hh.made q (List.mem_append_left _ hq))).symm

private theorem makes (hh : h.Consistent) {l : Ledger} {q : QueueHandle}
    (hmakes : h.ledger.Makes l q)
    {handles : List QueueHandle} (hperm : handles.Perm (q :: (h.opened ++ h.foreign))) :
    (∀ r ∈ handles, r.id < l.table.states.length) ∧ (handles.map (·.id)).Nodup := by
  constructor
  · intro r hr
    rw [hmakes.length]
    rcases List.mem_cons.mp (hperm.mem_iff.mp hr) with rfl | hold
    · exact hmakes.id ▸ Nat.lt_succ_self _
    · exact Nat.lt_succ_of_lt (hh.made r hold)
  · have hnew : q.id ∉ (h.opened ++ h.foreign).map (·.id) := by
      intro hmem
      obtain ⟨r, hr, hid⟩ := List.mem_map.mp hmem
      exact Nat.ne_of_lt (hh.made r hr) (hid.trans hmakes.id)
    rw [(hperm.map _).nodup_iff]
    exact List.nodup_cons.mpr ⟨hnew, hh.ids⟩

private theorem foreignQueue (hh : h.Consistent) (uri : String) (flags : QueueFlags)
    (options : QueueOptions) : (h.use (.foreignQueue uri flags options)).Consistent := by
  have hmakes := h.ledger.makes_foreignQueue uri flags options
  have hperm : (h.opened ++ (h.foreign ++ [(h.ledger.foreignQueue uri flags options).1])).Perm
      ((h.ledger.foreignQueue uri flags options).1 :: (h.opened ++ h.foreign)) := by
    rw [← List.append_assoc]
    exact List.perm_append_singleton ..
  obtain ⟨hmade, hids⟩ := hh.makes hmakes hperm
  refine ⟨hmade, hids, hh.uris, hh.openQueues.trans ?_⟩
  refine List.filter_congr fun q hq => ?_
  exact (hmakes.isValid q (hh.made q (List.mem_append_left _ hq))).symm

private theorem openQueue (hh : h.Consistent) (uri : String) (flags : QueueFlags)
    (options : QueueOptions) :
    (h.use (.call (.openQueue uri flags options))).Consistent := by
  cases hnew : h.ledger.queue? uri with
  | some existing =>
    have hsame : h.use (.call (.openQueue uri flags options)) = h := by
      have hrefused : h.ledger.openQueue uri flags options =
          (⟨some existing, Code.alreadyOpened, "queue already opened"⟩, h.ledger) := by
        rw [Ledger.openQueue, hnew]
      have hcode : ¬ Code.alreadyOpened = Code.success := by decide
      simp [use, openedBy, perform, hrefused, hcode]
    rw [hsame]
    exact hh
  | none =>
    obtain ⟨hstatus, hmakes, hqueues, hvalid⟩ := openQueue_of_none hnew flags options
    have huse : h.use (.call (.openQueue uri flags options)) = { h with
        ledger := (h.ledger.openQueue uri flags options).2
        opened := h.opened ++ [(h.ledger.table.create uri flags options).1] } := by
      simp [use, perform, openedBy, hstatus]
    have hperm : (h.opened ++ [(h.ledger.table.create uri flags options).1] ++ h.foreign).Perm
        ((h.ledger.table.create uri flags options).1 :: (h.opened ++ h.foreign)) := by
      rw [List.append_assoc]
      exact List.perm_middle
    obtain ⟨hmade, hids⟩ := hh.makes hmakes hperm
    rw [huse]
    have hother : h.ledger.openUris.Disjoint [uri] := by
      rw [List.disjoint_singleton]
      intro hmem
      obtain ⟨q, hq, huri⟩ := List.mem_map.mp hmem
      exact List.find?_eq_none.mp hnew q hq (beq_iff_eq.mpr huri)
    refine ⟨hmade, hids, ?_, ?_⟩
    · show ((h.ledger.openQueue uri flags options).2.openQueues.map _).Nodup
      rw [hqueues, List.map_append]
      exact List.Nodup.append hh.uris (List.nodup_singleton _) hother
    · show (h.ledger.openQueue uri flags options).2.openQueues = _
      rw [hqueues, List.filter_append, hh.openQueues]
      congr 1
      · refine List.filter_congr fun q hq => ?_
        exact (hmakes.isValid q (hh.made q (List.mem_append_left _ hq))).symm
      · rw [List.filter_cons_of_pos hvalid, List.filter_nil]

/-- A queue is closed by taking out its address, and its handle loses its validity. -/
theorem remove (hh : h.Consistent) {q r : QueueHandle} (hr : r ∈ h.ledger.openQueues)
    (hid : q.id = r.id) :
    Consistent { h with
      ledger := Ledger.remove { h.ledger with table := h.ledger.table.invalidate q } r.uri } where
  made s hs := by
    show s.id < (h.ledger.table.invalidate q).states.length
    rw [QueueTable.invalidate, QueueTable.length_modify]
    exact hh.made s hs
  ids := hh.ids
  uris := hh.uris.sublist (List.filter_sublist.map _)
  openQueues := by
    have hsplit : h.opened.filter (h.ledger.table.invalidate q).isValid =
        h.ledger.openQueues.filter fun s => s.id != q.id := by
      rw [hh.openQueues, List.filter_filter]
      refine List.filter_congr fun s hs => ?_
      rw [QueueTable.isValid_invalidate (hh.made s (List.mem_append_left _ hs)), Bool.and_comm]
    refine Eq.trans ?_ hsplit.symm
    refine List.filter_congr fun s hs => ?_
    have hmade (t : QueueHandle) (ht : t ∈ h.ledger.openQueues) : t ∈ h.opened ++ h.foreign :=
      List.mem_append_left _ (hh.mem_opened ht)
    -- an open queue has its address to itself, as it has its identity
    have huri : s.uri = r.uri ↔ s = r :=
      ⟨fun h => List.inj_on_of_nodup_map hh.uris hs hr h, fun h => by rw [h]⟩
    have hids : s.id = q.id ↔ s = r := by
      rw [hid]
      exact ⟨fun h => hh.eq_of_id (hmade s hs) (hmade r hr) h, fun h => by rw [h]⟩
    simp only [bne, Bool.beq_eq_decide_eq, huri, hids]

private theorem use (hh : h.Consistent) (u : LedgerUse) : (h.use u).Consistent := by
  cases u with
  | setHealth health => exact hh.same (h.ledger.sameHandles_setHealth health)
  | confirm q => exact hh
  | foreignQueue uri flags options => exact hh.foreignQueue uri flags options
  | post | takePosted | enqueue | takePending => exact hh.same (.of_eq rfl rfl)
  | call c =>
  by_cases hopen : ∃ uri flags options, c = .openQueue uri flags options
  case pos =>
    obtain ⟨uri, flags, options, rfl⟩ := hopen
    exact hh.openQueue uri flags options
  have huse : h.use (.call c) = { h with ledger := h.ledger.perform c } := by
    cases c with
    | openQueue uri flags options => exact absurd ⟨uri, flags, options, rfl⟩ hopen
    | _ => simp [LedgerHistory.use, openedBy]
  rw [huse]
  cases c with
  | openQueue uri flags options => exact absurd ⟨uri, flags, options, rfl⟩ hopen
  | start | stop => exact hh.same (.of_eq rfl rfl)
  | configureQueue q options => exact hh.same (h.ledger.sameHandles_configureQueue q options)
  | closeQueue q =>
    cases hcurrent : h.ledger.isCurrent q with
    | false =>
      rw [perform, (refused_of_not_current hcurrent).2.1]
      exact hh
    | true =>
      obtain ⟨r, hr, huri, hid⟩ := open_of_isCurrent hcurrent
      rw [perform, closeQueue, if_pos hcurrent, ← huri]
      exact hh.remove hr hid.symm
  | dropQueue uri =>
    rw [perform, dropQueue]
    cases hold : h.ledger.queue? uri with
    | none => exact hh
    | some r =>
      rw [← uri_of_queue? hold]
      exact hh.remove (mem_of_queue? hold) rfl

end Consistent

/-! ## Every history -/

/-- Whatever has been asked of the books, an open queue is suspended exactly when its options ask
for it and the host was last known to be unhealthy. News of the host's health names the open
queues whose flag it changes, in the order of their opening, and no others. -/
theorem suspended_exactly_when_asked (uses : List LedgerUse) :
    (after uses).ledger.openQueues.Sublist (after uses).opened ∧
    (∀ q ∈ (after uses).ledger.openQueues, (after uses).ledger.table.isSuspended q =
      (((after uses).ledger.table.options q).suspendsOnBadHostHealth &&
        !(after uses).ledger.health.isHealthy)) ∧
    ∀ health, ((after uses).ledger.setHealth health).1 =
      (after uses).ledger.openQueues.filter fun q =>
        ((after uses).ledger.setHealth health).2.table.isSuspended q !=
          (after uses).ledger.table.isSuspended q := by
  have hheedful : (after uses).ledger.Heedful :=
    after_induction (P := fun h => h.ledger.Heedful) heedful_empty (fun _ u hh => hh.use u) uses
  have hconsistent : (after uses).Consistent :=
    after_induction consistent_empty (fun _ u hh => hh.use u) uses
  refine ⟨?_, hheedful.heeds, hheedful.affected_eq⟩
  rw [hconsistent.openQueues]
  exact List.filter_sublist

/-- Whatever has been asked of the books, every handle has its own identity, and one that a queue
was opened under is valid exactly when it is the one kept under its address. The open addresses are
therefore those of the valid handles, in the order of their opening, each once. Queues can be
configured and closed, and messages confirmed, under these handles and no others: one that has been
closed, or was made elsewhere, is refused, and changes nothing, although its address be open. -/
theorem valid_exactly_when_stored (uses : List LedgerUse) :
    (((after uses).opened ++ (after uses).foreign).map (·.id)).Nodup ∧
    (∀ q ∈ (after uses).opened,
      (after uses).ledger.table.isValid q = true ↔ (after uses).ledger.Stored q) ∧
    (∀ q ∈ (after uses).opened, ∀ r ∈ (after uses).opened,
      (after uses).ledger.table.isValid q = true → (after uses).ledger.table.isValid r = true →
        q.uri = r.uri → q = r) ∧
    (after uses).ledger.openUris.Nodup ∧
    (after uses).ledger.openUris =
      ((after uses).opened.filter (after uses).ledger.table.isValid).map (·.uri) ∧
    ∀ q ∈ (after uses).opened ++ (after uses).foreign,
      (∀ options, ((after uses).ledger.configureQueue q options).1.code = Code.success ↔
        (after uses).ledger.Stored q) ∧
      (((after uses).ledger.closeQueue q).1.code = Code.success ↔
        (after uses).ledger.Stored q) ∧
      ((after uses).ledger.confirm q = Code.success ↔ (after uses).ledger.Stored q) ∧
      (¬ (after uses).ledger.Stored q →
        (∀ options, ((after uses).ledger.configureQueue q options).2 = (after uses).ledger) ∧
        ((after uses).ledger.closeQueue q).2 = (after uses).ledger) := by
  have hh : (after uses).Consistent :=
    after_induction consistent_empty (fun _ u hh => hh.use u) uses
  refine ⟨hh.ids, fun q hq => hh.isValid_iff_stored hq, ?_, hh.uris, ?_, fun q hq => ?_⟩
  · intro q hq r hr hvalid hvalid' huri
    have hstored := (hh.isValid_iff_stored hq).mp hvalid
    have hstored' := (hh.isValid_iff_stored hr).mp hvalid'
    rw [Stored, huri, hstored'] at hstored
    exact (Option.some.inj hstored).symm
  · rw [← hh.openQueues]
    rfl
  · rw [← hh.isCurrent_iff_stored hq]
    cases hcurrent : (after uses).ledger.isCurrent q with
    | true =>
      obtain ⟨hconfigure, hclose, hconfirm⟩ := done_of_current hcurrent
      simp [hconfigure, hclose, hconfirm]
    | false =>
      obtain ⟨hconfigure, hclose, hconfirm⟩ := refused_of_not_current hcurrent
      simp [hconfigure, hclose, hconfirm]
      decide

example :
    let first : QueueHandle := ⟨0, "bmq://d/q", .ofAccess true true⟩
    let opens : LedgerUse := .call (.openQueue first.uri first.flags {})
    let h := after [opens, .call (.closeQueue first), opens]
    h.opened = [first, { first with id := 1 }] ∧ h.ledger.openUris = [first.uri] ∧
      h.ledger.table.isValid first = false ∧ h.ledger.confirm first = Code.invalidArgument := by
  decide

end LedgerHistory

end BrokerBridge
