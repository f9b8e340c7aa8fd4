import BrokerBridge.Proofs.Replay.Books
import Mathlib.Logic.Function.Basic

/-!
# What is open, and with which options

The listing of the open queues, and what calls on queues do to it. A call is made on a handle; the
listing knows addresses only. Some of the entries may be provisional: the listing is settled by
taking back what is to be taken back.
-/

namespace BrokerBridge

structure QueueEntry where
  uri : String
  flags : QueueFlags
  options : QueueOptions
deriving DecidableEq, Repr

inductive QueueDeed where
  | openQueue (uri : String) (flags : QueueFlags) (options : QueueOptions)
  | configureQueue (q : QueueHandle) (options : QueueOptions)
  | closeQueue (q : QueueHandle)
deriving DecidableEq, Repr

namespace QueueEntry

def setOptions (uri : String) (options : QueueOptions) (l : List QueueEntry) : List QueueEntry :=
  l.map fun e => if e.uri = uri then { e with options } else e

def remove (uri : String) (l : List QueueEntry) : List QueueEntry := l.filter (·.uri ≠ uri)

def restore (uri : String) : Option QueueOptions → List QueueEntry → List QueueEntry
  | none => remove uri
  | some options => setOptions uri options

end QueueEntry

namespace QueueDeed

def uri : QueueDeed → String
  | openQueue uri .. => uri
  | configureQueue q _ | closeQueue q => q.uri

def isClose : QueueDeed → Bool
  | closeQueue _ => true
  | _ => false

def perform (l : Ledger) : QueueDeed → QueueStatus × Ledger
  | openQueue uri flags options => l.openQueue uri flags options
  | configureQueue q options => l.configureQueue q options
  | closeQueue q => l.closeQueue q

def list : QueueDeed → List QueueEntry → List QueueEntry
  | openQueue uri flags options, l => l ++ [⟨uri, flags, options⟩]
  | configureQueue q options, l => QueueEntry.setOptions q.uri options l
  | closeQueue q, l => QueueEntry.remove q.uri l

/-- A queue can be opened under an address that is not listed, and configured or closed under one
that is. -/
def Fits (l : List QueueEntry) : QueueDeed → Prop
  | openQueue uri .. => ∀ e ∈ l, e.uri ≠ uri
  | configureQueue q _ | closeQueue q => ∃ e ∈ l, e.uri = q.uri

/-- A queue is opened under an address that is not in use, and configured or closed by the handle
that its address is open under. -/
def Applies (l : Ledger) : QueueDeed → Prop
  | openQueue uri .. => l.queue? uri = none
  | configureQueue q _ | closeQueue q => l.isCurrent q = true

instance (l : Ledger) : (d : QueueDeed) → Decidable (d.Applies l)
  | openQueue uri .. => inferInstanceAs (Decidable (l.queue? uri = none))
  | configureQueue q _ | closeQueue q => inferInstanceAs (Decidable (l.isCurrent q = true))

/-- The call made on the handle that its address is open under. -/
def readdress? (l : Ledger) : QueueDeed → Option QueueDeed
  | openQueue uri flags options => some (openQueue uri flags options)
  | configureQueue q options => (l.queue? q.uri).map fun r => configureQueue r options
  | closeQueue q => (l.queue? q.uri).map closeQueue

/-- What a call that is undone goes back to, of what is known of its queue before it is made. -/
def found (l : Ledger) : QueueDeed → Option QueueOptions
  | configureQueue q _ => some (l.table.options q)
  | _ => none

def undo (before : Option QueueOptions) (l : Ledger) : QueueDeed → Ledger
  | openQueue uri .. => l.dropQueue uri
  | configureQueue q _ => before.elim l (l.resetOptions q)
  | closeQueue _ => l

end QueueDeed

namespace Ledger

def entries (l : Ledger) : List QueueEntry :=
  l.openQueues.map fun q => ⟨q.uri, q.flags, l.table.options q⟩

def serve? (l : Ledger) (d : QueueDeed) : Option Ledger :=
  (d.readdress? l).bind fun d =>
    if (d.perform l).1.code = Code.success then some (d.perform l).2 else none

def serveAll? (l : Ledger) (deeds : List QueueDeed) : Option Ledger := deeds.foldlM serve? l

theorem serveAll?_concat {l m m' : Ledger} {deeds : List QueueDeed} {d : QueueDeed}
    (h : l.serveAll? deeds = some m) (hd : m.serve? d = some m') :
    l.serveAll? (deeds ++ [d]) = some m' := by
  have hlast : m.serveAll? [d] = some m' := Option.bind_eq_some_iff.mpr ⟨m', hd, rfl⟩
  rw [serveAll?, List.foldlM_append]
  exact Option.bind_eq_some_iff.mpr ⟨m, h, hlast⟩

structure Tidy (l : Ledger) : Prop where
  known : l.Known
  distinct : l.Distinct
  uris : l.openUris.Nodup

theorem tidy_empty : ({} : Ledger).Tidy := ⟨nofun, .nil, .nil⟩

structure KeepsQueues (l l' : Ledger) : Prop where
  openQueues : l'.openQueues = l.openQueues
  options : l'.table.states.map (·.options) = l.table.states.map (·.options)

instance (l l' : Ledger) : Decidable (l.KeepsQueues l') :=
  decidable_of_iff (_ ∧ _) ⟨fun h => ⟨h.1, h.2⟩, fun h => ⟨h.openQueues, h.options⟩⟩

structure SameAt (uri : String) (l l' : Ledger) : Prop where
  isCurrent : ∀ q : QueueHandle, q.uri = uri → l'.isCurrent q = l.isCurrent q
  options : ∀ q : QueueHandle, q.uri = uri → l.isCurrent q = true →
    l'.table.options q = l.table.options q

structure ChangesAt (uri : String) (l l' : Ledger) : Prop where
  isCurrent : ∀ q : QueueHandle, q.uri ≠ uri → l'.isCurrent q = l.isCurrent q
  options : ∀ q : QueueHandle, q.uri ≠ uri → l.isCurrent q = true →
    l'.table.options q = l.table.options q

/-! ## Handles and entries -/

section

variable {l l' : Ledger} {q r : QueueHandle} {uri : String}

theorem queue?_eq_none_iff : l.queue? uri = none ↔ ∀ e ∈ l.entries, e.uri ≠ uri := by
  rw [queue?, List.find?_eq_none]
  simp [entries]

theorem queue?_eq_some_iff : (∃ q, l.queue? uri = some q) ↔ ∃ e ∈ l.entries, e.uri = uri := by
  rw [← Option.isSome_iff_exists, queue?, List.find?_isSome]
  simp [entries]

private theorem isCurrent_of_queue? (h : l.queue? uri = some q) : l.isCurrent q = true := by
  rw [isCurrent, uri_of_queue? h, h]
  exact beq_self_eq_true _

private theorem Tidy.id_lt_of_isCurrent (h : l.Tidy) (hq : l.isCurrent q = true) :
    q.id < l.table.states.length := by
  obtain ⟨r, hr, _, hid⟩ := open_of_isCurrent hq
  exact hid ▸ h.known r hr

/-- An open queue has the identity of a handle in use exactly if it has its address. -/
theorem Tidy.id_eq_iff (h : l.Tidy) (hq : l.isCurrent q = true) (hr : r ∈ l.openQueues) :
    q.id = r.id ↔ r.uri = q.uri := by
  obtain ⟨known, hknown, huri, hid⟩ := open_of_isCurrent hq
  constructor
  · intro hsame
    have heq := List.inj_on_of_nodup_map h.distinct hknown hr (hid.trans hsame)
    rw [← heq, huri]
  · intro hsame
    have heq := List.inj_on_of_nodup_map h.uris hknown hr (huri.trans hsame.symm)
    rw [← hid, heq]

private theorem options_congr (h : q.id = r.id) (t : QueueTable) : t.options q = t.options r := by
  rw [QueueTable.options, QueueTable.options, QueueTable.state, QueueTable.state, h]

private theorem isCurrent_congr (hqueues : l'.openQueues = l.openQueues) (q : QueueHandle) :
    l'.isCurrent q = l.isCurrent q := by
  rw [isCurrent, isCurrent, queue?, queue?, hqueues]

theorem ChangesAt.sameAt (h : l.ChangesAt uri l') {other : String} (hne : other ≠ uri) :
    l.SameAt other l' where
  isCurrent q hq := h.isCurrent q (hq ▸ hne)
  options q hq := h.options q (hq ▸ hne)

namespace KeepsQueues

theorem of_eq (hqueues : l'.openQueues = l.openQueues) (htable : l'.table = l.table) :
    l.KeepsQueues l' :=
  ⟨hqueues, by rw [htable]⟩

theorem trans {l₁ l₂ l₃ : Ledger} (h₁ : l₁.KeepsQueues l₂) (h₂ : l₂.KeepsQueues l₃) :
    l₁.KeepsQueues l₃ :=
  ⟨h₂.openQueues.trans h₁.openQueues, h₂.options.trans h₁.options⟩

private theorem table_options (h : l.KeepsQueues l') (q : QueueHandle) :
    l'.table.options q = l.table.options q := by
  have hget (t : QueueTable) : t.options q = (t.states.map (·.options)).getD q.id {} := by
    rw [List.getD_eq_getElem?_getD, List.getElem?_map]
    exact (Option.getD_map QueueState.options {} _).symm
  rw [hget, hget, h.options]

theorem entries (h : l.KeepsQueues l') : l'.entries = l.entries := by
  rw [Ledger.entries, Ledger.entries, h.openQueues]
  exact List.map_congr_left fun q _ => by rw [h.table_options]

theorem tidy (h : l.KeepsQueues l') (hl : l.Tidy) : l'.Tidy := by
  have hlength : l'.table.states.length = l.table.states.length := by
    simpa using congrArg List.length h.options
  refine ⟨hl.known.of_length (fun q hq => h.openQueues ▸ hq) (Nat.le_of_eq hlength.symm), ?_, ?_⟩
  · rw [Distinct, h.openQueues]
    exact hl.distinct
  · rw [openUris, h.openQueues]
    exact hl.uris

theorem sameAt (h : l.KeepsQueues l') (uri : String) : l.SameAt uri l' where
  isCurrent q _ := isCurrent_congr h.openQueues q
  options q _ _ := h.table_options q

end KeepsQueues

end

/-! ## What calls change -/

section

variable {l : Ledger} (hl : l.Tidy) {q : QueueHandle} {uri : String}

include hl

/-- A queue that is opened is listed after all the others. -/
theorem openQueue_listed (hnew : l.queue? uri = none) (flags : QueueFlags)
    (options : QueueOptions) :
    (l.openQueue uri flags options).2.Tidy ∧
      (l.openQueue uri flags options).2.entries = l.entries ++ [⟨uri, flags, options⟩] ∧
      l.ChangesAt uri (l.openQueue uri flags options).2 := by
  obtain ⟨_, hmakes, hqueues, _⟩ := openQueue_of_none hnew flags options
  have hgrows := l.grows_openQueue uri flags options
  set l' := (l.openQueue uri flags options).2 with hl'
  have hretained (q : QueueHandle) (hq : q.id < l.table.states.length) :
      l'.table.options q = l.table.options q := hgrows.options hq
  have hcreated : l'.table.options (l.table.create uri flags options).1 = options := by
    have htable : l'.table = (l.table.create uri flags options).2.setSuspended
        (l.table.create uri flags options).1 (l.wouldSuspend options) := by
      rw [hl', openQueue, hnew]
    have hlt : (l.table.create uri flags options).1.id <
        (l.table.create uri flags options).2.states.length := by
      rw [QueueTable.length_create]
      exact Nat.lt_succ_self _
    rw [htable, QueueTable.options, QueueTable.setSuspended, QueueTable.state_modify hlt,
      QueueTable.state_create]
  refine ⟨⟨hgrows.known hl.known, hgrows.distinct hl.known hl.distinct, ?_⟩, ?_, ?_, ?_⟩
  · rw [openUris, hqueues, List.map_append]
    refine List.nodup_append.mpr ⟨hl.uris, List.pairwise_singleton .., ?_⟩
    intro u hu v hv huv
    obtain ⟨q, hq, rfl⟩ := List.mem_map.mp hu
    rw [List.mem_singleton.mp hv] at huv
    exact List.find?_eq_none.mp hnew q hq (beq_iff_eq.mpr huv)
  · rw [entries, hqueues, List.map_append, entries]
    refine congrArg₂ _ (List.map_congr_left fun q hq => ?_) ?_
    · rw [hretained q (hl.known q hq)]
    · rw [List.map_singleton, hcreated]
      rfl
  · intro q hq
    have hother : (uri == q.uri) = false := beq_false_of_ne hq.symm
    have hsame : l'.queue? q.uri = l.queue? q.uri := by
      rw [queue?, hqueues, List.find?_append]
      simp [QueueTable.create, hother, queue?]
    rw [isCurrent, isCurrent, hsame]
  · exact fun q _ hq => hretained q (hl.id_lt_of_isCurrent hq)

private theorem setOptions_listed (hcurrent : l.isCurrent q = true) {l' : Ledger}
    {options : QueueOptions} (hqueues : l'.openQueues = l.openQueues)
    (hlength : l'.table.states.length = l.table.states.length)
    (hoptions : ∀ r : QueueHandle, r.id < l.table.states.length →
      l'.table.options r = if q.id = r.id then options else l.table.options r) :
    l'.Tidy ∧ l'.entries = QueueEntry.setOptions q.uri options l.entries ∧
      l.ChangesAt q.uri l' := by
  refine ⟨⟨?_, ?_, ?_⟩, ?_, fun r _ => isCurrent_congr hqueues r, fun r hr hopen => ?_⟩
  · exact hl.known.of_length (fun r hr => hqueues ▸ hr) (Nat.le_of_eq hlength.symm)
  · rw [Distinct, hqueues]
    exact hl.distinct
  · rw [openUris, hqueues]
    exact hl.uris
  · rw [entries, hqueues, entries, QueueEntry.setOptions, List.map_map]
    refine List.map_congr_left fun r hr => ?_
    rw [hoptions r (hl.known r hr)]
    by_cases hsame : q.id = r.id
    · rw [if_pos hsame]
      simp [(hl.id_eq_iff hcurrent hr).mp hsame]
    · rw [if_neg hsame]
      have hother : r.uri ≠ q.uri := fun huri => hsame ((hl.id_eq_iff hcurrent hr).mpr huri)
      simp [hother]
  · rw [hoptions r (hl.id_lt_of_isCurrent hopen), if_neg]
    intro hsame
    obtain ⟨known, hknown, huri, hid⟩ := open_of_isCurrent hopen
    exact hr (huri.symm.trans ((hl.id_eq_iff hcurrent hknown).mp (hsame.trans hid.symm)))

private theorem remove_listed (q : QueueHandle) (uri : String) :
    (remove { l with table := l.table.invalidate q } uri).Tidy ∧
      (remove { l with table := l.table.invalidate q } uri).entries =
        QueueEntry.remove uri l.entries ∧
      l.ChangesAt uri (remove { l with table := l.table.invalidate q } uri) := by
  have hretains := retains_invalidate (l := l) q uri
  have hsub : (l.openQueues.filter (·.uri != uri)).Sublist l.openQueues := List.filter_sublist
  refine ⟨⟨?_, hl.distinct.sublist (hsub.map _), hl.uris.sublist (hsub.map _)⟩, ?_, ?_, ?_⟩
  · exact hl.known.of_length (fun r hr => hsub.subset hr) hretains.length
  · rw [QueueEntry.remove, entries, entries, List.filter_map]
    have hfilter : (l.openQueues.filter (·.uri != uri)) = l.openQueues.filter
        ((fun e : QueueEntry => decide (e.uri ≠ uri)) ∘
          fun q => ⟨q.uri, q.flags, l.table.options q⟩) :=
      List.filter_congr fun r _ => by simp [bne, beq_eq_decide]
    rw [← hfilter]
    refine List.map_congr_left fun r hr => ?_
    rw [hretains.options (hl.known r (hsub.subset hr))]
  · intro r hr
    have hfound : (l.openQueues.filter (·.uri != uri)).find? (·.uri == r.uri) =
        l.openQueues.find? (·.uri == r.uri) := by
      rw [List.find?_filter]
      refine congrArg (List.find? · _) (funext fun q => ?_)
      by_cases hq : q.uri = r.uri
      · simp [hq, hr]
      · simp [hq]
    simp only [isCurrent, queue?, remove, hfound]
  · exact fun r _ hopen => hretains.options (hl.id_lt_of_isCurrent hopen)

private theorem configureQueue_listed (hcurrent : l.isCurrent q = true) (options : QueueOptions) :
    (l.configureQueue q options).2.Tidy ∧ (l.configureQueue q options).2.entries =
        QueueEntry.setOptions q.uri options l.entries ∧
      l.ChangesAt q.uri (l.configureQueue q options).2 := by
  refine setOptions_listed hl hcurrent (openQueues_configureQueue ..) (length_configureQueue ..) ?_
  intro r hr
  rw [QueueTable.options, state_configureQueue hcurrent hr]
  split <;> rfl

private theorem resetOptions_listed (hcurrent : l.isCurrent q = true) (options : QueueOptions) :
    (l.resetOptions q options).Tidy ∧ (l.resetOptions q options).entries =
        QueueEntry.setOptions q.uri options l.entries ∧
      l.ChangesAt q.uri (l.resetOptions q options) := by
  refine setOptions_listed hl hcurrent rfl (QueueTable.length_modify ..) ?_
  intro r hr
  rw [resetOptions, QueueTable.options, QueueTable.setOptions]
  by_cases hsame : q.id = r.id
  · rw [if_pos hsame, QueueTable.state_modify_of_eq hsame hr]
  · rw [if_neg hsame, QueueTable.state_modify_of_ne hsame]
    rfl

private theorem closeQueue_listed (hcurrent : l.isCurrent q = true) :
    (l.closeQueue q).2.Tidy ∧
      (l.closeQueue q).2.entries = QueueEntry.remove q.uri l.entries ∧
      l.ChangesAt q.uri (l.closeQueue q).2 := by
  rw [closeQueue, if_pos hcurrent]
  exact remove_listed hl q q.uri

private theorem dropQueue_listed (uri : String) :
    (l.dropQueue uri).Tidy ∧ (l.dropQueue uri).entries = QueueEntry.remove uri l.entries ∧
      l.ChangesAt uri (l.dropQueue uri) := by
  unfold dropQueue
  cases hfound : l.queue? uri with
  | some q => exact remove_listed hl q uri
  | none =>
    refine ⟨hl, ?_, fun _ _ => rfl, fun _ _ _ => rfl⟩
    refine (List.filter_eq_self.mpr fun e he => ?_).symm
    exact decide_eq_true (queue?_eq_none_iff.mp hfound e he)

end

end Ledger

namespace QueueDeed

open Ledger

variable {d : QueueDeed} {l : Ledger}

theorem success_iff_applies : (d.perform l).1.code = Code.success ↔ d.Applies l := by
  cases d with
  | openQueue uri flags options =>
    rw [perform, Applies, Ledger.openQueue]
    cases l.queue? uri with
    | none => exact iff_of_true rfl rfl
    | some q =>
      have hcode : Code.alreadyOpened ≠ Code.success := by decide
      exact iff_of_false hcode (Option.some_ne_none q)
  | configureQueue q options =>
    rw [perform, Applies, Ledger.configureQueue]
    have hcode : Code.invalidQueue ≠ Code.success := by decide
    split
    · next h => exact iff_of_true rfl h
    · next h => exact iff_of_false hcode h
  | closeQueue q =>
    rw [perform, Applies, Ledger.closeQueue]
    have hcode : Code.unknownQueue ≠ Code.success := by decide
    split
    · next h => exact iff_of_true rfl h
    · next h => exact iff_of_false hcode h

theorem perform_of_refused (h : ¬ d.Applies l) : (d.perform l).2 = l := by
  cases d with
  | openQueue uri flags options =>
    exact openQueue_of_refused fun hsuccess => h (success_iff_applies.mp hsuccess)
  | configureQueue q options => exact congrArg Prod.snd (if_neg h)
  | closeQueue q => exact congrArg Prod.snd (if_neg h)

/-- A call that applies changes its own entry in the listing. -/
theorem perform_listed (hl : l.Tidy) (h : d.Applies l) :
    (d.perform l).2.Tidy ∧ (d.perform l).2.entries = d.list l.entries ∧
      l.ChangesAt d.uri (d.perform l).2 := by
  cases d with
  | openQueue uri flags options => exact openQueue_listed hl h flags options
  | configureQueue q options => exact configureQueue_listed hl h options
  | closeQueue q => exact closeQueue_listed hl h

theorem Applies.fits (h : d.Applies l) : d.Fits l.entries := by
  have hlisted {q : QueueHandle} (hq : l.isCurrent q = true) : ∃ e ∈ l.entries, e.uri = q.uri := by
    obtain ⟨r, hr, huri, _⟩ := open_of_isCurrent hq
    exact ⟨_, List.mem_map_of_mem hr, huri⟩
  cases d with
  | openQueue uri flags options => exact queue?_eq_none_iff.mp h
  | configureQueue q options => exact hlisted h
  | closeQueue q => exact hlisted h

/-- A call that fits the listing is served. -/
theorem serve?_of_fits (hl : l.Tidy) (h : d.Fits l.entries) :
    ∃ l', l.serve? d = some l' ∧ l'.Tidy ∧ l'.entries = d.list l.entries := by
  obtain ⟨d', hd', happlies, hlist⟩ : ∃ d', d.readdress? l = some d' ∧ d'.Applies l ∧
      d'.list = d.list := by
    have hfound {q : QueueHandle} (h : ∃ e ∈ l.entries, e.uri = q.uri) :
        ∃ r, l.queue? q.uri = some r ∧ l.isCurrent r = true ∧ r.uri = q.uri := by
      obtain ⟨r, hr⟩ := queue?_eq_some_iff.mpr h
      exact ⟨r, hr, isCurrent_of_queue? hr, uri_of_queue? hr⟩
    cases d with
    | openQueue uri flags options => exact ⟨_, rfl, queue?_eq_none_iff.mpr h, rfl⟩
    | configureQueue q options =>
      obtain ⟨r, hr, hcurrent, huri⟩ := hfound h
      refine ⟨configureQueue r options, by rw [readdress?, hr]; rfl, hcurrent, ?_⟩
      funext es
      rw [list, list, huri]
    | closeQueue q =>
      obtain ⟨r, hr, hcurrent, huri⟩ := hfound h
      refine ⟨closeQueue r, by rw [readdress?, hr]; rfl, hcurrent, ?_⟩
      funext es
      rw [list, list, huri]
  obtain ⟨htidy, hentries, _⟩ := perform_listed hl happlies
  refine ⟨(d'.perform l).2, ?_, htidy, hlist ▸ hentries⟩
  rw [serve?, hd']
  exact if_pos (success_iff_applies.mpr happlies)

/-! ## What is undone -/

def CanUndo (before : Option QueueOptions) (l : Ledger) : QueueDeed → Prop
  | openQueue .. => before = none
  | configureQueue q _ => l.isCurrent q = true ∧ before.isSome = true
  | closeQueue _ => False

theorem CanUndo.sameAt {before : Option QueueOptions} {l' : Ledger} (h : d.CanUndo before l)
    (hsame : l.SameAt d.uri l') : d.CanUndo before l' := by
  cases d with
  | openQueue uri flags options => exact h
  | configureQueue q options => exact ⟨(hsame.isCurrent q rfl).trans h.1, h.2⟩
  | closeQueue q => exact h.elim

/-- A call that is undone has its own entry put back. -/
theorem undo_listed {before : Option QueueOptions} (hl : l.Tidy) (h : d.CanUndo before l) :
    (d.undo before l).Tidy ∧
      (d.undo before l).entries = QueueEntry.restore d.uri before l.entries ∧
      l.ChangesAt d.uri (d.undo before l) := by
  cases d with
  | openQueue uri flags options =>
    cases h
    exact dropQueue_listed hl uri
  | configureQueue q options =>
    obtain ⟨hcurrent, hbefore⟩ := h
    obtain ⟨old, rfl⟩ := Option.isSome_iff_exists.mp hbefore
    exact resetOptions_listed hl hcurrent old
  | closeQueue q => exact h.elim

end QueueDeed

/-! ## Provisional entries -/

namespace QueueEntry

/-- What is to be taken back, by address: a queue that has been opened, or the options that another
has been given. -/
abbrev Provisional := String → Option (Option QueueOptions)

def settled (prov : Provisional) (e : QueueEntry) : Option QueueEntry :=
  match prov e.uri with
  | none => some e
  | some none => none
  | some (some options) => some { e with options }

def settle (prov : Provisional) (l : List QueueEntry) : List QueueEntry :=
  l.filterMap (settled prov)

variable {prov : Provisional} {uri : String} {l : List QueueEntry}

private theorem uri_of_settled {e e' : QueueEntry} (h : settled prov e = some e') :
    e'.uri = e.uri := by
  unfold settled at h
  split at h <;> cases h <;> rfl

theorem settle_none (l : List QueueEntry) : settle (fun _ => none) l = l :=
  List.filterMap_some ..

private theorem settled_of_none {e : QueueEntry} (h : prov e.uri = none) :
    settled prov e = some e := by
  rw [settled, h]

private theorem settled_update_of_ne {e : QueueEntry} (h : e.uri ≠ uri)
    (x : Option (Option QueueOptions)) :
    settled (Function.update prov uri x) e = settled prov e := by
  rw [settled, settled, Function.update_of_ne h]

private theorem settled_update_of_eq {e : QueueEntry} (h : e.uri = uri) (x : Option QueueOptions) :
    settled (Function.update prov uri (some x)) e =
      x.map fun options => { e with options } := by
  rw [settled, h, Function.update_self]
  cases x <;> rfl

private theorem settle_remove (prov : Provisional) (uri : String) (l : List QueueEntry) :
    settle prov (remove uri l) = remove uri (settle prov l) := by
  rw [settle, remove, remove, settle, List.filterMap_filter, List.filter_filterMap]
  refine List.filterMap_congr fun e _ => ?_
  cases hsettled : settled prov e with
  | none => simp
  | some e' => simp [Option.filter, uri_of_settled hsettled]

private theorem settle_setOptions (hprov : prov uri = none) (options : QueueOptions)
    (l : List QueueEntry) :
    settle prov (setOptions uri options l) = setOptions uri options (settle prov l) := by
  rw [settle, setOptions, setOptions, settle, List.filterMap_map, List.map_filterMap]
  refine List.filterMap_congr fun e _ => ?_
  rw [Function.comp_apply]
  by_cases he : e.uri = uri
  · have hnone : prov e.uri = none := he ▸ hprov
    have hnew : prov ({ e with options } : QueueEntry).uri = none := hnone
    rw [if_pos he, settled_of_none hnone, settled_of_none hnew, Option.map_some, if_pos he]
  · rw [if_neg he]
    cases hsettled : settled prov e with
    | none => rfl
    | some e' =>
      have hother : e'.uri ≠ uri := uri_of_settled hsettled ▸ he
      simp [hother]

/-- Putting an entry back settles it. -/
theorem settle_restore {before : Option QueueOptions} (hprov : prov uri = some before)
    (l : List QueueEntry) :
    settle (Function.update prov uri none) (restore uri before l) = settle prov l := by
  cases before with
  | none =>
    rw [settle, restore, remove, List.filterMap_filter, settle]
    refine List.filterMap_congr fun e _ => ?_
    by_cases he : e.uri = uri
    · simp [he, settled, hprov]
    · simp [he, settled_update_of_ne he]
  | some options =>
    rw [settle, restore, setOptions, List.filterMap_map, settle]
    refine List.filterMap_congr fun e _ => ?_
    rw [Function.comp_apply]
    by_cases he : e.uri = uri
    · rw [if_pos he, settled_of_none (by simp [he]), settled, he, hprov]
    · rw [if_neg he, settled_update_of_ne he]

end QueueEntry

namespace QueueDeed

open QueueEntry

def Replaces (before : Option QueueOptions) (l : List QueueEntry) : QueueDeed → Prop
  | openQueue uri .. => before = none ∧ ∀ e ∈ l, e.uri ≠ uri
  | configureQueue q _ => ∀ e ∈ l, e.uri = q.uri → before = some e.options
  | closeQueue _ => False

def Remembers (before : Option QueueOptions) (l : Ledger) : QueueDeed → Prop
  | openQueue .. => before = none
  | configureQueue q _ =>
      ∃ old, before = some old ∧ (l.isCurrent q = true → l.table.options q = old)
  | closeQueue _ => False

section

variable {d : QueueDeed} {before : Option QueueOptions} {l l' : Ledger}

theorem remembers_found (h : d.isClose = false) (l : Ledger) : d.Remembers (d.found l) l := by
  cases d with
  | openQueue uri flags options => rfl
  | configureQueue q options => exact ⟨_, rfl, fun _ => rfl⟩
  | closeQueue q => cases h

theorem Remembers.sameAt (h : d.Remembers before l)
    (hsame : before.isSome = true → l.SameAt d.uri l') : d.Remembers before l' := by
  cases d with
  | openQueue uri flags options => exact h
  | configureQueue q options =>
    obtain ⟨old, rfl, hold⟩ := h
    have hsame := hsame rfl
    refine ⟨old, rfl, fun hcurrent => ?_⟩
    rw [hsame.isCurrent q rfl] at hcurrent
    rw [hsame.options q rfl hcurrent, hold hcurrent]
  | closeQueue q => exact h.elim

theorem Remembers.replaces (h : d.Remembers before l) (hl : l.Tidy) (happlies : d.Applies l) :
    d.Replaces before l.entries := by
  cases d with
  | openQueue uri flags options => exact ⟨h, happlies.fits⟩
  | configureQueue q options =>
    obtain ⟨old, rfl, hold⟩ := h
    intro e he huri
    obtain ⟨r, hr, rfl⟩ := List.mem_map.mp he
    have hid := (hl.id_eq_iff happlies hr).mpr huri
    rw [← hold happlies, Ledger.options_congr hid]
  | closeQueue q => exact h.elim

theorem Remembers.canUndo (h : d.Remembers before l) (happlies : d.Applies l) :
    d.CanUndo before (d.perform l).2 := by
  cases d with
  | openQueue uri flags options => exact h
  | configureQueue q options =>
    obtain ⟨old, rfl, -⟩ := h
    exact ⟨(Ledger.isCurrent_congr (Ledger.openQueues_configureQueue ..) q).trans happlies, rfl⟩
  | closeQueue q => exact h.elim

end

variable {d : QueueDeed} {prov : Provisional} {l : List QueueEntry}

theorem Fits.settle (h : d.Fits l) (hprov : prov d.uri = none) : d.Fits (settle prov l) := by
  have hlisted {uri : String} (hprov : prov uri = none) (h : ∃ e ∈ l, e.uri = uri) :
      ∃ e ∈ QueueEntry.settle prov l, e.uri = uri := by
    obtain ⟨e, he, rfl⟩ := h
    exact ⟨e, List.mem_filterMap.mpr ⟨e, he, settled_of_none hprov⟩, rfl⟩
  cases d with
  | openQueue uri flags options =>
    intro e' he'
    obtain ⟨e, he, hsettled⟩ := List.mem_filterMap.mp he'
    rw [uri_of_settled hsettled]
    exact h e he
  | configureQueue q options => exact hlisted hprov h
  | closeQueue q => exact hlisted hprov h

/-- A call on an address where nothing is provisional does to the settled listing what it does to
the whole. -/
theorem settle_list (hprov : prov d.uri = none) :
    settle prov (d.list l) = d.list (settle prov l) := by
  cases d with
  | openQueue uri flags options =>
    rw [list, list, settle, List.filterMap_append, List.filterMap_cons, settled_of_none hprov]
    rfl
  | configureQueue q options => exact settle_setOptions hprov options l
  | closeQueue q => exact settle_remove prov q.uri l

/-- A call that is to be undone leaves the settled listing as it is. -/
theorem settle_provisional {before : Option QueueOptions} (hprov : prov d.uri = none)
    (hbefore : d.Replaces before l) :
    settle (Function.update prov d.uri (some before)) (d.list l) = settle prov l := by
  cases d with
  | openQueue uri flags options =>
    obtain ⟨rfl, hnew⟩ := hbefore
    have htaken : settled (Function.update prov (openQueue uri flags options).uri (some none))
        ⟨uri, flags, options⟩ = none := settled_update_of_eq rfl none
    rw [list, settle, List.filterMap_append, List.filterMap_cons_none htaken, List.filterMap_nil,
      List.append_nil]
    exact List.filterMap_congr fun e he => settled_update_of_ne (hnew e he) _
  | configureQueue q options =>
    rw [list, setOptions, settle, List.filterMap_map, settle]
    refine List.filterMap_congr fun e he => ?_
    rw [Function.comp_apply]
    by_cases hq : e.uri = q.uri
    · have hnone : prov e.uri = none := hq ▸ hprov
      have hnew : ({ e with options } : QueueEntry).uri = q.uri := hq
      rw [if_pos hq, hbefore e he hq, settled_of_none hnone]
      exact settled_update_of_eq hnew (some e.options)
    · rw [if_neg hq]
      exact settled_update_of_ne hq _
  | closeQueue q => exact hbefore.elim

end QueueDeed

end BrokerBridge
