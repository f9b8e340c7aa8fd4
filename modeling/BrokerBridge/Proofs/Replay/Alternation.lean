import BrokerBridge.Proofs.Replay.Reports
import Mathlib.Data.List.Chain
import Mathlib.Data.List.Nodup

/-!
# Reports on a queue alternate

A queue that is opened or configured on an unhealthy host is suspended without a word, and so is
one whose client is not started. Between such silent changes the reports on a queue alternate, and
the last of them says whether the queue is suspended.
-/

namespace BrokerBridge

def Ledger.hasSuspended (l : Ledger) (q : QueueHandle) : Bool :=
  decide (q ∈ l.openQueues) && l.table.isSuspended q

private theorem Ledger.hasSuspended_of_mem {l : Ledger} {q : QueueHandle} (h : q ∈ l.openQueues) :
    l.hasSuspended q = l.table.isSuspended q := by
  rw [hasSuspended, decide_eq_true h, Bool.true_and]

private theorem Ledger.hasSuspended_of_not_mem {l : Ledger} {q : QueueHandle}
    (h : q ∉ l.openQueues) :
    l.hasSuspended q = false := by
  rw [hasSuspended, decide_eq_false h, Bool.false_and]

private theorem Ledger.Distinct.eq_of_id {l : Ledger} (h : l.Distinct) {q r : QueueHandle}
    (hq : q ∈ l.openQueues) (hr : r ∈ l.openQueues) (hid : q.id = r.id) : q = r :=
  List.inj_on_of_nodup_map h hq hr hid

namespace BooksTurn

/-- A queue that stays or becomes open is suspended, or is not any more, without a report. -/
def Silent (t : BooksTurn) (q : QueueHandle) : Prop :=
  q ∈ t.after.openQueues ∧ t.after.hasSuspended q ≠ t.before.hasSuspended q ∧
    q ∉ t.reports.map (·.1)

instance (t : BooksTurn) (q : QueueHandle) : Decidable (t.Silent q) :=
  inferInstanceAs (Decidable (_ ∧ _ ∧ _))

end BooksTurn

def reportsOn (q : QueueHandle) (turns : List BooksTurn) : List Bool :=
  ((turns.flatMap (·.reports)).filter (·.1 = q)).map (·.2)

theorem reportsOn_concat (q : QueueHandle) (turns : List BooksTurn) (t : BooksTurn) :
    reportsOn q (turns ++ [t]) = reportsOn q turns ++ reportsOn q [t] := by
  simp [reportsOn]

private theorem said_of_nodup {affected : List QueueHandle} (hnodup : affected.Nodup)
    (q : QueueHandle)
    (flag : Bool) :
    (((affected.map fun r => (r, flag)).filter (·.1 = q)).map (·.2)) =
      if q ∈ affected then [flag] else [] := by
  induction affected with
  | nil => rfl
  | cons r rest ih =>
    obtain ⟨hfirst, hrest⟩ := List.nodup_cons.mp hnodup
    by_cases hq : r = q
    · subst hq
      simpa [hfirst] using ih hrest
    · simpa [hq, Ne.symm hq] using ih hrest

/-- What the reports on one queue have come to since some state, if its flag has not been changed
in silence since. -/
structure KeptUp (q : QueueHandle) (first : Bool) (turns : List BooksTurn) (l : Ledger) : Prop where
  alternate : (first :: reportsOn q turns).IsChain (· ≠ ·)
  last : q ∈ l.openQueues → l.hasSuspended q = (reportsOn q turns).getLastD first
  heeds : q ∈ l.openQueues → l.Heeds q
  /-- A queue that is yet to come has no reports. -/
  fresh : q.id < l.table.states.length ∨ reportsOn q turns = [] ∧ first = false

section

variable {q : QueueHandle} {first : Bool} {turns : List BooksTurn} {deed : Session.Deed}
  {l l' : Ledger}

/-- A turn that tells nothing of the queue keeps the reports up if it keeps the flag up. -/
theorem KeptUp.unsaid (h : KeptUp q first turns l)
    (hlength : l.table.states.length ≤ l'.table.states.length)
    (hsaid : reportsOn q [⟨deed, l, l'⟩] = [])
    (hlast : q ∈ l'.openQueues → l'.hasSuspended q = (reportsOn q turns).getLastD first)
    (hheeds : q ∈ l'.openQueues → l'.Heeds q) :
    KeptUp q first (turns ++ [⟨deed, l, l'⟩]) l' := by
  have hsame : reportsOn q (turns ++ [⟨deed, l, l'⟩]) = reportsOn q turns := by
    rw [reportsOn_concat, hsaid, List.append_nil]
  refine ⟨?_, ?_, hheeds, ?_⟩
  · rw [hsame]
    exact h.alternate
  · rw [hsame]
    exact hlast
  · rw [hsame]
    exact h.fresh.imp_left fun hlt => Nat.lt_of_lt_of_le hlt hlength

private theorem KeptUp.proceeds (h : KeptUp q first turns l) (hknown : l.Known) (hl : l.Proceeds l')
    (hsilent : ¬ (BooksTurn.mk deed l l').Silent q) :
    KeptUp q first (turns ++ [⟨deed, l, l'⟩]) l' := by
  have hnone : (BooksTurn.mk deed l l').reports = [] := Stage.announced_of_eq hl.health.symm
  have hflag (hopen : q ∈ l'.openQueues) : l'.hasSuspended q = l.hasSuspended q := by
    by_contra hchanged
    exact hsilent ⟨hopen, hchanged, by simp [hnone]⟩
  apply h.unsaid hl.length
  case hsaid => simp [reportsOn, hnone]
  case hlast =>
    intro hopen
    rw [hflag hopen]
    rcases hl.openQueues q hopen with hopen | ⟨hnew, _, _⟩
    · exact h.last hopen
    · have hclosed : q ∉ l.openQueues := fun hopen => Nat.not_lt.mpr hnew (hknown q hopen)
      rcases h.fresh with hlt | ⟨hnone, hfirst⟩
      · exact absurd hlt (Nat.not_lt.mpr hnew)
      · rw [Ledger.hasSuspended_of_not_mem hclosed, hnone, hfirst]
        rfl
  case hheeds =>
    intro hopen
    rcases hl.openQueues q hopen with hbefore | ⟨_, _, hheeds⟩
    · rcases hl.heeds q (hknown q hbefore) with hheeds | hoptions
      · exact hheeds
      -- the options are what they were, and so is the flag
      have hkept := h.heeds hbefore
      have hflag := hflag hopen
      rw [Ledger.hasSuspended_of_mem hopen, Ledger.hasSuspended_of_mem hbefore] at hflag
      unfold Ledger.Heeds Ledger.wouldSuspend at hkept ⊢
      rw [hflag, hoptions, hl.health]
      exact hkept
    · exact hheeds

private theorem reportsOn_setHealth (deed : Session.Deed) (hdistinct : l.Distinct)
    {health : HealthState} (hnew : l.health ≠ health) (q : QueueHandle) :
    reportsOn q [⟨deed, l, (l.setHealth health).2⟩] =
      if l.started ∧ q ∈ l.openQueues ∧ (l.table.options q).suspendsOnBadHostHealth then
        [!health.isHealthy]
      else [] := by
  have hqueues : l.openQueues.Nodup := List.Nodup.of_map _ hdistinct
  have hreports : (BooksTurn.mk deed l (l.setHealth health).2).reports =
      Stage.announced l health := by
    rw [BooksTurn.reports, Ledger.health_setHealth]
  rw [reportsOn, List.flatMap_singleton, hreports, Stage.announced]
  by_cases hstarted : l.started = true
  · rw [if_pos ⟨hstarted, hnew⟩, said_of_nodup (hqueues.filter _)]
    simp [hstarted]
  · rw [if_neg fun h => hstarted h.1, if_neg fun h => hstarted h.1]
    rfl

private theorem KeptUp.setHealth (h : KeptUp q first turns l) (hknown : l.Known)
    (hdistinct : l.Distinct) {health : HealthState} (hnew : l.health ≠ health)
    (hsilent : ¬ (BooksTurn.mk deed l (l.setHealth health).2).Silent q) :
    KeptUp q first (turns ++ [⟨deed, l, (l.setHealth health).2⟩]) (l.setHealth health).2 := by
  have hsaid := reportsOn_setHealth deed hdistinct hnew q
  have hlength := Nat.le_of_eq (l.length_setHealth health).symm
  by_cases hopen : q ∈ l.openQueues
  case neg =>
    have hclosed : q ∉ (l.setHealth health).2.openQueues := by
      rwa [Ledger.openQueues_setHealth]
    rw [if_neg fun h => hopen h.2.1] at hsaid
    exact h.unsaid hlength hsaid (fun h => absurd h hclosed) (fun h => absurd h hclosed)
  have hopen' : q ∈ (l.setHealth health).2.openQueues := by
    rwa [Ledger.openQueues_setHealth]
  have hstate := congrArg QueueState.suspended (Ledger.state_setHealth hknown hnew hopen)
  have hheeds := Ledger.heeds_setHealth hknown health hopen (h.heeds hopen)
  have hbefore := (Ledger.hasSuspended_of_mem hopen).trans (h.heeds hopen)
  have hafter := (Ledger.hasSuspended_of_mem hopen').trans hstate
  cases hasks : (l.table.options q).suspendsOnBadHostHealth with
  | false =>
    rw [hasks, if_neg Bool.false_ne_true] at hafter
    rw [hasks, if_neg fun h => Bool.false_ne_true h.2.2] at hsaid
    refine h.unsaid hlength hsaid (fun _ => ?_) fun _ => hheeds
    exact (hafter.trans (Ledger.hasSuspended_of_mem hopen).symm).trans (h.last hopen)
  | true =>
    rw [hasks, if_pos rfl] at hafter
    have hflip : l.hasSuspended q ≠ !health.isHealthy := by
      rw [hbefore, Ledger.wouldSuspend, hasks, Bool.true_and]
      revert hnew
      cases l.health <;> cases health <;> decide
    have hstarted : l.started = true := by
      by_contra hstopped
      -- otherwise the flag would have changed in silence
      refine hsilent ⟨hopen', ?_, ?_⟩
      · rw [hafter]
        exact hflip.symm
      · simp [BooksTurn.reports, Stage.announced, hstopped]
    rw [if_pos ⟨hstarted, hopen, hasks⟩] at hsaid
    have hmore : reportsOn q (turns ++ [⟨deed, l, (l.setHealth health).2⟩]) =
        reportsOn q turns ++ [!health.isHealthy] := by
      rw [reportsOn_concat, hsaid]
    refine ⟨?_, fun _ => ?_, fun _ => hheeds, .inl (Nat.lt_of_lt_of_le (hknown q hopen) hlength)⟩
    · rw [hmore, ← List.cons_append]
      refine List.isChain_append.mpr ⟨h.alternate, List.isChain_singleton _, fun x hx y hy => ?_⟩
      rw [List.getLast?_cons, ← List.getLastD_eq_getLast?, ← h.last hopen] at hx
      cases hx
      cases hy
      exact hflip
    · rw [hmore, List.getLastD_concat]
      exact hafter

end

namespace BooksTurn

/-- A queue's flag changes in silence only where a call configures the queue or opens it on an
unhealthy host, or where the client is not started when the host's health changes. -/
theorem Regular.silent {t : BooksTurn} (h : t.Regular) (hknown : t.before.Known)
    (hdistinct : t.before.Distinct) {q : QueueHandle} (hsilent : t.Silent q) :
    t.deed.configured? = some q.uri ∨
      (q ∉ t.before.openQueues ∧ t.after.health = .unhealthy) ∨
      (t.before.health ≠ t.after.health ∧ t.before.started = false) := by
  obtain ⟨hopen, hchanged, hunsaid⟩ := hsilent
  rw [Ledger.hasSuspended_of_mem hopen] at hchanged
  have hkept (hbefore : q ∈ t.before.openQueues) (hstate : ∃ valid,
      t.after.table.state q = { t.before.table.state q with valid }) : False := by
    obtain ⟨_, hstate⟩ := hstate
    rw [Ledger.hasSuspended_of_mem hbefore, QueueTable.isSuspended, hstate] at hchanged
    exact hchanged rfl
  rcases h with hgrows | ⟨uri, hconfigured, hconfigures⟩ | ⟨health, _, hnew, hafter⟩
  · right
    left
    rcases hgrows.openQueues q hopen with hbefore | ⟨hlate, _, hheeds⟩
    · exact (hkept hbefore (hgrows.state q (hknown q hbefore))).elim
    have hclosed : q ∉ t.before.openQueues := fun hopen => Nat.not_lt.mpr hlate (hknown q hopen)
    refine ⟨hclosed, ?_⟩
    rw [Ledger.hasSuspended_of_not_mem hclosed, hheeds, Ledger.wouldSuspend] at hchanged
    cases hhealth : t.after.health with
    | unhealthy => rfl
    | healthy =>
      rw [hhealth] at hchanged
      exact absurd (Bool.and_false _) hchanged
  · left
    have hbefore := hconfigures.openQueues.subset hopen
    rcases hconfigures.others q (hknown q hbefore) with ⟨r, hr, huri, hid⟩ | hstate
    · rw [hconfigured, ← huri, hdistinct.eq_of_id hr hbefore hid]
    · exact (hkept hbefore hstate).elim
  · right
    right
    have hhealth : t.after.health = health := by rw [hafter, Ledger.health_setHealth]
    refine ⟨hhealth ▸ hnew, ?_⟩
    rw [hafter, Ledger.openQueues_setHealth] at hopen
    have hstate := congrArg QueueState.suspended (Ledger.state_setHealth hknown hnew hopen)
    rw [← hafter] at hstate
    by_contra hstarted
    have hasks : (t.before.table.options q).suspendsOnBadHostHealth = true := by
      by_contra hspared
      rw [if_neg hspared] at hstate
      exact hchanged (hstate.trans (Ledger.hasSuspended_of_mem hopen).symm)
    -- on a started client the change is reported for each queue that asks for it
    refine hunsaid ?_
    rw [reports, Stage.announced, hhealth, if_pos ⟨by simpa using hstarted, hnew⟩, List.map_map]
    exact List.mem_map.mpr ⟨q, List.mem_filter.mpr ⟨hopen, hasks⟩, rfl⟩

end BooksTurn

namespace Session

section

variable {s : Session Stage} {host : HostCode Stage} (hs : s.client = Stage.client host)
  (hhost : host.Detached)

include hs hhost

private theorem Turns.keptUp {b₀ b : Bridge Stage} {turns : List BooksTurn} (hb₀ : Orderly b₀)
    (h : s.Turns host b₀ turns b) {q : QueueHandle}
    (hheeds : q ∈ b₀.native.ledger.openQueues → b₀.native.ledger.Heeds q)
    (hsilent : ∀ t ∈ turns, ¬ t.Silent q) :
    KeptUp q (b₀.native.ledger.hasSuspended q) turns b.native.ledger := by
  induction h with
  | none =>
    refine ⟨List.isChain_singleton _, fun _ => rfl, hheeds, ?_⟩
    by_cases hopen : q ∈ b₀.native.ledger.openQueues
    · exact .inl (hb₀.known q hopen)
    · exact .inr ⟨rfl, Ledger.hasSuspended_of_not_mem hopen⟩
  | next hrun hdeed ih =>
    have hb := hrun.orderly hs hhost hb₀
    have hlast := hsilent _ (List.mem_append_right _ (List.mem_singleton_self _))
    have hkept := ih fun t ht => hsilent t (List.mem_append_left _ ht)
    rcases (Deed.turned hs hhost hb.pending hdeed).regular with
      hgrows | ⟨_, _, hconfigures⟩ | ⟨health, _, hnew, hledger⟩
    · exact hkept.proceeds hb.known hgrows.proceeds hlast
    · exact hkept.proceeds hb.known hconfigures.proceeds hlast
    · simp only at hledger hnew
      rw [hledger] at hlast ⊢
      exact hkept.setHealth hb.known hb.distinct hnew hlast

end

/-! ## Runs that are carried out -/

section

variable (s : Session Stage) (host : HostCode Stage)

def Deed.after? (b : Bridge Stage) : Deed → Option (Bridge Stage)
  | .call c => match c.run s b with
    | .ok _ b' => some b'
    | .error .. => none
  | .setHealth health => match Stage.setHealth host health b with
    | .ok _ b' => some b'
    | .error .. => none
  | .arrange => some b

def carryOut? (turns : List BooksTurn) (b : Bridge Stage) :
    List Deed → Option (List BooksTurn × Bridge Stage)
  | [] => some (turns, b)
  | deed :: rest =>
      (deed.after? s host b).bind fun b' =>
        carryOut? (turns ++ [⟨deed, b.native.ledger, b'.native.ledger⟩]) b' rest

end

private theorem Deed.ends_of_after? {s : Session Stage} {host : HostCode Stage} {deed : Deed}
    {b b' : Bridge Stage} (h : deed.after? s host b = some b') : deed.Ends s host b b' := by
  cases deed with
  | call c =>
    rw [after?] at h
    split at h
    · next x b₁ hrun =>
      cases h
      exact .inl ⟨x, hrun⟩
    · cases h
  | setHealth health =>
    rw [after?] at h
    split at h
    · next x b₁ hrun =>
      cases h
      exact .inl ⟨x, hrun⟩
    · cases h
  | arrange =>
    cases h
    exact ⟨⟨rfl, rfl, rfl, rfl, rfl⟩, rfl⟩

private theorem Turns.carryOut {s : Session Stage} {host : HostCode Stage} {b₀ b b' : Bridge Stage}
    {turns turns' : List BooksTurn} {deeds : List Deed} (h : s.Turns host b₀ turns b)
    (hdeeds : carryOut? s host turns b deeds = some (turns', b')) :
    s.Turns host b₀ turns' b' := by
  induction deeds generalizing turns b with
  | nil =>
    cases hdeeds
    exact h
  | cons deed rest ih =>
    obtain ⟨b₁, hdeed, hrest⟩ := Option.bind_eq_some_iff.mp hdeeds
    exact ih (h.next (Deed.ends_of_after? hdeed)) hrest

def watchful : Session Stage :=
  let options := { quietSession.options with monitorHostHealth := true, hasMonitor := true }
  { quietSession with options }

def quietHost : HostCode Stage := .ending fun _ => .ok

def tries (health : HealthState) (deeds : List Deed)
    (check : List BooksTurn → Bridge Stage → Bool) : Bool :=
  match Stage.create watchful.options { native := { monitor := { state := health } } } with
  | .ok _ b₀ => (carryOut? watchful quietHost [] b₀ deeds).any fun r => check r.1 r.2
  | .error .. => false

private theorem of_tries {health : HealthState} {deeds : List Deed}
    {check : List BooksTurn → Bridge Stage → Bool} (h : tries health deeds check = true) :
    ∃ b b₀ turns b', Stage.create watchful.options b = .ok () b₀ ∧
      watchful.Turns quietHost b₀ turns b' ∧ check turns b' = true := by
  rw [tries] at h
  split at h
  · next b₀ hcreate =>
    obtain ⟨⟨turns, b'⟩, hrun, hcheck⟩ := (Option.any_eq_true ..).mp h
    exact ⟨_, b₀, turns, b', hcreate, Turns.none.carryOut hrun, hcheck⟩
  · cases h

def startClient : Deed := .call (.start none)

def openSensitive : Deed :=
  .call (.openQueue "bmq://d/q" true true { suspendsOnBadHostHealth := true } none)

def sensitive : QueueHandle := ⟨0, "bmq://d/q", .ofAccess true true⟩

/-! ## Alternating reports -/

section

variable {s : Session Stage} {host : HostCode Stage} (hs : s.client = Stage.client host)
  (hhost : host.Detached)

include hs hhost

/-- The client follows the host's health if there is a monitor of it. The host is told of
suspensions in the turns in which its health changes while the client is started. Where the flag of
a queue never changes in silence, the reports on it alternate: they begin with the opposite of its
first flag and end with its last. The flag changes in silence only where the queue is configured, or
opened on an unhealthy host, or where the client is not started. -/
theorem suspension_reports_alternate {options : ClientOptions} {b b₀ b₁ b₂ : Bridge Stage}
    {earlier later : List BooksTurn} (hcreate : Stage.create options b = .ok () b₀)
    (hearlier : s.Turns host b₀ earlier b₁) (hlater : s.Turns host b₁ later b₂) :
    b₀.native.ledger.openQueues = [] ∧
    (options.hasMonitor = true →
      ∀ t ∈ later, t.after.health = t.deed.health?.getD t.before.health) ∧
    (∃ new, b₂.deliveries = b₁.deliveries ++ new ∧
      suspensions new = Stage.addressed (later.flatMap (·.reports))) ∧
    ∀ q : QueueHandle,
      (∀ t ∈ later, t.Silent q → t.deed.configured? = some q.uri ∨
        (q ∉ t.before.openQueues ∧ t.after.health = .unhealthy) ∨
        (t.before.health ≠ t.after.health ∧ t.before.started = false)) ∧
      ((q ∈ b₁.native.ledger.openQueues → b₁.native.ledger.Heeds q) →
        (∀ t ∈ later, ¬ t.Silent q) →
        (b₁.native.ledger.hasSuspended q :: reportsOn q later).IsChain (· ≠ ·) ∧
        (q ∈ b₂.native.ledger.openQueues → b₂.native.ledger.hasSuspended q =
          (reportsOn q later).getLastD (b₁.native.ledger.hasSuspended q))) := by
  obtain ⟨hb₀, hnone, hattentive⟩ := create_ok hcreate
  have hb₁ := hearlier.orderly hs hhost hb₀
  refine ⟨hnone, fun hmonitor => ?_, hlater.told hs hhost hb₁,
    fun q => ⟨fun t ht hsilent => ?_, fun hheeds hsilent => ?_⟩⟩
  · have hattentive₁ := (hearlier.attentive hs hhost hb₀ (hattentive hmonitor)).1
    exact (hlater.attentive hs hhost hb₁ hattentive₁).2
  · obtain ⟨hregular, hknown, hdistinct⟩ := hlater.regular hs hhost hb₁ t ht
    exact hregular.silent hknown hdistinct hsilent
  · have hkept := hlater.keptUp hs hhost hb₁ hheeds hsilent
    exact ⟨hkept.alternate, hkept.last⟩

end

/-- A queue that was opened on an unhealthy host is resumed and suspended again. -/
theorem suspension_reports_alternate_recovered : ∃ b b₀ b₁ b₂ earlier later,
    Stage.create watchful.options b = .ok () b₀ ∧ watchful.Turns quietHost b₀ earlier b₁ ∧
    watchful.Turns quietHost b₁ later b₂ ∧
    sensitive ∈ b₁.native.ledger.openQueues ∧ b₁.native.ledger.hasSuspended sensitive = true ∧
    reportsOn sensitive later = [false, true] ∧
    (∃ new, b₂.deliveries = b₁.deliveries ++ new ∧
      suspensions new = [("bmq://d/q", false), ("bmq://d/q", true)]) ∧
    [true, false, true].IsChain (· ≠ ·) ∧ b₂.native.ledger.hasSuspended sensitive = true := by
  have htries : tries .unhealthy [startClient, openSensitive] (fun _ b₁ =>
      (carryOut? watchful quietHost [] b₁ [.setHealth .healthy, .setHealth .unhealthy]).any
        fun (r : List BooksTurn × Bridge Stage) => decide (sensitive ∈ b₁.native.ledger.openQueues ∧
          b₁.native.ledger.hasSuspended sensitive = true ∧ b₁.native.ledger.Heeds sensitive ∧
          reportsOn sensitive r.1 = [false, true] ∧
          Stage.addressed (r.1.flatMap (·.reports)) =
            [("bmq://d/q", false), ("bmq://d/q", true)] ∧
          (∀ t ∈ r.1, ¬ t.Silent sensitive) ∧
          sensitive ∈ r.2.native.ledger.openQueues)) = true := by decide +kernel
  obtain ⟨b, b₀, earlier, b₁, hcreate, hearlier, hrest⟩ := of_tries htries
  obtain ⟨⟨later, b₂⟩, hrun, hchecked⟩ := (Option.any_eq_true ..).mp hrest
  obtain ⟨hopen, hsuspended, hheeds, hreports, haddressed, hsilent, hopen'⟩ :=
    of_decide_eq_true hchecked
  have hlater := Turns.none.carryOut hrun
  obtain ⟨_, _, htold, hqueues⟩ := suspension_reports_alternate rfl (HostCode.detached_ending _)
    hcreate hearlier hlater
  obtain ⟨halternate, hlast⟩ := (hqueues sensitive).2 (fun _ => hheeds) hsilent
  rw [haddressed] at htold
  rw [hsuspended, hreports] at halternate hlast
  exact ⟨b, b₀, b₁, b₂, earlier, later, hcreate, hearlier, hlater, hopen, hsuspended, hreports,
    htold, halternate, hlast hopen'⟩

/-- A queue that is opened on an unhealthy host is suspended and not reported so, and is then
reported resumed; a queue that recovers while the client is not started is reported suspended
twice. -/
theorem suspension_reports_unpaired :
    (∃ b b₀ turns b', Stage.create watchful.options b = .ok () b₀ ∧
      watchful.Turns quietHost b₀ turns b' ∧ b'.gate.started = true ∧
      sensitive ∈ b'.native.ledger.openQueues ∧ b'.native.ledger.hasSuspended sensitive = true ∧
      suspensions b'.deliveries = []) ∧
    (∃ b b₀ turns b', Stage.create watchful.options b = .ok () b₀ ∧
      watchful.Turns quietHost b₀ turns b' ∧
      reportsOn sensitive turns = [false] ∧ suspensions b'.deliveries = [("bmq://d/q", false)]) ∧
    ∃ b b₀ turns b', Stage.create watchful.options b = .ok () b₀ ∧
      watchful.Turns quietHost b₀ turns b' ∧
      reportsOn sensitive turns = [true, true] ∧
      suspensions b'.deliveries = [("bmq://d/q", true), ("bmq://d/q", true)] := by
  have hopened : tries .unhealthy [startClient, openSensitive] (fun _ b' =>
      decide (b'.gate.started = true ∧ sensitive ∈ b'.native.ledger.openQueues ∧
        b'.native.ledger.hasSuspended sensitive = true ∧
        suspensions b'.deliveries = [])) = true := by decide +kernel
  have hresumed : tries .unhealthy [startClient, openSensitive, .setHealth .healthy]
      (fun turns b' => decide (reportsOn sensitive turns = [false] ∧
        suspensions b'.deliveries = [("bmq://d/q", false)])) = true := by decide +kernel
  have htwice : tries .healthy [startClient, openSensitive, .setHealth .unhealthy,
      .call (.stop false), .setHealth .healthy, startClient, .setHealth .unhealthy]
      (fun turns b' => decide (reportsOn sensitive turns = [true, true] ∧
        suspensions b'.deliveries = [("bmq://d/q", true), ("bmq://d/q", true)])) = true := by
    decide +kernel
  obtain ⟨b₁, c₁, turns₁, d₁, hcreate₁, hrun₁, hopened⟩ := of_tries hopened
  obtain ⟨b₂, c₂, turns₂, d₂, hcreate₂, hrun₂, hresumed⟩ := of_tries hresumed
  obtain ⟨b₃, c₃, turns₃, d₃, hcreate₃, hrun₃, htwice⟩ := of_tries htwice
  exact ⟨⟨b₁, c₁, turns₁, d₁, hcreate₁, hrun₁, of_decide_eq_true hopened⟩,
    ⟨b₂, c₂, turns₂, d₂, hcreate₂, hrun₂, of_decide_eq_true hresumed⟩,
    ⟨b₃, c₃, turns₃, d₃, hcreate₃, hrun₃, of_decide_eq_true htwice⟩⟩

end Session

end BrokerBridge
