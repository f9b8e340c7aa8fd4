import BrokerBridge.Proofs.Replay.Programs

/-!
# What a rejected call leaves behind

The scripted client changes its books before the call is decided and changes them back when it is
rejected. The open queues, their options and their validity are then as they were. A queue that
was to be configured is left suspended, or not, as the rejected options would have it.
-/

namespace BrokerBridge

open Act

/-! ## Books that can come about -/

namespace Ledger

inductive Reachable : Ledger → Prop where
  | empty : Reachable {}
  | update {l l' : Ledger} : Reachable l → l.Update l' → Reachable l'
  | started {l : Ledger} (started : Bool) : Reachable l → Reachable { l with started }

def Known (l : Ledger) : Prop := ∀ q ∈ l.openQueues, q.id < l.table.states.length

theorem length_setSuspended_all (affected : List QueueHandle) (suspended : Bool)
    (t : QueueTable) :
    (affected.foldl (fun t q => t.setSuspended q suspended) t).states.length =
      t.states.length := by
  induction affected generalizing t with
  | nil => rfl
  | cons q rest ih =>
    rw [List.foldl_cons, ih]
    exact t.length_modify q _

theorem Known.of_length {l l' : Ledger} (h : l.Known)
    (hqueues : ∀ q ∈ l'.openQueues, q ∈ l.openQueues)
    (hlength : l.table.states.length ≤ l'.table.states.length) : l'.Known := by
  intro q hq
  exact Nat.lt_of_lt_of_le (h q (hqueues q hq)) hlength

theorem Known.update {l l' : Ledger} (h : l.Known) (hupdate : l.Update l') : l'.Known := by
  cases hupdate with
  | openQueue uri flags options =>
    unfold Ledger.openQueue
    split
    · exact h
    intro q hq
    have hlength : ((l.table.create uri flags options).2.setSuspended
        (l.table.create uri flags options).1 (l.wouldSuspend options)).states.length =
          l.table.states.length + 1 := by
      simp [QueueTable.setSuspended]
    show q.id < _
    rw [hlength]
    rcases List.mem_append.mp hq with hq | hq
    · exact Nat.lt_succ_of_lt (h q hq)
    · rw [List.mem_singleton.mp hq]
      exact Nat.lt_succ_self _
  | foreignQueue uri flags options =>
    refine h.of_length (fun _ hq => hq) ?_
    simp [Ledger.foreignQueue]
  | configureQueue q options =>
    unfold Ledger.configureQueue
    split
    · refine h.of_length (fun _ hq => hq) ?_
      simp [QueueTable.setSuspended, QueueTable.setOptions]
    · exact h
  | closeQueue q =>
    unfold Ledger.closeQueue
    split
    · refine h.of_length (fun _ hq => (List.mem_filter.mp hq).1) ?_
      simp [remove, QueueTable.invalidate]
    · exact h
  | dropQueue uri =>
    unfold Ledger.dropQueue
    split
    · refine h.of_length (fun _ hq => (List.mem_filter.mp hq).1) ?_
      simp [remove, QueueTable.invalidate]
    · exact h
  | resetOptions q options =>
    refine h.of_length (fun _ hq => hq) ?_
    simp [Ledger.resetOptions, QueueTable.setOptions]
  | setHealth health =>
    unfold Ledger.setHealth
    split
    · exact h
    · refine h.of_length (fun _ hq => hq) ?_
      simp [length_setSuspended_all]
  | post | takePosted | enqueue | takePending => exact h

private theorem Reachable.known {l : Ledger} (h : l.Reachable) : l.Known := by
  induction h with
  | empty => exact fun q hq => nomatch hq
  | update _ hupdate ih => exact ih.update hupdate
  | started _ _ ih => exact ih

/-! ## Changing the books back -/

theorem openQueue_of_refused {l : Ledger} {uri : String} {flags : QueueFlags}
    {options : QueueOptions} (h : (l.openQueue uri flags options).1.code ≠ Code.success) :
    (l.openQueue uri flags options).2 = l := by
  unfold openQueue at h ⊢
  cases hold : l.queue? uri with
  | some existing => rfl
  | none =>
    rw [hold] at h
    exact absurd rfl h

/-- Opening a queue and dropping it again leaves the open queues as they were. -/
theorem dropQueue_openQueue {l : Ledger} (hknown : l.Known) {uri : String} {flags : QueueFlags}
    {options : QueueOptions} (hnew : (l.openQueue uri flags options).1.code = Code.success) :
    ((l.openQueue uri flags options).2.dropQueue uri).openQueues = l.openQueues ∧
      ∀ r ∈ l.openQueues, ((l.openQueue uri flags options).2.dropQueue uri).table.state r =
        l.table.state r := by
  cases hold : l.queue? uri with
  | some existing =>
    rw [openQueue, hold] at hnew
    cases hnew
  | none =>
    have hother : ∀ r ∈ l.openQueues, (r.uri == uri) = false := by
      intro r hr
      have hne := List.find?_eq_none.mp hold r hr
      simpa using hne
    let q : QueueHandle := ⟨l.table.states.length, uri, flags⟩
    have hfound : (l.openQueues ++ [q]).find? (·.uri == uri) = some q := by
      have hnone : l.openQueues.find? (·.uri == uri) = none := hold
      rw [List.find?_append, hnone]
      simp [q]
    have hdrop : (l.openQueue uri flags options).2.dropQueue uri =
        remove { (l.openQueue uri flags options).2 with
          table := (l.openQueue uri flags options).2.table.invalidate q } uri := by
      have hq : (l.openQueue uri flags options).2.queue? uri = some q := by
        rw [openQueue, hold]
        exact hfound
      rw [dropQueue, hq]
    rw [hdrop, openQueue, hold]
    constructor
    · have hkeep : l.openQueues.filter (·.uri != uri) = l.openQueues := by
        apply List.filter_eq_self.mpr
        intro r hr
        simp [bne, hother r hr]
      show (l.openQueues ++ [q]).filter (·.uri != uri) = _
      rw [List.filter_append, hkeep]
      simp [q]
    · intro r hr
      -- the place of the new queue comes after those of all open ones
      have hlt := hknown r hr
      have hne : q.id ≠ r.id := Nat.ne_of_gt hlt
      show (((l.table.create uri flags options).2.modify q _).modify q _).state r = _
      rw [QueueTable.state_modify_of_ne hne, QueueTable.state_modify_of_ne hne,
        QueueTable.state_create_of_lt hlt]

/-- Configuring a queue and putting its options back leaves the flag that the options asked for. -/
theorem resetOptions_configureQueue {l : Ledger} (hknown : l.Known) {q r : QueueHandle}
    (hr : r ∈ l.openQueues) (hcurrent : l.isCurrent q = true) (options : QueueOptions) :
    ((l.configureQueue q options).2.resetOptions q (l.table.options q)).table.state r =
      if r.sameQueue q then { l.table.state r with suspended := l.wouldSuspend options }
      else l.table.state r := by
  rw [configureQueue, if_pos hcurrent]
  show (((l.table.modify q _).modify q _).modify q _).state r = _
  by_cases hsame : r.id = q.id
  · -- handles of one identity share their place in the table, whatever their addresses
    have hlt : q.id < l.table.states.length := by
      rw [← hsame]
      exact hknown r hr
    have hstate (t : QueueTable) : t.state r = t.state q := by
      simp only [QueueTable.state, hsame]
    have hsameQueue : r.sameQueue q = true := beq_iff_eq.mpr hsame
    rw [if_pos hsameQueue, hstate, QueueTable.state_modify (by simpa using hlt),
      QueueTable.state_modify (by simpa using hlt), QueueTable.state_modify hlt, ← hstate]
    rw [QueueTable.options, ← hstate]
  · have hne : q.id ≠ r.id := fun h => hsame h.symm
    have hother : ¬ r.sameQueue q = true := fun h => hsame (beq_iff_eq.mp h)
    rw [if_neg hother, QueueTable.state_modify_of_ne hne, QueueTable.state_modify_of_ne hne,
      QueueTable.state_modify_of_ne hne]

end Ledger

/-! ## Runs -/

def Accountable (b b' : Bridge Stage) : Prop :=
  b.native.ledger.Reachable → b'.native.ledger.Reachable

private theorem accountable_parts : Stage.Parts fun _ => Accountable where
  composes :=
    { alike := fun h hb => by rwa [h.native]
      raise := fun _ _ hb => hb
      before := fun h₁ h₂ hb => h₂ (h₁ hb)
      after := fun h₁ h₂ hb => h₂ (h₁ hb) }
  notes :=
    { deliver := fun _ _ hb => hb
      report := fun _ _ _ hb => hb
      caught := fun _ h hb => h hb }
  aside h hb := by
    show Ledger.Reachable _
    rwa [h.ledger]
  update h hb := hb.update h
  observe _ := Stage.follows_observe fun _ _ _ hb => hb

private theorem accountable_lifecycle : Stage.CarriesLifecycle fun _ => Accountable where
  admits :=
    { gate := fun _ _ hb => hb
      stopped := fun _ h hb => h hb }
  started _ started hb := hb.started started

/-- The books of a program on a session come about by changes of books that can come about. -/
theorem Session.Program.reachable {α : Type} {s : Session Stage} {host : HostCode Stage}
    {lifecycle : Bool} (hs : s.client = Stage.client host) (hhost : host.Layered lifecycle)
    {a : Act Stage α} (h : s.Program host lifecycle a) : Follows (fun _ => Accountable) a := by
  have hcarries := accountable_parts.carries accountable_lifecycle
  exact h.follows_layered hcarries (fun _ => accountable_lifecycle) hs hhost

/-! ## Rejected calls -/

inductive DecidedCall where
  | openQueue (uri : String) (flags : QueueFlags) (options : QueueOptions) (timeout : Duration)
  | configureQueue (q : QueueHandle) (options : QueueOptions) (timeout : Duration)
  | closeQueue (q : QueueHandle) (timeout : Duration)
  | confirm (q : QueueHandle) (guid : Guid)

namespace DecidedCall

def perform (host : HostCode Stage) : DecidedCall → Act Stage Int
  | openQueue uri flags options timeout =>
      return (← Stage.openQueue host uri flags options timeout).code
  | configureQueue q options timeout => return (← Stage.configureQueue q options timeout).code
  | closeQueue q timeout => return (← Stage.closeQueue q timeout).code
  | confirm q guid => Stage.confirm q guid

def call : DecidedCall → NativeCall
  | openQueue uri flags options timeout => .openQueue uri flags options timeout
  | configureQueue q options timeout => .configureQueue q.uri options timeout
  | closeQueue q timeout => .closeQueue q.uri timeout
  | confirm q guid => .confirm q.uri guid

def verdict (codes : Verdicts) : DecidedCall → Int
  | openQueue .. => codes.openQueue
  | configureQueue .. => codes.configureQueue
  | closeQueue .. => codes.closeQueue
  | confirm .. => codes.confirm

/-- Whether a queue is left suspended when the call has been rejected. -/
def flagLeft (l : Ledger) (r : QueueHandle) : DecidedCall → Bool
  | configureQueue q options _ =>
      if l.isCurrent q && r.sameQueue q then l.wouldSuspend options else l.table.isSuspended r
  | _ => l.table.isSuspended r

end DecidedCall

namespace Ledger

/-- The same queues are open, and each is as it was but for being suspended. -/
structure LeftBy (l l' : Ledger) (flag : QueueHandle → Bool) : Prop where
  openQueues : l'.openQueues = l.openQueues
  state : ∀ r ∈ l.openQueues, l'.table.state r = { l.table.state r with suspended := flag r }

private theorem leftBy_of_eq {l l' : Ledger} (h : l' = l) : l.LeftBy l' l.table.isSuspended := by
  subst h
  exact ⟨rfl, fun _ _ => rfl⟩

private theorem LeftBy.pack_eq {l l' : Ledger} {flag : QueueHandle → Bool} (h : l.LeftBy l' flag)
    {r : QueueHandle} (hr : r ∈ l.openQueues) (hflag : flag r = l.table.isSuspended r)
    (builder : EventBuilder) (guid : Guid) (m : OutgoingMessage) :
    builder.pack l'.table guid r m = builder.pack l.table guid r m := by
  have hstate : l'.table.state r = l.table.state r := by
    rw [h.state r hr, hflag]
    rfl
  -- the rules read nothing of the table but the state of this queue
  have hholds (rule : PackingRule) : rule.holds builder.maxPayload l'.table r m =
      rule.holds builder.maxPayload l.table r m := by
    cases rule with
    | queueValid => exact congrArg QueueState.valid hstate
    | queueNotSuspended => exact congrArg (!QueueState.suspended ·) hstate
    | queueWritable | correlationPresent | payloadNonempty | payloadWithinLimit => rfl
  simp only [EventBuilder.pack, hholds]

end Ledger

namespace Stage

variable {b b' : Bridge Stage}

private theorem rejected_ok {α : Type} {call : NativeCall} {code : Verdicts → Int} {x : α}
    {undo accept : Int → Act Stage α} (hcode : code b.native.codes ≠ Code.success)
    (h : inHost (settle call code >>= fun c =>
      if c ≠ Code.success then undo c else accept c) b = .ok x b') :
    ∃ b₁ b₂, b₁.native.ledger = b.native.ledger ∧
      undo (code b.native.codes) b₁ = .ok x b₂ ∧ b'.native = b₂.native := by
  obtain ⟨b₁, b₂, hin, h, hout⟩ := inHost_ok h
  obtain ⟨_, b₃, hsettle, h⟩ := bind_eq_ok.mp h
  obtain ⟨rfl, hledger⟩ := settle_ok hsettle
  rw [hin.native] at h hledger
  rw [if_pos hcode] at h
  exact ⟨b₃, b₂, hledger, h, hout.native⟩

private theorem openQueue_rejected {host : HostCode Stage} {uri : String} {flags : QueueFlags}
    {options : QueueOptions} {timeout : Duration} {status : QueueStatus}
    (hcode : b.native.codes.openQueue ≠ Code.success)
    (h : openQueue host uri flags options timeout b = .ok status b') :
    status.code ≠ Code.success ∧
      (b'.native.ledger = b.native.ledger ∨
        (b.native.ledger.openQueue uri flags options).1.code = Code.success ∧
          b'.native.ledger = (b.native.ledger.openQueue uri flags options).2.dropQueue uri) := by
  obtain ⟨_, b₁, hobserve, h⟩ := bind_eq_ok.mp h
  obtain ⟨hledger₁, hcodes₁⟩ := observe_ok hobserve
  obtain ⟨opened, b₂, hopen, h⟩ := bind_eq_ok.mp h
  obtain ⟨hopened, hledger₂, hcodes₂⟩ := ledgerUpdate_ok hopen
  rw [hledger₁] at hopened hledger₂
  rw [← hcodes₁, ← hcodes₂] at hcode
  by_cases hnew : opened.code ≠ Code.success
  · rw [if_pos hnew] at h
    cases h
    refine ⟨hnew, .inl ?_⟩
    rw [hledger₂]
    rw [hopened] at hnew
    exact Ledger.openQueue_of_refused hnew
  · rw [if_neg hnew] at h
    obtain ⟨b₃, b₄, hledger₃, h, hout⟩ := rejected_ok hcode h
    obtain ⟨_, b₅, hdrop, h⟩ := bind_eq_ok.mp h
    cases h
    rw [hopened] at hnew
    refine ⟨hcode, .inr ⟨Decidable.not_not.mp hnew, ?_⟩⟩
    rw [hout, modifyLedger_ok hdrop, hledger₃, hledger₂]

private theorem configureQueue_rejected {q : QueueHandle} {options : QueueOptions}
    {timeout : Duration}
    {status : QueueStatus} (hcode : b.native.codes.configureQueue ≠ Code.success)
    (h : configureQueue q options timeout b = .ok status b') :
    status.code ≠ Code.success ∧
      if b.native.ledger.isCurrent q then b'.native.ledger =
        (b.native.ledger.configureQueue q options).2.resetOptions q
          (b.native.ledger.table.options q)
      else b'.native.ledger = b.native.ledger := by
  obtain ⟨_, b₁, hobserve, h⟩ := bind_eq_ok.mp h
  obtain ⟨hledger₁, hcodes₁⟩ := observe_ok hobserve
  obtain ⟨_, _, hnative, h⟩ := bind_eq_ok.mp h
  cases hnative
  obtain ⟨configured, b₂, hconfigure, h⟩ := bind_eq_ok.mp h
  obtain ⟨hconfigured, hledger₂, hcodes₂⟩ := ledgerUpdate_ok hconfigure
  rw [hledger₁] at hconfigured hledger₂ h
  rw [← hcodes₁, ← hcodes₂] at hcode
  by_cases hcurrent : b.native.ledger.isCurrent q
  · have hnew : ¬ configured.code ≠ Code.success := by
      rw [hconfigured, Ledger.configureQueue, if_pos hcurrent]
      exact not_not_intro rfl
    rw [if_neg hnew] at h
    obtain ⟨b₃, b₄, hledger₃, h, hout⟩ := rejected_ok hcode h
    obtain ⟨_, b₅, hreset, h⟩ := bind_eq_ok.mp h
    cases h
    rw [if_pos hcurrent]
    refine ⟨hcode, ?_⟩
    rw [hout, modifyLedger_ok hreset, hledger₃, hledger₂]
  · rw [Ledger.configureQueue, if_neg hcurrent] at hconfigured hledger₂
    have hrefused : configured.code ≠ Code.success := by
      rw [hconfigured]
      exact (by decide : Code.invalidQueue ≠ Code.success)
    rw [if_pos hrefused] at h
    cases h
    rw [if_neg hcurrent]
    exact ⟨hrefused, hledger₂⟩

private theorem closeQueue_rejected {q : QueueHandle} {timeout : Duration} {status : QueueStatus}
    (hcode : b.native.codes.closeQueue ≠ Code.success)
    (h : closeQueue q timeout b = .ok status b') :
    status.code ≠ Code.success ∧ b'.native.ledger = b.native.ledger := by
  obtain ⟨_, b₁, hobserve, h⟩ := bind_eq_ok.mp h
  obtain ⟨hledger₁, hcodes₁⟩ := observe_ok hobserve
  obtain ⟨_, _, hnative, h⟩ := bind_eq_ok.mp h
  cases hnative
  rw [← hcodes₁] at hcode
  split at h
  · cases h
    exact ⟨(by decide : Code.unknownQueue ≠ Code.success), hledger₁⟩
  · obtain ⟨b₂, b₃, hledger₂, h, hout⟩ := rejected_ok hcode h
    cases h
    refine ⟨hcode, ?_⟩
    rw [hout, hledger₂, hledger₁]

private theorem confirm_rejected {q : QueueHandle} {guid : Guid} {code : Int}
    (hcode : b.native.codes.confirm ≠ Code.success) (h : confirm q guid b = .ok code b') :
    code ≠ Code.success ∧ b'.native.ledger = b.native.ledger := by
  obtain ⟨_, b₁, hobserve, h⟩ := bind_eq_ok.mp h
  obtain ⟨hledger₁, hcodes₁⟩ := observe_ok hobserve
  obtain ⟨_, _, hnative, h⟩ := bind_eq_ok.mp h
  cases hnative
  rw [← hcodes₁] at hcode
  split at h
  · next hunknown =>
    cases h
    exact ⟨hunknown, hledger₁⟩
  · obtain ⟨b₂, b₃, hin, hsettle, hout⟩ := inHost_ok h
    obtain ⟨hcode₃, hledger₃⟩ := settle_ok hsettle
    rw [hin.native] at hcode₃ hledger₃
    refine ⟨hcode₃ ▸ hcode, ?_⟩
    rw [hout.native, hledger₃, hledger₁]

/-! ### Coming to an end -/

private theorem observe_of_expected {call : NativeCall}
    (h : (b.native.expectations.observe call).1 = .ok ()) :
    observe call b = .ok () { b with native := b.native.checked call } := by
  rw [observe_apply, h]

section

variable (hfree : (b.host.enter? b.thread 1).isSome)

include hfree

private theorem rejected_returns {α : Type} {call : NativeCall} {code : Verdicts → Int}
    {undo accept : Int → Act Stage α} (hcode : code b.native.codes ≠ Code.success)
    (hundo : ∀ c b₁, ∃ x b', undo c b₁ = .ok x b') :
    ∃ x b', inHost (settle call code >>= fun c =>
      if c ≠ Code.success then undo c else accept c) b = .ok x b' := by
  refine returns_inHost hfree ?_
  intro lock
  refine returns_bind rfl ?_
  rw [if_pos hcode]
  exact hundo _ _

private theorem openQueue_returns {host : HostCode Stage} {uri : String} {flags : QueueFlags}
    {options : QueueOptions} {timeout : Duration}
    (hexpected : (b.native.expectations.observe (.openQueue uri flags options timeout)).1 = .ok ())
    (hcode : b.native.codes.openQueue ≠ Code.success) :
    ∃ status b', openQueue host uri flags options timeout b = .ok status b' := by
  refine returns_bind (observe_of_expected hexpected) ?_
  refine returns_bind rfl ?_
  refine returns_ite ⟨_, _, rfl⟩ ?_
  apply rejected_returns
  · exact hfree
  · exact hcode
  · exact fun _ _ => returns_bind rfl ⟨_, _, rfl⟩

private theorem configureQueue_returns {q : QueueHandle} {options : QueueOptions}
    {timeout : Duration}
    (hexpected :
      (b.native.expectations.observe (.configureQueue q.uri options timeout)).1 = .ok ())
    (hcode : b.native.codes.configureQueue ≠ Code.success) :
    ∃ status b', configureQueue q options timeout b = .ok status b' := by
  refine returns_bind (observe_of_expected hexpected) ?_
  refine returns_bind rfl ?_
  refine returns_bind rfl ?_
  refine returns_ite ⟨_, _, rfl⟩ ?_
  apply rejected_returns
  · exact hfree
  · exact hcode
  · exact fun _ _ => returns_bind rfl ⟨_, _, rfl⟩

private theorem closeQueue_returns {q : QueueHandle} {timeout : Duration}
    (hexpected : (b.native.expectations.observe (.closeQueue q.uri timeout)).1 = .ok ())
    (hcode : b.native.codes.closeQueue ≠ Code.success) :
    ∃ status b', closeQueue q timeout b = .ok status b' := by
  refine returns_bind (observe_of_expected hexpected) ?_
  refine returns_bind rfl ?_
  refine returns_ite ⟨_, _, rfl⟩ ?_
  apply rejected_returns
  · exact hfree
  · exact hcode
  · exact fun _ _ => ⟨_, _, rfl⟩

private theorem confirm_returns {q : QueueHandle} {guid : Guid}
    (hexpected : (b.native.expectations.observe (.confirm q.uri guid)).1 = .ok ()) :
    ∃ code b', confirm q guid b = .ok code b' := by
  refine returns_bind (observe_of_expected hexpected) ?_
  refine returns_bind rfl ?_
  refine returns_ite ⟨_, _, rfl⟩ ?_
  apply returns_inHost
  · exact hfree
  · exact fun _ => ⟨_, _, rfl⟩

end

end Stage

namespace DecidedCall

open Stage

private theorem leftBy_of_rejected {host : HostCode Stage} {c : DecidedCall} {b b' : Bridge Stage}
    {code : Int} (hknown : b.native.ledger.Known)
    (hverdict : c.verdict b.native.codes ≠ Code.success) (h : c.perform host b = .ok code b') :
    code ≠ Code.success ∧ b.native.ledger.LeftBy b'.native.ledger
      fun r => c.flagLeft b.native.ledger r := by
  cases c with
  | openQueue uri flags options timeout =>
    obtain ⟨status, _, hopen, h⟩ := bind_eq_ok.mp h
    cases h
    obtain ⟨hcode, hledger⟩ := openQueue_rejected hverdict hopen
    refine ⟨hcode, ?_⟩
    rcases hledger with hledger | ⟨hnew, hledger⟩
    · exact Ledger.leftBy_of_eq hledger
    · obtain ⟨hqueues, hstate⟩ := Ledger.dropQueue_openQueue hknown hnew
      rw [hledger]
      exact ⟨hqueues, hstate⟩
  | configureQueue q options timeout =>
    obtain ⟨status, _, hconfigure, h⟩ := bind_eq_ok.mp h
    cases h
    obtain ⟨hcode, hledger⟩ := configureQueue_rejected hverdict hconfigure
    refine ⟨hcode, ?_⟩
    by_cases hcurrent : b.native.ledger.isCurrent q
    · rw [if_pos hcurrent] at hledger
      rw [hledger]
      constructor
      · rw [Ledger.configureQueue, if_pos hcurrent]
        rfl
      · intro r hr
        rw [Ledger.resetOptions_configureQueue hknown hr hcurrent]
        simp only [flagLeft, hcurrent, Bool.true_and]
        split <;> rfl
    · rw [if_neg hcurrent] at hledger
      rw [hledger]
      constructor
      · rfl
      · intro r _
        simp only [flagLeft, hcurrent, Bool.false_and]
        rfl
  | closeQueue q timeout =>
    obtain ⟨status, _, hclose, h⟩ := bind_eq_ok.mp h
    cases h
    obtain ⟨hcode, hledger⟩ := closeQueue_rejected hverdict hclose
    exact ⟨hcode, Ledger.leftBy_of_eq hledger⟩
  | confirm q guid =>
    obtain ⟨hcode, hledger⟩ := confirm_rejected hverdict h
    exact ⟨hcode, Ledger.leftBy_of_eq hledger⟩

private theorem perform_returns {host : HostCode Stage} {c : DecidedCall} {b : Bridge Stage}
    (hexpected : (b.native.expectations.observe c.call).1 = .ok ())
    (hfree : (b.host.enter? b.thread 1).isSome)
    (hverdict : c.verdict b.native.codes ≠ Code.success) :
    ∃ code b', c.perform host b = .ok code b' := by
  cases c with
  | openQueue =>
    obtain ⟨_, _, h⟩ := openQueue_returns hfree hexpected hverdict
    exact returns_bind h ⟨_, _, rfl⟩
  | configureQueue =>
    obtain ⟨_, _, h⟩ := configureQueue_returns hfree hexpected hverdict
    exact returns_bind h ⟨_, _, rfl⟩
  | closeQueue =>
    obtain ⟨_, _, h⟩ := closeQueue_returns hfree hexpected hverdict
    exact returns_bind h ⟨_, _, rfl⟩
  | confirm => exact confirm_returns hfree hexpected

/-- A call on a queue that is expected, and that its code rejects, returns. It leaves the open
queues, their options and their validity as they were. A queue that was to be configured is left
suspended exactly if the rejected options would have it so; every other is as it was, and takes
the messages it would have taken. -/
theorem rejected_call_leaves_all_but_flag {host : HostCode Stage} {c : DecidedCall}
    {b : Bridge Stage} (hreachable : b.native.ledger.Reachable)
    (hexpected : (b.native.expectations.observe c.call).1 = .ok ())
    (hfree : (b.host.enter? b.thread 1).isSome)
    (hverdict : c.verdict b.native.codes ≠ Code.success) :
    ∃ code b', c.perform host b = .ok code b' ∧ code ≠ Code.success ∧
      b'.native.ledger.openQueues = b.native.ledger.openQueues ∧
      ∀ r ∈ b.native.ledger.openQueues,
        b'.native.ledger.table.state r = { b.native.ledger.table.state r with
          suspended := c.flagLeft b.native.ledger r } ∧
        (c.flagLeft b.native.ledger r = b.native.ledger.table.isSuspended r →
          ∀ (builder : EventBuilder) guid m,
            builder.pack b'.native.ledger.table guid r m =
              builder.pack b.native.ledger.table guid r m) := by
  obtain ⟨code, b', h⟩ := perform_returns hexpected hfree hverdict
  obtain ⟨hcode, hleft⟩ := leftBy_of_rejected hreachable.known hverdict h
  refine ⟨code, b', h, hcode, hleft.openQueues, ?_⟩
  intro r hr
  exact ⟨hleft.state r hr, hleft.pack_eq hr⟩

def openedQueue : QueueHandle := ⟨0, "bmq://d/q", .ofAccess true true⟩

def troubled (options : QueueOptions) : Bridge Stage where
  native :=
    { ledger :=
        ((Ledger.openQueue {} openedQueue.uri openedQueue.flags options).2.setHealth .unhealthy).2
      codes := { configureQueue := -2 } }

private theorem troubled_reachable (options : QueueOptions) :
    (troubled options).native.ledger.Reachable := by
  have hopened := Ledger.Reachable.empty.update
    (.openQueue openedQueue.uri openedQueue.flags options)
  exact hopened.update (.setHealth .unhealthy)

theorem rejected_call_leaves_suspended : ∃ code b',
    (configureQueue openedQueue
      { maxUnconfirmedMessages := 1, suspendsOnBadHostHealth := true } ⟨0⟩).perform
        (.ending fun _ => .ok) (troubled { suspendsOnBadHostHealth := true }) = .ok code b' ∧
    code ≠ Code.success ∧ b'.native.ledger.openQueues = [openedQueue] ∧
    b'.native.ledger.table.state openedQueue =
      { options := { suspendsOnBadHostHealth := true }, suspended := true } ∧
    ∀ (builder : EventBuilder) guid m,
      builder.pack b'.native.ledger.table guid openedQueue m = builder.pack
        (troubled { suspendsOnBadHostHealth := true }).native.ledger.table guid openedQueue m := by
  let c : DecidedCall := configureQueue openedQueue
    { maxUnconfirmedMessages := 1, suspendsOnBadHostHealth := true } ⟨0⟩
  have hreachable := troubled_reachable { suspendsOnBadHostHealth := true }
  obtain ⟨code, b', h, hcode, hqueues, hleft⟩ := @rejected_call_leaves_all_but_flag
    (.ending fun _ => .ok) c (troubled { suspendsOnBadHostHealth := true }) hreachable rfl
    (by decide) (by decide)
  obtain ⟨hstate, hpack⟩ := hleft openedQueue (by decide)
  exact ⟨code, b', h, hcode, hqueues, hstate, hpack (by decide)⟩

/-- Options that are rejected, and put back, leave a queue suspended that was not: a message that
it would have taken is refused. -/
theorem rejected_options_suspend : ∃ b',
    (troubled {}).native.ledger.Reachable ∧
    (configureQueue openedQueue { suspendsOnBadHostHealth := true } ⟨0⟩).perform
      (.ending fun _ => .ok) (troubled {}) = .ok (-2) b' ∧
    (troubled {}).native.ledger.table.state openedQueue = {} ∧
    b'.native.ledger.table.state openedQueue = { suspended := true } ∧
    ((EventBuilder.empty 1).pack (troubled {}).native.ledger.table .zero openedQueue
      ⟨⟨#[1]⟩, none, none, .none⟩).isOk = true ∧
    (EventBuilder.empty 1).pack b'.native.ledger.table .zero openedQueue
      ⟨⟨#[1]⟩, none, none, .none⟩ = .error ⟨-108, ⟨⟨#[1]⟩, none, none, .none⟩⟩ :=
  ⟨_, troubled_reachable {}, rfl, rfl, rfl, rfl, rfl⟩

end DecidedCall

end BrokerBridge
