import BrokerBridge.Proofs.Session.Closed

/-!
# The courses of computations

A course relates the start of a computation to each of its ends and says how it ended: by itself,
or by a panic with its cause. A course that can be put together from those of parts is carried
from the calls of a client to the operations of its session.
-/

namespace BrokerBridge

variable {ν α β ε : Type}

abbrev Course (ν : Type) := Option Panic → Bridge ν → Bridge ν → Prop

structure Alike (b b' : Bridge ν) : Prop where
  native : b'.native = b.native
  deliveries : b'.deliveries = b.deliveries
  unhandled : b'.diagnostics.unhandled = b.diagnostics.unhandled
  stops : b'.stops = b.stops
  started : b'.gate.started = b.gate.started
  waiting : b'.gate.waiting = b.gate.waiting

theorem Alike.trans {b₁ b₂ b₃ : Bridge ν} (h₁ : Alike b₁ b₂) (h₂ : Alike b₂ b₃) :
    Alike b₁ b₃ where
  native := h₂.native.trans h₁.native
  deliveries := h₂.deliveries.trans h₁.deliveries
  unhandled := h₂.unhandled.trans h₁.unhandled
  stops := h₂.stops.trans h₁.stops
  started := h₂.started.trans h₁.started
  waiting := h₂.waiting.trans h₁.waiting

namespace Course

/-- A part that ends by itself may stand before another part, or after one as its cleanup. -/
structure Composes (R : Course ν) : Prop where
  alike : ∀ {b b'}, Alike b b' → R none b b'
  raise : ∀ cause b, R (some cause) b b
  before : ∀ {e b₁ b₂ b₃}, R none b₁ b₂ → R e b₂ b₃ → R e b₁ b₃
  after : ∀ {e b₁ b₂ b₃}, R e b₁ b₂ → R none b₂ b₃ → R e b₁ b₃

theorem Composes.refl {R : Course ν} (hR : R.Composes) (b : Bridge ν) : R none b b :=
  hR.alike ⟨rfl, rfl, rfl, rfl, rfl, rfl⟩

private theorem composes_alike : Composes fun _ => Alike (ν := ν) where
  alike h := h
  raise _ _ := ⟨rfl, rfl, rfl, rfl, rfl, rfl⟩
  before h₁ h₂ := h₁.trans h₂
  after h₁ h₂ := h₁.trans h₂

def endingOf : Except Panic α → Option Panic
  | .ok _ => none
  | .error cause => some cause

def reported (b : Bridge ν) (context error : String) : Bridge ν :=
  { b with diagnostics :=
    { b.diagnostics with unhandled := b.diagnostics.unhandled ++ [⟨context, error⟩] } }

structure Notes (R : Course ν) : Prop where
  deliver : ∀ (b : Bridge ν) d, R none b { b with deliveries := b.deliveries ++ [d] }
  report : ∀ b context error, R none b (reported b context error)
  caught : ∀ {b b' cause} context, R (some cause) b b' →
    R none b
      (reported b' context ("callback panicked: " ++ cause.text.getD HostOutcome.opaquePanic))

/-- The gate does not matter, and a stop that waited ends with its outcome. -/
structure Admits (R : Course ν) : Prop where
  gate : ∀ (b : Bridge ν) gate, R none b { b with gate }
  stopped : ∀ {b b' result} thread, R (endingOf result) b b' →
    R none b { b' with stops := b'.stops ++ [⟨thread, result⟩] }

end Course

namespace Act

open Course

structure Follows (R : Course ν) (a : Act ν α) : Prop where
  ok : ∀ {b x b'}, a b = .ok x b' → R none b b'
  panic : ∀ {b cause b'}, a b = .error (.panic cause) b' → R (some cause) b b'

section

variable {R : Course ν}

theorem Follows.attempt {body : Act ν α} (h : Follows R body) {b b' : Bridge ν}
    {r : Except Panic α} (hb : attempt body b = .ok r b') : R (endingOf r) b b' := by
  unfold Act.attempt at hb
  split at hb
  · next hbody =>
    cases hb
    exact h.ok hbody
  · next hbody =>
    cases hb
    exact h.panic hbody
  · cases hb

theorem follows_modify {f : Bridge ν → Bridge ν} (hf : ∀ b, R none b (f b)) :
    Follows R (modify f : Act ν Unit) where
  ok h := by
    cases h
    exact hf _
  panic h := by cases h

theorem follows_onNative {f : ν → α × ν}
    (hf : ∀ b : Bridge ν, R none b { b with native := (f b.native).2 }) :
    Follows R (onNative f) where
  ok {b x b'} h := by
    cases h
    exact hf b
  panic h := by cases h

variable (hR : R.Composes)

include hR

theorem follows_pure (x : α) : Follows R (pure x : Act ν α) where
  ok h := by
    cases h
    exact hR.refl _
  panic h := by cases h

theorem follows_bind {m : Act ν α} {k : α → Act ν β} (hm : Follows R m)
    (hk : ∀ x, Follows R (k x)) : Follows R (m >>= k) where
  ok h := by
    obtain ⟨x, b₁, h₁, h₂⟩ := bind_eq_ok.mp h
    exact hR.before (hm.ok h₁) ((hk x).ok h₂)
  panic h := by
    rcases bind_eq_error.mp h with h₁ | ⟨x, b₁, h₁, h₂⟩
    · exact hm.panic h₁
    · exact hR.before (hm.ok h₁) ((hk x).panic h₂)

theorem follows_get : Follows R (get : Act ν (Bridge ν)) where
  ok h := by
    cases h
    exact hR.refl _
  panic h := by cases h

theorem follows_throw (i : Interrupt) : Follows R (throw i : Act ν α) where
  ok h := by cases h
  panic h := by
    cases h
    exact hR.raise _ _

theorem follows_ensuring {body : Act ν α} {cleanup : Act ν Unit} (hbody : Follows R body)
    (hcleanup : Follows R cleanup) (hquiet : NeverPanics cleanup) :
    Follows R (ensuring body cleanup) where
  ok h := by
    obtain ⟨b₁, _, h₁, h₂⟩ := body_of_ensuring_ok h
    exact hR.after (hbody.ok h₁) (hcleanup.ok h₂)
  panic h := by
    obtain ⟨b₁, _, h₁, h₂⟩ := body_of_ensuring_panic hquiet h
    exact hR.after (hbody.panic h₁) (hcleanup.ok h₂)

/-! ## Locks, threads and warnings -/

theorem follows_enterHost (levels : Nat) : Follows R (enterHost levels : Act ν Unit) where
  ok {b x b'} h := by
    rw [enterHost_apply] at h
    split at h
    · cases h
      exact hR.alike ⟨rfl, rfl, rfl, rfl, rfl, rfl⟩
    · cases h
  panic h := absurd h (neverPanics_enterHost levels _ _ _)

theorem follows_inHost {body : Act ν α} (h : Follows R body) : Follows R (inHost body) := by
  apply follows_bind hR (follows_enterHost hR 1)
  intro _
  apply follows_ensuring hR h _ (neverPanics_modify _)
  exact follows_modify fun b => hR.alike ⟨rfl, rfl, rfl, rfl, rfl, rfl⟩

theorem follows_stepOut : Follows R (stepOut : Act ν Nat) where
  ok {b x b'} h := by
    cases h
    exact hR.alike ⟨rfl, rfl, rfl, rfl, rfl, rfl⟩
  panic h := by cases h

theorem follows_stepBack (saved : Nat) : Follows R (stepBack saved : Act ν Unit) := by
  unfold stepBack
  split
  · exact follows_pure hR _
  · exact follows_enterHost hR saved

theorem follows_outsideHost {body : Act ν α} (h : Follows R body) :
    Follows R (outsideHost body) := by
  apply follows_bind hR (follows_stepOut hR)
  intro saved
  exact follows_ensuring hR h (follows_stepBack hR saved) (neverPanics_stepBack saved)

private theorem follows_warn (text : String) :
    Follows R (warn text : Act ν (Except SessionError Unit)) := by
  apply follows_bind hR
  · exact follows_modify fun b => hR.alike ⟨rfl, rfl, rfl, rfl, rfl, rfl⟩
  intro _
  exact follows_bind hR (follows_get hR) fun _ => follows_pure hR _

theorem follows_observe (f : Counters → Counters) : Follows R (observe f : Act ν Unit) :=
  follows_modify fun _ => hR.alike ⟨rfl, rfl, rfl, rfl, rfl, rfl⟩

theorem closed_follows : Closed fun a _ => Follows R a where
  done := follows_pure hR
  andThen := follows_bind hR
  reads := follows_get hR
  fails := follows_throw hR
  inside := follows_inHost hR
  outside := follows_outsideHost hR
  counts := follows_observe hR

private theorem ending_of_onThread {t : ThreadId} {body : Act ν α} (h : Follows R body)
    {b b' : Bridge ν} {r : Except Panic α}
    (hb : onThread t (attempt body) b = .ok r b') : R (endingOf r) b b' := by
  obtain ⟨_, b₁, hget, hb⟩ := bind_eq_ok.mp hb
  cases hget
  obtain ⟨_, b₂, hset, hb⟩ := bind_eq_ok.mp hb
  cases hset
  obtain ⟨b₃, _, hbody, hback⟩ := body_of_ensuring_ok hb
  cases hback
  refine hR.before ?_ (hR.after (h.attempt hbody) ?_)
  all_goals exact hR.alike ⟨rfl, rfl, rfl, rfl, rfl, rfl⟩

/-! ## The gate -/

omit hR in
theorem follows_modifyGate (hgate : R.Admits) (f : Gate → Gate) :
    Follows R (modifyGate f : Act ν Unit) :=
  follows_modify fun b => hgate.gate b _

private theorem follows_changeStarted (hgate : R.Admits) (started : Bool) :
    Follows R (changeStarted started : Act ν Bool) := by
  apply follows_bind hR (follows_get hR)
  intro b
  simp only
  split
  · exact follows_bind hR (follows_modifyGate hgate _) fun _ => follows_pure hR _
  · exact follows_throw hR _

/-! ## Deliveries -/

section

variable (hnotes : R.Notes)

include hnotes

private theorem follows_hostReturned {b b₁ b₂ b' : Bridge ν} {d : Delivery}
    {outcome : Except Panic HostOutcome} (hbefore : R none b b₁)
    (hhost : R (endingOf outcome) b₁ b₂) {u : Unit}
    (h : hostReturned d outcome b₂ = .ok u b') : R none b b' := by
  obtain ⟨_, b₃, hback, h⟩ := bind_eq_ok.mp h
  cases hback
  have hback : Alike b₂ { b₂ with delivering := b₂.delivering - 1 } :=
    ⟨rfl, rfl, rfl, rfl, rfl, rfl⟩
  -- if the callback panicked, this course is still one of a panic, which only its report ends
  have hend := hR.before hbefore (hR.after hhost (hR.alike hback))
  cases hfailure : hostFailure? outcome with
  | none =>
    rw [hfailure] at h
    cases h
    cases outcome with
    | ok outcome => exact hend
    | error cause => cases hfailure
  | some text =>
    rw [hfailure] at h
    obtain ⟨_, b₄, hcount, h⟩ := bind_eq_ok.mp h
    have hend := hR.after hend ((follows_observe hR _).ok hcount)
    cases h
    cases outcome with
    | ok outcome => exact hR.before hend (hnotes.report _ _ _)
    | error cause =>
      cases hfailure
      exact hnotes.caught _ hend

theorem follows_callHost {host : HostCode ν} {d : Delivery} (h : Follows R (host d)) :
    Follows R (callHost host d) where
  ok {b x b'} hcall := by
    obtain ⟨_, b₁, hdeliver, hcall⟩ := bind_eq_ok.mp hcall
    cases hdeliver
    have hdeliver : R none b
        { b with delivering := b.delivering + 1, deliveries := b.deliveries ++ [d] } :=
      hR.before (hnotes.deliver b d) (hR.alike ⟨rfl, rfl, rfl, rfl, rfl, rfl⟩)
    obtain ⟨outcome, b₂, hhost, hreturned⟩ := bind_eq_ok.mp hcall
    exact follows_hostReturned hR hnotes hdeliver (h.attempt hhost) hreturned
  panic {b cause b'} hcall := absurd hcall (neverPanics_callHost host d _ _ _)

end

end

theorem endsIn_of_inHost {body : Act ν α} {r : Except Panic α} {b b' : Bridge ν}
    (h : (inHost body).EndsIn r b b') :
    ∃ b₁ b₂, Alike b b₁ ∧ body.EndsIn r b₁ b₂ ∧ Alike b₂ b' := by
  obtain ⟨_, b₁, henter, hin⟩ := endsIn_of_bind_quiet (neverPanics_enterHost 1) h
  obtain ⟨b₂, _, hbody, hleave⟩ := endsIn_of_ensuring (neverPanics_modify _) hin
  cases hleave
  have hentered := (follows_enterHost composes_alike 1).ok henter
  exact ⟨b₁, b₂, hentered, hbody, ⟨rfl, rfl, rfl, rfl, rfl, rfl⟩⟩

theorem inHost_ok {body : Act ν α} {b b' : Bridge ν} {x : α} (h : inHost body b = .ok x b') :
    ∃ b₁ b₂, Alike b b₁ ∧ body b₁ = .ok x b₂ ∧ Alike b₂ b' :=
  endsIn_of_inHost (r := .ok x) h

theorem ends_of_inHost {body : Act ν α} {b b' : Bridge ν} (h : (inHost body).Ends b b') :
    ∃ b₁ b₂, Alike b b₁ ∧ body.Ends b₁ b₂ ∧ Alike b₂ b' := by
  obtain ⟨r, h⟩ := h.endsIn
  obtain ⟨b₁, b₂, hin, hbody, hout⟩ := endsIn_of_inHost h
  exact ⟨b₁, b₂, hin, hbody.ends, hout⟩

theorem endsIn_of_outsideHost {body : Act ν α} {r : Except Panic α} {b b' : Bridge ν}
    (h : (outsideHost body).EndsIn r b b') :
    ∃ b₁ b₂, Alike b b₁ ∧ body.EndsIn r b₁ b₂ ∧ Alike b₂ b' := by
  have hquiet : NeverPanics (stepOut : Act ν Nat) := fun _ _ _ h => nomatch h
  obtain ⟨saved, b₁, hout, hin⟩ := endsIn_of_bind_quiet hquiet h
  obtain ⟨b₂, _, hbody, hback⟩ := endsIn_of_ensuring (neverPanics_stepBack saved) hin
  exact ⟨b₁, b₂, (follows_stepOut composes_alike).ok hout, hbody,
    (follows_stepBack composes_alike saved).ok hback⟩

theorem outsideHost_ok {body : Act ν α} {b b' : Bridge ν} {x : α}
    (h : outsideHost body b = .ok x b') :
    ∃ b₁ b₂, Alike b b₁ ∧ body b₁ = .ok x b₂ ∧ Alike b₂ b' :=
  endsIn_of_outsideHost (r := .ok x) h

end Act

/-! ## Sessions -/

namespace Session

open Act Course

/-! ## How starts and stops end -/

section

variable {s : Session ν} {b b' : Bridge ν}

/-- A start calls the client, and takes the session for started if the client accepts. -/
theorem endsIn_of_start {timeout : Option Duration} {r : Except Panic (Except SessionError Unit)}
    (h : (s.start timeout).run.EndsIn r b b') : ∃ (answer : Except Panic Int) (b₁ b₂ : Bridge ν),
      Alike b b₁ ∧
      (s.client.start (timeout.getD s.options.timeouts.connect)).EndsIn answer b₁ b₂ ∧
      (match answer with
      | .ok code =>
          if code = Code.success then Alike { b₂ with gate := b₂.gate.setStarted true } b'
          else Alike b₂ b'
      | .error _ => Alike b₂ b') ∧
      r = answer.map fun code =>
        if code = Code.success then .ok () else .error (.ofNative .start code) := by
  have houtside : ∃ answer, EndsIn (outsideHost do
      let code ← s.client.start (timeout.getD s.options.timeouts.connect)
      if code = Code.success then
        let _ ← Act.changeStarted true
      return code) answer b b' ∧ r = answer.map fun code =>
        if code = Code.success then .ok () else .error (.ofNative .start code) := by
    rcases endsIn_of_opBind_op h with ⟨code, b₁, hrun, hcode⟩ | ⟨cause, hr, hrun⟩
    · refine ⟨.ok code, ?_⟩
      by_cases haccepted : code = Code.success
      · rw [if_neg (not_not_intro haccepted)] at hcode
        obtain ⟨hr, rfl⟩ := endsIn_pure hcode
        exact ⟨hrun, hr.trans (congrArg Except.ok (if_pos haccepted).symm)⟩
      · rw [if_pos haccepted] at hcode
        obtain ⟨hr, rfl⟩ := endsIn_pure hcode
        exact ⟨hrun, hr.trans (congrArg Except.ok (if_neg haccepted).symm)⟩
    · exact ⟨.error cause, hrun, hr⟩
  obtain ⟨answer, houtside, hr⟩ := houtside
  obtain ⟨b₁, b₂, hbefore, hbody, hafter⟩ := endsIn_of_outsideHost houtside
  rcases endsIn_of_bind hbody with ⟨code, b₃, hstart, hrest⟩ | ⟨cause, rfl, hstart⟩
  · refine ⟨.ok code, b₁, b₃, hbefore, hstart, ?_⟩
    simp only
    split at hrest
    · next haccepted =>
      obtain ⟨_, b₄, hchange, hrest⟩ :=
        endsIn_of_bind_quiet (neverPanics_changeStarted true) hrest
      obtain ⟨rfl, rfl⟩ := endsIn_pure hrest
      obtain ⟨_, _, rfl⟩ := eq_of_changeStarted hchange
      rw [if_pos haccepted]
      exact ⟨hafter, hr⟩
    · next hrefused =>
      obtain ⟨rfl, rfl⟩ := endsIn_pure hrest
      rw [if_neg hrefused]
      exact ⟨hafter, hr⟩
  · exact ⟨.error cause, b₁, b₂, hbefore, hstart, hafter, hr⟩

private theorem endsIn_of_warning {warns : Bool} {text : String}
    {r : Except Panic (Except SessionError Unit)}
    (h : (if warns then ExceptT.mk (Act.warn text) else pure () : Op ν SessionError Unit).run.EndsIn
      r b b') : Alike b b' ∧ r = .ok
        (if warns && b'.diagnostics.escalate then .error (.warning text) else .ok ()) := by
  cases warns with
  | true =>
    cases r with
    | error => cases h
    | ok x =>
      cases h
      exact ⟨⟨rfl, rfl, rfl, rfl, rfl, rfl⟩, rfl⟩
  | false =>
    obtain ⟨rfl, rfl⟩ := endsIn_pure h
    exact ⟨⟨rfl, rfl, rfl, rfl, rfl, rfl⟩, rfl⟩

/-- A stop takes the session for stopped, and calls the client if the session was started. What is
warned of then may come out as an error. -/
theorem endsIn_of_stop {warn : Bool} {r : Except Panic (Except SessionError Unit)}
    (h : (s.stop warn).run.EndsIn r b b') : ∃ (answer : Except Panic Unit) (b₁ b₂ : Bridge ν),
      Alike b b₁ ∧ Alike b₂ b' ∧
      (if b.gate.started then
        s.client.stop.EndsIn answer { b₁ with gate := b₁.gate.setStarted false } b₂
      else answer = .ok () ∧ b₂ = { b₁ with gate := b₁.gate.setStarted false }) ∧
      r = answer.map fun _ =>
        if b.gate.started && warn && b'.diagnostics.escalate then
          .error (.warning s.unstoppedWarning)
        else .ok () := by
  have hstopping : ∃ answer : Except Panic Bool, ∃ b₁, EndsIn (outsideHost do
      let wasStarted ← Act.changeStarted false
      if wasStarted then s.client.stop
      return wasStarted) answer b b₁ ∧ Alike b₁ b' ∧ r = answer.map fun wasStarted =>
        if wasStarted && warn && b'.diagnostics.escalate then
          .error (.warning s.unstoppedWarning)
        else .ok () := by
    rcases endsIn_of_opBind_op h with ⟨wasStarted, b₁, hrun, hwarn⟩ | ⟨cause, rfl, hrun⟩
    · refine ⟨.ok wasStarted, b₁, hrun, ?_⟩
      have hwarned := endsIn_of_warning hwarn
      exact ⟨hwarned.1, hwarned.2⟩
    · exact ⟨.error cause, b', hrun, ⟨rfl, rfl, rfl, rfl, rfl, rfl⟩, rfl⟩
  obtain ⟨answer, b₃, houtside, hwarned, hr⟩ := hstopping
  obtain ⟨b₁, b₂, hbefore, hbody, hafter⟩ := endsIn_of_outsideHost houtside
  obtain ⟨wasStarted, b₄, hchange, hbody⟩ :=
    endsIn_of_bind_quiet (neverPanics_changeStarted false) hbody
  obtain ⟨_, rfl, rfl⟩ := eq_of_changeStarted hchange
  rw [← hbefore.started]
  cases hstarted : b₁.gate.started with
  | true =>
    rw [hstarted] at hbody
    rcases endsIn_of_bind hbody with ⟨_, b₄, hstop, hbody⟩ | ⟨cause, rfl, hstop⟩
    · obtain ⟨rfl, rfl⟩ := endsIn_pure hbody
      exact ⟨.ok (), b₁, b₂, hbefore, hafter.trans hwarned, hstop, hr⟩
    · exact ⟨.error cause, b₁, b₂, hbefore, hafter.trans hwarned, hstop, hr⟩
  | false =>
    rw [hstarted] at hbody
    obtain ⟨rfl, rfl⟩ := endsIn_pure hbody
    exact ⟨.ok (), b₁, _, hbefore, hafter.trans hwarned, ⟨rfl, rfl⟩, hr⟩

/-- The last to leave the gate lets nobody in where nobody waits. -/
theorem alike_of_leave {u : Unit} (hwaiting : b.gate.waiting = [])
    (h : s.leave b = .ok u b') : Alike b b' := by
  obtain ⟨_, b₁, hget, h⟩ := bind_eq_ok.mp h
  cases hget
  obtain ⟨_, b₁, hleft, h⟩ := bind_eq_ok.mp h
  cases hleft
  obtain ⟨_, b₁, hget, h⟩ := bind_eq_ok.mp h
  cases hget
  have hsame : ((b.gate.uncount b.thread).release).waiting = b.gate.waiting :=
    Gate.waiting_uncount ..
  have hstarted : ((b.gate.uncount b.thread).release).started = b.gate.started :=
    Gate.started_uncount ..
  simp only at h
  split at h
  · obtain ⟨_, b₁, hclear, h⟩ := bind_eq_ok.mp h
    cases hclear
    rw [hsame, hwaiting] at h
    cases h
    exact ⟨rfl, rfl, rfl, rfl, hstarted, hwaiting.symm⟩
  · cases h
    exact ⟨rfl, rfl, rfl, rfl, hstarted, hsame⟩

end

/-! ## Ways in and out of the gate -/

variable {R : Course ν} (hR : R.Composes) {s : Session ν}

include hR

theorem follows_enter : Follows R (enter : Act ν Bool) := by
  apply follows_bind hR (follows_get hR)
  intro b
  simp only
  split
  · split
    · apply follows_bind hR
      · apply follows_modify
        exact fun b => hR.alike ⟨rfl, rfl, rfl, rfl, Gate.started_count .., Gate.waiting_count ..⟩
      · exact fun _ => follows_pure hR _
    · exact follows_pure hR _
  · exact follows_throw hR _

theorem follows_whileStarted (hleave : Follows R s.leave) (stopped : ε) {body : Op ν ε α}
    (h : Follows R body.run) : Follows R (s.whileStarted stopped body).run := by
  apply follows_outsideHost hR
  apply follows_bind hR (follows_enter hR)
  intro entered
  split
  · exact follows_ensuring hR h hleave neverPanics_leave
  · exact follows_pure hR _

/-! ## Courses for which the gate does not matter -/

section

variable (hgate : R.Admits)

include hgate

theorem follows_start (hstart : ∀ timeout, Follows R (s.client.start timeout))
    (timeout : Option Duration) : Follows R (s.start timeout).run :=
  paired_start (c := s.client) (closed_follows hR).operates hstart
    (follows_changeStarted hR hgate true) timeout

section

variable (hstop : Follows R s.client.stop)

include hstop

theorem follows_stop (warn : Bool) : Follows R (s.stop warn).run :=
  paired_stop (c := s.client) (closed_follows hR).operates hstop
    (follows_changeStarted hR hgate false) (follows_warn hR) warn

private theorem follows_runWaiting (l : List StopRequest) : Follows R (s.runWaiting l) := by
  induction l with
  | nil => exact follows_pure hR _
  | cons r rest ih =>
    constructor
    · intro b x b' h
      obtain ⟨result, b₁, hrun, h⟩ := bind_eq_ok.mp h
      have hended := ending_of_onThread hR (follows_stop hR hgate hstop r.warn) hrun
      obtain ⟨_, b₂, hnote, h⟩ := bind_eq_ok.mp h
      cases hnote
      exact hR.before (hgate.stopped r.thread hended) (ih.ok h)
    · intro b cause b' h
      exact absurd h (neverPanics_runWaiting (r :: rest) _ _ _)

theorem follows_leave : Follows R s.leave := by
  apply follows_bind hR (follows_get hR)
  intro b
  apply follows_bind hR (follows_modifyGate hgate _)
  intro _
  apply follows_bind hR (follows_get hR)
  intro b'
  simp only
  split
  · apply follows_bind hR (follows_modifyGate hgate _)
    exact fun _ => follows_runWaiting hR hgate hstop _
  · exact follows_pure hR _

theorem follows_drop (hnotes : R.Notes) : Follows R s.drop :=
  paired_drop (c := s.client) (closed_follows hR).operates (follows_stop hR hgate hstop true)
    fun context error => follows_modify fun b => hnotes.report b context error

end

end

end Session

end BrokerBridge
