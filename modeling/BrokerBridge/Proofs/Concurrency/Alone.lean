import BrokerBridge.Proofs.Concurrency.QueueCalls
import BrokerBridge.Proofs.Concurrency.Readers

/-!
# Sections run alone

Where no other thread comes between, the sections of a thread add up to the calls of a session:
the same locks are taken and left, and a post or a call on a queue ends with the same answer in the
same state.
-/

namespace BrokerBridge

variable {ν α ε : Type}

/-! ## The locks of a session -/

def SharedSession.ofBridge (b : Bridge ν) : SharedSession := { gate := b.gate, host := b.host }

/-- A thread goes from one section to the next, and no other thread comes between. -/
inductive Activity.Runs (t : ThreadId) (delivering : Bool) :
    SharedSession → Activity → SharedSession → Activity → Prop
  | refl (s a) : Runs t delivering s a s a
  | step {s a s₁ a₁ s' a'} (h : a.proceed? s t delivering = some (s₁, some a₁))
      (rest : Runs t delivering s₁ a₁ s' a') : Runs t delivering s a s' a'

theorem Activity.Runs.trans {t : ThreadId} {delivering : Bool} {s s₁ s' : SharedSession}
    {a a₁ a' : Activity} (h₁ : Runs t delivering s a s₁ a₁) (h₂ : Runs t delivering s₁ a₁ s' a') :
    Runs t delivering s a s' a' := by
  induction h₁ with
  | refl => exact h₂
  | step h _ ih => exact .step h (ih h₂)

def Activity.RunsOut (t : ThreadId) (delivering : Bool) (s : SharedSession) (a : Activity)
    (s' : SharedSession) : Prop :=
  ∃ s₁ a₁, Runs t delivering s a s₁ a₁ ∧ a₁.proceed? s₁ t delivering = some (s', none)

namespace Act

open SharedSession

private theorem stepOut_ok {b b' : Bridge ν} {saved : Nat} (h : stepOut b = .ok saved b') :
    b' = { b with host := (b.host.leaveAll b.thread).2 } ∧
      saved = (b.host.leaveAll b.thread).1 := by
  cases h
  exact ⟨rfl, rfl⟩

private theorem stepBack_ok {b b' : Bridge ν} {saved : Nat} {u : Unit}
    (h : stepBack saved b = .ok u b') :
    (ofBridge b).stepBack? b.thread saved = some (ofBridge b') := by
  unfold stepBack at h
  unfold stepBack? HostLock.restore? ofBridge
  split at h
  · next hzero =>
    cases h
    simp [hzero]
  · next hsome =>
    rw [enterHost_apply] at h
    split at h
    · next host hhost =>
      cases h
      simp [hsome, hhost]
    · cases h

/-- The started state changes in one section, as long as the thread itself does not wait. -/
theorem changeStarted_ok {b b' : Bridge ν} {started was : Bool}
    (hwaiting : ∀ r ∈ b.gate.waiting, r.thread ≠ b.thread)
    (h : changeStarted started b = .ok was b') :
    was = b.gate.started ∧ (ofBridge b).gate.isClear = true ∧ b'.thread = b.thread ∧
      ofBridge b' = (ofBridge b).change b.thread started := by
  have hfilter : b.gate.waiting.filter (fun r => r.thread != b.thread) = b.gate.waiting := by
    apply List.filter_eq_self.mpr
    intro r hr
    simpa using hwaiting r hr
  obtain ⟨hclear, rfl, rfl⟩ := eq_of_changeStarted h
  refine ⟨rfl, hclear, rfl, ?_⟩
  unfold ofBridge change
  simp only [hfilter]
  rfl

end Act

namespace Session

open Act SharedSession

variable {s : Session ν} {b b' : Bridge ν}

/-- The gate lets an operation in, or the session is stopped and the gate is as it was. -/
theorem enter_ok {entered : Bool} (h : enter b = .ok entered b') (saved : Nat)
    (calls : List QueueCall) :
    b'.thread = b.thread ∧
      Activity.Runs b.thread (b.delivering != 0) (ofBridge b) (.operation .asking saved calls)
        (ofBridge b') (.operation (if entered then .inside else .returning) saved calls) := by
  obtain ⟨b₁, b₂, hget, h⟩ := bind_eq_ok.mp h
  cases hget
  split at h
  · next hadmits =>
    have hadmits : (ofBridge b).admits (b.delivering != 0 || b.gate.isReader b.thread) = true := by
      simpa [admits, ofBridge] using hadmits
    have hhold : (Activity.operation (.entering (b.delivering != 0 || b.gate.isReader b.thread))
        saved calls).proceed? (ofBridge b) b.thread (b.delivering != 0) =
        some ((ofBridge b).onGate .hold, some (.operation .checking saved calls)) := by
      rw [Activity.proceed?, if_pos hadmits]
    split at h
    · next hstarted =>
      cases h
      have hcheck : (Activity.operation .checking saved calls).proceed? ((ofBridge b).onGate .hold)
          b.thread (b.delivering != 0) =
          some ((ofBridge b).onGate .hold, some (.operation .counting saved calls)) := by
        simp [Activity.proceed?, ofBridge, hstarted]
      exact ⟨rfl, .step rfl (.step hhold (.step hcheck (.step rfl (.refl ..))))⟩
    · next hstopped =>
      cases h
      have hcheck : (Activity.operation .checking saved calls).proceed? ((ofBridge b).onGate .hold)
          b.thread (b.delivering != 0) =
          some ((ofBridge b).onGate .hold, some (.operation .releasing saved calls)) := by
        simp [Activity.proceed?, ofBridge, hstopped]
      have hrelease : ((ofBridge b).onGate .hold).onGate .release = ofBridge b := by
        simp [onGate, ofBridge]
      refine ⟨rfl, .step rfl (.step hhold (.step hcheck (.step rfl ?_)))⟩
      rw [hrelease]
      exact .refl ..
  · cases h

/-- Without a stop that waits, an operation leaves the gate in two sections. -/
theorem leave_ok {u : Unit} (hwaiting : b.gate.waiting = []) (h : s.leave b = .ok u b')
    (delivering : Bool) (saved : Nat) (calls : List QueueCall) :
    b'.thread = b.thread ∧
      Activity.Runs b.thread delivering (ofBridge b) (.operation .leaving saved calls)
        (ofBridge b') (.operation .returning saved calls) := by
  have hgate : b'.thread = b.thread ∧
      ofBridge b' = ((ofBridge b).onGate (·.uncount b.thread)).onGate .release := by
    obtain ⟨_, _, hget, h⟩ := bind_eq_ok.mp h
    cases hget
    obtain ⟨_, b₁, hgate, h⟩ := bind_eq_ok.mp h
    cases hgate
    obtain ⟨_, _, hget, h⟩ := bind_eq_ok.mp h
    cases hget
    have hnone : (b.gate.uncount b.thread).release.waiting = [] := by
      rw [← hwaiting]
      exact Gate.waiting_uncount ..
    split at h
    · obtain ⟨_, b₂, hclear, h⟩ := bind_eq_ok.mp h
      cases hclear
      rw [hnone] at h
      cases h
      unfold ofBridge onGate
      rw [← hnone]
      exact ⟨rfl, rfl⟩
    · cases h
      exact ⟨rfl, rfl⟩
  refine ⟨hgate.1, ?_⟩
  rw [hgate.2]
  exact .step rfl (.step rfl (.refl ..))

/-- Stepping back into host execution ends an operation, a start or a stop. -/
theorem returns_of_stepBack {saved : Nat} {u : Unit} (h : stepBack saved b = .ok u b')
    {a : Activity} (ha : (∃ calls, a = .operation .returning saved calls) ∨
      a = .start .returning saved ∨ ∃ warn, a = .stop warn .returning saved) (delivering : Bool) :
    a.proceed? (ofBridge b) b.thread delivering = some (ofBridge b', none) := by
  have hback := stepBack_ok h
  rcases ha with ⟨calls, rfl⟩ | rfl | ⟨warn, rfl⟩
  all_goals
    rw [Activity.proceed?, hback]
    rfl

/-- The sections of an operation around its native calls. A stop that waits for it would run
inside of its last section. -/
theorem whileStarted_sections {stopped : ε} {body : Op ν ε α} {r : Except ε α}
    (h : (s.whileStarted stopped body).run b = .ok r b') (calls : List QueueCall) :
    (r = .error stopped ∧ Activity.RunsOut b.thread (b.delivering != 0) (ofBridge b)
        (.operation .arriving 0 calls) (ofBridge b')) ∨
      ∃ saved b₁ b₂, Activity.Runs b.thread (b.delivering != 0) (ofBridge b)
          (.operation .arriving 0 calls) (ofBridge b₁) (.operation .inside saved calls) ∧
        body.run b₁ = .ok r b₂ ∧
        (b₂.gate.waiting = [] → ∀ delivering left, Activity.RunsOut b₂.thread delivering
          (ofBridge b₂) (.operation .leaving saved left) (ofBridge b')) := by
  obtain ⟨saved, b₁, hout, h⟩ := bind_eq_ok.mp h
  obtain ⟨b₂, _, hinside, hback⟩ := body_of_ensuring_ok h
  obtain ⟨entered, b₃, henter, hbody⟩ := bind_eq_ok.mp hinside
  obtain ⟨rfl, rfl⟩ := stepOut_ok hout
  obtain ⟨hthread, hruns⟩ := enter_ok henter (b.host.leaveAll b.thread).1 calls
  have hout : (Activity.operation .arriving 0 calls).proceed? (ofBridge b) b.thread
      (b.delivering != 0) = some (ofBridge { b with host := (b.host.leaveAll b.thread).2 },
        some (.operation .asking (b.host.leaveAll b.thread).1 calls)) := rfl
  have hruns := Activity.Runs.step hout hruns
  cases entered with
  | false =>
    cases hbody
    have hreturns := returns_of_stepBack hback (.inl ⟨calls, rfl⟩) (b.delivering != 0)
    rw [hthread] at hreturns
    exact .inl ⟨rfl, _, _, hruns, hreturns⟩
  | true =>
    obtain ⟨b₄, _, hbody, hleave⟩ := body_of_ensuring_ok hbody
    refine .inr ⟨_, b₃, b₄, hruns, hbody, fun hwaiting delivering left => ?_⟩
    obtain ⟨hthread, hleft⟩ := leave_ok hwaiting hleave delivering (b.host.leaveAll b.thread).1 left
    have hreturns := returns_of_stepBack hback (.inl ⟨left, rfl⟩) delivering
    rw [hthread] at hreturns
    exact ⟨_, _, hleft, hreturns⟩

/-- The sections of a start around its native call. -/
theorem start_sections {timeout : Option Duration} {r : Except SessionError Unit}
    (h : (s.start timeout).run b = .ok r b') (delivering : Bool) :
    ∃ saved b₁ code b₂, Activity.Runs b.thread delivering (ofBridge b) (.start .arriving 0)
        (ofBridge b₁) (.start .ready saved) ∧
      s.client.start (timeout.getD s.options.timeouts.connect) b₁ = .ok code b₂ ∧
      r = (if code = Code.success then .ok () else .error (.ofNative .start code)) ∧
      ((∀ w ∈ b₂.gate.waiting, w.thread ≠ b₂.thread) → Activity.RunsOut b₂.thread delivering
        (ofBridge b₂) (.start (if code = Code.success then .changing else .returning) saved)
        (ofBridge b')) := by
  rcases opBind_ok h with ⟨e, hstart, rfl⟩ | ⟨code, b₁, hstart, hanswer⟩
  · obtain ⟨x, hx, _⟩ := op_ok hstart
    cases hx
  obtain ⟨_, hx, hstart⟩ := op_ok hstart
  cases hx
  have hanswered : b₁ = b' ∧
      r = (if code = Code.success then .ok () else .error (.ofNative .start code)) := by
    by_cases hcode : code = Code.success
    · rw [if_neg (not_not.mpr hcode)] at hanswer
      cases hanswer
      exact ⟨rfl, by rw [if_pos hcode]⟩
    · rw [if_pos hcode] at hanswer
      cases hanswer
      exact ⟨rfl, by rw [if_neg hcode]⟩
  obtain ⟨rfl, hr⟩ := hanswered
  obtain ⟨saved, b₂, hout, h⟩ := bind_eq_ok.mp hstart
  obtain ⟨b₃, _, hinside, hback⟩ := body_of_ensuring_ok h
  obtain ⟨code', b₄, hclient, hchange⟩ := bind_eq_ok.mp hinside
  obtain ⟨rfl, rfl⟩ := stepOut_ok hout
  have hcode : code' = code := by
    split at hchange
    · obtain ⟨_, _, _, hpure⟩ := bind_eq_ok.mp hchange
      cases hpure
      rfl
    · cases hchange
      rfl
  subst hcode
  refine ⟨_, _, code', b₄, .step rfl (.refl ..), hclient, hr, fun hwaiting => ?_⟩
  have hreturns := returns_of_stepBack hback (.inr (.inl rfl)) delivering
  by_cases hcode : code' = Code.success
  · simp only [hcode, if_true] at hchange ⊢
    obtain ⟨was, b₅, hchanged, hpure⟩ := bind_eq_ok.mp hchange
    cases hpure
    obtain ⟨_, hclear, hthread, hbridge⟩ := changeStarted_ok hwaiting hchanged
    rw [hthread] at hreturns
    have hsection : (Activity.start .changing (b.host.leaveAll b.thread).1).proceed? (ofBridge b₄)
        b₄.thread delivering =
        some (ofBridge b₃, some (.start .returning (b.host.leaveAll b.thread).1)) := by
      rw [Activity.proceed?, if_pos hclear, hbridge]
    exact ⟨_, _, .step hsection (.refl ..), hreturns⟩
  · simp only [hcode, if_false] at hchange ⊢
    cases hchange
    exact ⟨_, _, .refl .., hreturns⟩

/-- The sections of a stop around its native call, which it makes where it stopped the session. -/
theorem stop_sections {warn : Bool} {r : Except SessionError Unit}
    (hwaiting : ∀ w ∈ b.gate.waiting, w.thread ≠ b.thread) (h : (s.stop warn).run b = .ok r b')
    (delivering : Bool) :
    ∃ saved b₁ b₂, Activity.Runs b.thread delivering (ofBridge b) (.stop warn .arriving 0)
        (ofBridge b₁) (.stop warn (if b.gate.started then .ready else .returning) saved) ∧
      (if b.gate.started then s.client.stop b₁ = .ok () b₂ else b₂ = b₁) ∧
      Activity.RunsOut b₂.thread delivering (ofBridge b₂) (.stop warn .returning saved)
        (ofBridge b') := by
  rcases opBind_ok h with ⟨e, hstop, rfl⟩ | ⟨was, b₁, hstop, hwarn⟩
  · obtain ⟨x, hx, _⟩ := op_ok hstop
    cases hx
  obtain ⟨_, hx, hstop⟩ := op_ok hstop
  cases hx
  have hbridge : ofBridge b₁ = ofBridge b' := by
    split at hwarn <;> cases hwarn <;> rfl
  rw [← hbridge]
  obtain ⟨saved, b₂, hout, h⟩ := bind_eq_ok.mp hstop
  obtain ⟨b₃, _, hinside, hback⟩ := body_of_ensuring_ok h
  obtain ⟨rfl, rfl⟩ := stepOut_ok hout
  obtain ⟨was', b₄, hchanged, hstopped⟩ := bind_eq_ok.mp hinside
  obtain ⟨hwas, hclear, hthread, hchange⟩ :=
    changeStarted_ok (b := { b with host := (b.host.leaveAll b.thread).2 }) hwaiting hchanged
  have hsection : (Activity.stop warn .changing (b.host.leaveAll b.thread).1).proceed?
      (ofBridge { b with host := (b.host.leaveAll b.thread).2 }) b.thread delivering =
      some (ofBridge b₄, some (.stop warn (if b.gate.started then .ready else .returning)
        (b.host.leaveAll b.thread).1)) := by
    rw [Activity.proceed?, if_pos hclear, hchange]
    rfl
  have hreturns := returns_of_stepBack hback (.inr (.inr ⟨warn, rfl⟩)) delivering
  refine ⟨_, b₄, b₃, .step rfl (.step hsection (.refl ..)), ?_, _, _, .refl .., hreturns⟩
  have hwas : was' = b.gate.started := hwas
  rw [hwas] at hstopped
  cases hstarted : b.gate.started with
  | true =>
    rw [hstarted] at hstopped
    obtain ⟨_, b₅, hclient, hpure⟩ := bind_eq_ok.mp hstopped
    cases hpure
    exact hclient
  | false =>
    rw [hstarted] at hstopped
    cases hstopped
    rfl

end Session

/-! ## A post to the scripted client -/

def PostRequest.translate (r : PostRequest) : Except PostRejection Unit → Except PostFailure Unit
  | .ok () => .ok ()
  | .error refused =>
      .error ⟨.ofNative (.post r.uri) refused.code, refused.event.correlations.head?⟩

private theorem PostRequest.translate_ite (r : PostRequest) (taken : MessageEvent) (code : Int) :
    r.translate (if code = Code.success then .ok () else .error ⟨code, taken⟩) =
      r.answer taken code := by
  unfold answer
  split <;> rfl

/-- A post goes from one section to the next, down to its answer. -/
inductive PostActivity.Alone (turn place : Nat) (answer : Except PostFailure Unit) :
    PostActivity → Bridge Stage → Bridge Stage → Prop
  | returned (r saved x) {b b'}
      (h : (post r saved (.returning x (some answer))).advance turn place b = .ok none b') :
      Alone turn place answer (post r saved (.returning x (some answer))) b b'
  | step {a a' b b₁ b'} (h : a.advance turn place b = .ok (some a') b₁)
      (rest : Alone turn place answer a' b₁ b') : Alone turn place answer a b b'

namespace PostActivity

open Act

variable {turn place : Nat} {answer : Except PostFailure Unit} {r : PostRequest} {saved : Nat}
  {b b' : Bridge Stage}

private theorem alone_of_stepBack {u : Unit} (h : stepBack saved b = .ok u b')
    (x : Option Exchange) :
    (post r saved (.returning x (some answer))).Alone turn place answer b b' :=
  .returned r saved x (bind_of_ok h)

private theorem alone_of_decidePost {x : Exchange} {given : Except PostRejection Unit}
    {b₁ b₂ : Bridge Stage}
    (h : Stage.decidePost .quiet (.ofPosted x.own) x.taken b = .ok given b₁)
    (hleave : leaveHost b₁ = .ok () b₂) (hback : stepBack saved b₂ = .ok () b') :
    (post r saved (.deciding x)).Alone turn place (r.translate given) b b' := by
  have hleft : (post r saved (.leaving (some x) (some (r.translate given)))).Alone turn place
      (r.translate given) b₁ b' :=
    .step (bind_of_ok hleave) (alone_of_stepBack hback _)
  obtain ⟨code, b₃, hsettle, h⟩ := bind_eq_ok.mp h
  refine .step (bind_of_ok hsettle) ?_
  obtain ⟨batch, b₄, hfetch, h⟩ := bind_eq_ok.mp h
  cases batch with
  | none =>
    cases h
    rw [r.translate_ite] at hleft ⊢
    exact .step (bind_of_ok hfetch) hleft
  | some batch =>
    obtain ⟨_, b₅, hacks, hpure⟩ := bind_eq_ok.mp h
    cases hpure
    rw [r.translate_ite] at hleft ⊢
    exact .step (bind_of_ok hfetch) (.step (bind_of_ok hacks) (.step rfl hleft))

private theorem alone_of_post {e : MessageEvent} {given : Except PostRejection Unit}
    {b₁ : Bridge Stage}
    (h : Stage.post .quiet e b = .ok given b₁) (hback : stepBack saved b₁ = .ok () b') :
    (post r saved (.observing e)).Alone turn place (r.translate given) b b' := by
  obtain ⟨_, b₂, hobserve, h⟩ := bind_eq_ok.mp h
  obtain ⟨_, b₃, hbuffer, h⟩ := bind_eq_ok.mp h
  obtain ⟨_, b₄, henter, h⟩ := bind_eq_ok.mp h
  obtain ⟨b₅, _, htaken, hleave⟩ := body_of_ensuring_ok h
  obtain ⟨taken, b₆, htake, h⟩ := bind_eq_ok.mp htaken
  refine .step (bind_of_ok hobserve) (.step (bind_of_ok hbuffer) (.step (bind_of_ok henter) ?_))
  cases taken with
  | none => cases h
  | some taken =>
    exact .step (bind_of_ok htake)
      (alone_of_decidePost (x := ⟨e, turn, taken, place⟩) h hleave hback)

private theorem alone_of_packing {q : QueueHandle} {b₁ : Bridge Stage}
    (h : (match (EventBuilder.empty EventBuilder.defaultMaxPayload).pack b.native.ledger.table .zero
        q r.message with
      | .error refused => throw ⟨.construction refused.code, refused.message.correlation⟩
      | .ok builder => do
          match ← Session.op (Stage.post .quiet builder.build) with
          | .ok () => return
          | .error refused =>
              throw ⟨.ofNative (.post r.uri) refused.code, refused.event.correlations.head?⟩ :
        Session.Op Stage PostFailure Unit).run b = .ok answer b₁)
    (hback : stepBack saved b₁ = .ok () b') :
    (post r saved (.packing q)).Alone turn place answer b b' := by
  have hnative : (native : Act Stage Stage) b = .ok b.native b := rfl
  rcases hpack : (EventBuilder.empty EventBuilder.defaultMaxPayload).pack b.native.ledger.table
    .zero q r.message with refused | builder
  · rw [hpack] at h
    cases h
    have hrefused : (post r saved (.packing q)).advance turn place b = .ok (some (post r saved
        (.returning none (some (.error ⟨.construction refused.code,
          refused.message.correlation⟩))))) b := by
      refine (bind_of_ok hnative).trans ?_
      rw [hpack]
      rfl
    exact .step hrefused (alone_of_stepBack hback _)
  · rw [hpack] at h
    have hpacked : (post r saved (.packing q)).advance turn place b =
        .ok (some (post r saved (.observing builder.build))) b := by
      refine (bind_of_ok hnative).trans ?_
      rw [hpack]
      rfl
    refine .step hpacked ?_
    rcases Session.opBind_ok h with ⟨e, hpost, _⟩ | ⟨given, b₂, hpost, h⟩
    · obtain ⟨_, hx, _⟩ := Session.op_ok hpost
      cases hx
    obtain ⟨_, hx, hpost⟩ := Session.op_ok hpost
    cases hx
    cases given with
    | ok _ =>
      cases h
      exact alone_of_post hpost hback
    | error refused =>
      cases h
      exact alone_of_post hpost hback

/-- A post that no other thread comes between goes through its sections to the answer that the
session gives, in the state that it gives it in. -/
theorem alone_of_postEncoded {s : Session Stage} (hs : s.client = Stage.client .quiet)
    {uri : String} {payload : ByteArray} {wire : Option WireProperties}
    {onAck : Option Correlation}
    (h : outsideHost (s.postEncoded uri payload wire onAck).run b = .ok answer b') :
    (post ⟨uri, ⟨payload, wire, onAck, s.compression⟩⟩ 0 .arriving).Alone
      turn place answer b b' := by
  obtain ⟨saved, b₁, hout, h⟩ := bind_eq_ok.mp h
  obtain ⟨b₂, _, h, hback⟩ := body_of_ensuring_ok h
  refine .step (bind_of_ok hout) ?_
  rcases Session.opBind_ok h with ⟨e, hopen, rfl⟩ | ⟨q, b₃, hopen, h⟩
  · obtain ⟨found, hfind, hfound⟩ := Session.queue?_of_openHandle hopen
    rw [hs] at hfind
    cases found with
    | some q => cases hfound
    | none =>
      cases hfound
      exact .step (bind_of_ok hfind) (alone_of_stepBack hback _)
  · obtain ⟨found, hfind, hfound⟩ := Session.queue?_of_openHandle hopen
    rw [hs] at hfind
    cases found with
    | none => cases hfound
    | some q' =>
      cases hfound
      refine .step (bind_of_ok hfind) ?_
      rcases Session.opBind_ok h with ⟨e, htable, _⟩ | ⟨table, b₄, htable, h⟩
      · cases htable
      cases htable
      rw [hs] at h
      exact alone_of_packing h hback

end PostActivity

/-! ## A call on a queue of the scripted client -/

namespace QueueErrand

def serve (e : QueueErrand) : Act Stage QueueStatus :=
  match e.deed with
  | .openQueue uri flags options => Stage.openQueue .quiet uri flags options e.timeout
  | .configureQueue q options => Stage.configureQueue q options e.timeout
  | .closeQueue q => Stage.closeQueue q e.timeout

def verdict (e : QueueErrand) (codes : Verdicts) : Int :=
  match e.deed with
  | .openQueue .. => codes.openQueue
  | .configureQueue .. => codes.configureQueue
  | .closeQueue _ => codes.closeQueue

end QueueErrand

inductive QueueActivity.Alone (answer : QueueStatus) :
    QueueActivity → Bridge Stage → Bridge Stage → Prop
  | returned (k e saved) {b b'}
      (h : (call k e saved (.returning (.returned answer))).advance b = .ok none b') :
      Alone answer (call k e saved (.returning (.returned answer))) b b'
  | step {a a' b b₁ b'} (h : a.advance b = .ok (some a') b₁) (rest : Alone answer a' b₁ b') :
      Alone answer a b b'

namespace QueueActivity

open Act

variable {answer : QueueStatus} {k : Nat} {e : QueueErrand} {saved : Nat} {code : Int}
  {timeout : Duration} {q : QueueHandle} {uri : String} {flags : QueueFlags}
  {options : QueueOptions} {b b₁ b' : Bridge Stage}

private theorem alone_of_stepBack (h : stepBack saved b = .ok () b') :
    (call k e saved (.returning (.returned answer))).Alone answer b b' :=
  .returned k e saved (bind_of_ok h)

private theorem alone_of_leaveHost (hleave : leaveHost b = .ok () b₁)
    (hback : stepBack saved b₁ = .ok () b') :
    (call k e saved (.leaving (.returned answer))).Alone answer b b' :=
  .step (bind_of_ok hleave) (alone_of_stepBack hback)

private theorem alone_of_refused {before : Option QueueOptions}
    (hchange : Stage.ledgerUpdate e.deed.prepare b = .ok answer b₁)
    (hrefused : answer.code ≠ Code.success) (hback : stepBack saved b₁ = .ok () b') :
    (call k e saved (.changing before)).Alone answer b b' :=
  .step ((bind_of_ok hchange).trans (by rw [dif_neg hrefused]; rfl)) (alone_of_stepBack hback)

private theorem alone_of_change (status : QueueSuccess) {before : Option QueueOptions}
    {body : Act Stage QueueStatus} {b₂ : Bridge Stage}
    (hchange : Stage.ledgerUpdate e.deed.prepare b = .ok status.1 b₁)
    (h : inHost body b₁ = .ok answer b₂) (hback : stepBack saved b₂ = .ok () b')
    (hbody : ∀ {b₃ b₄ b₅}, b₃.native.codes = b.native.codes → body b₃ = .ok answer b₄ →
      leaveHost b₄ = .ok () b₅ → stepBack saved b₅ = .ok () b' →
      (call k e saved (.deciding before status)).Alone answer b₃ b') :
    (call k e saved (.changing before)).Alone answer b b' := by
  obtain ⟨_, b₃, henter, h⟩ := bind_eq_ok.mp h
  obtain ⟨b₄, _, h, hleave⟩ := body_of_ensuring_ok h
  obtain ⟨-, -, hcodes⟩ := Stage.ledgerUpdate_ok hchange
  refine .step ((bind_of_ok hchange).trans (by rw [dif_pos status.2]; rfl)) ?_
  refine .step (bind_of_ok henter) (hbody ?_ h hleave hback)
  rw [((within_enterHost same_frame 1).ok henter).1, hcodes]

private theorem alone_of_opposed (e : QueueErrand) (before : Option QueueOptions)
    (status : QueueSuccess)
    {b₂ b₃ : Bridge Stage} (hclose : e.deed.isClose = false) (hopposed : e.code ≠ Code.success)
    (hsettle : Stage.settle e.native (fun _ => e.code) b = .ok e.code b₁)
    (hundo : Stage.modifyLedger (e.deed.undo before) b₁ = .ok () b₂)
    (hleave : leaveHost b₂ = .ok () b₃) (hback : stepBack saved b₃ = .ok () b') :
    (call k e saved (.deciding before status)).Alone
      (e.refusal status.1.queue e.code hopposed).1 b b' := by
  have hdecided : (call k e saved (.deciding before status)).advance b = .ok (some (call k e saved
      (.undoing before (e.refusal status.1.queue e.code hopposed)))) b₁ := by
    refine (bind_of_ok hsettle).trans ?_
    rw [dif_pos hopposed, hclose]
    rfl
  exact .step hdecided (.step (bind_of_ok hundo) (alone_of_leaveHost hleave hback))

private theorem settle_of_code {call : NativeCall} {f : Verdicts → Int} {x : Int}
    (hcode : f b.native.codes = code) (h : Stage.settle call f b = .ok x b₁) :
    x = code ∧ Stage.settle call (fun _ => code) b = .ok code b₁ := by
  cases hcode
  cases h
  exact ⟨rfl, rfl⟩

private theorem alone_of_openQueue (hcode : b.native.codes.openQueue = code)
    (h : Stage.openQueue .quiet uri flags options timeout b = .ok answer b₁)
    (hback : stepBack saved b₁ = .ok () b') :
    (call k ⟨.openQueue uri flags options, timeout, code⟩ saved .observing).Alone answer b b' := by
  obtain ⟨_, b₂, hobserve, h⟩ := bind_eq_ok.mp h
  obtain ⟨-, hcodes⟩ := Stage.observe_ok hobserve
  obtain ⟨status, b₃, hopen, h⟩ := bind_eq_ok.mp h
  refine .step (bind_of_ok hobserve) (.step rfl ?_)
  split at h
  · next hrefused =>
    cases h
    exact alone_of_refused hopen hrefused hback
  next hsuccess =>
  refine alone_of_change ⟨status, Decidable.not_not.mp hsuccess⟩ hopen h hback ?_
  intro b₄ b₅ b₆ hcodes' h hleave hback
  obtain ⟨_, b₇, hsettle, h⟩ := bind_eq_ok.mp h
  obtain ⟨rfl, hsettle⟩ := settle_of_code (by rw [hcodes', hcodes, hcode]) hsettle
  split at h
  · next hopposed =>
    obtain ⟨_, b₈, hundo, h⟩ := bind_eq_ok.mp h
    cases h
    exact alone_of_opposed ⟨.openQueue uri flags options, timeout, _⟩ none
      ⟨status, Decidable.not_not.mp hsuccess⟩ rfl hopposed hsettle hundo hleave hback
  next hallowed =>
  refine .step ((bind_of_ok hsettle).trans (by rw [dif_neg hallowed]; rfl)) ?_
  obtain ⟨front, b₈, hpop, h⟩ := bind_eq_ok.mp h
  cases front with
  | none =>
    cases h
    exact .step (bind_of_ok hpop) (alone_of_leaveHost hleave hback)
  | some batch =>
    obtain ⟨_, b₉, hplay, h⟩ := bind_eq_ok.mp h
    cases h
    refine .step ((bind_of_ok hpop).trans (bind_of_ok hplay)) (.step rfl ?_)
    exact alone_of_leaveHost hleave hback

private theorem alone_of_configureQueue (hcode : b.native.codes.configureQueue = code)
    (h : Stage.configureQueue q options timeout b = .ok answer b₁)
    (hback : stepBack saved b₁ = .ok () b') :
    (call k ⟨.configureQueue q options, timeout, code⟩ saved .observing).Alone answer b b' := by
  obtain ⟨_, b₂, hobserve, h⟩ := bind_eq_ok.mp h
  obtain ⟨-, hcodes⟩ := Stage.observe_ok hobserve
  obtain ⟨n, b₃, hnative, h⟩ := bind_eq_ok.mp h
  cases hnative
  obtain ⟨status, b₃, hconfigure, h⟩ := bind_eq_ok.mp h
  refine .step (bind_of_ok hobserve) (.step rfl ?_)
  split at h
  · next hrefused =>
    cases h
    exact alone_of_refused hconfigure hrefused hback
  next hsuccess =>
  refine alone_of_change ⟨status, Decidable.not_not.mp hsuccess⟩ hconfigure h hback ?_
  intro b₄ b₅ b₆ hcodes' h hleave hback
  obtain ⟨_, b₇, hsettle, h⟩ := bind_eq_ok.mp h
  obtain ⟨rfl, hsettle⟩ := settle_of_code (by rw [hcodes', hcodes, hcode]) hsettle
  split at h
  · next hopposed =>
    obtain ⟨_, b₈, hundo, h⟩ := bind_eq_ok.mp h
    cases h
    exact alone_of_opposed ⟨.configureQueue q options, timeout, _⟩
      (some (b₂.native.ledger.table.options q)) ⟨status, Decidable.not_not.mp hsuccess⟩ rfl hopposed
      hsettle hundo hleave hback
  next hallowed =>
  cases h
  refine .step ((bind_of_ok hsettle).trans (by rw [dif_neg hallowed]; rfl)) ?_
  exact alone_of_leaveHost hleave hback

private theorem alone_of_closeQueue (hcode : b.native.codes.closeQueue = code)
    (h : Stage.closeQueue q timeout b = .ok answer b₁) (hback : stepBack saved b₁ = .ok () b') :
    (call k ⟨.closeQueue q, timeout, code⟩ saved .observing).Alone answer b b' := by
  obtain ⟨_, b₂, hobserve, h⟩ := bind_eq_ok.mp h
  obtain ⟨-, hcodes⟩ := Stage.observe_ok hobserve
  obtain ⟨n, b₃, hnative, h⟩ := bind_eq_ok.mp h
  cases hnative
  have hlook : Stage.ledgerUpdate (QueueDeed.prepare · (.closeQueue q)) b₂ =
      .ok (QueueDeed.prepare b₂.native.ledger (.closeQueue q)).1 b₂ := rfl
  refine .step (bind_of_ok hobserve) (.step rfl ?_)
  cases hcurrent : b₂.native.ledger.isCurrent q with
  | false =>
    rw [hcurrent] at h
    cases h
    rw [QueueDeed.prepare, hcurrent] at hlook
    exact alone_of_refused hlook nofun hback
  | true =>
    rw [hcurrent] at h
    rw [QueueDeed.prepare, hcurrent] at hlook
    refine alone_of_change ⟨⟨some q, Code.success, ""⟩, rfl⟩ hlook h hback ?_
    intro b₄ b₅ b₆ hcodes' h hleave hback
    obtain ⟨_, b₇, hsettle, h⟩ := bind_eq_ok.mp h
    obtain ⟨rfl, hsettle⟩ := settle_of_code (by rw [hcodes', hcodes, hcode]) hsettle
    split at h
    · next hopposed =>
      cases h
      refine .step ((bind_of_ok hsettle).trans (by rw [dif_pos hopposed]; rfl)) ?_
      exact alone_of_leaveHost hleave hback
    · next hallowed =>
      refine .step ((bind_of_ok hsettle).trans (by rw [dif_neg hallowed]; rfl)) ?_
      exact .step (bind_of_ok h) (alone_of_leaveHost hleave hback)

/-- A call that no other thread comes between goes through its sections to the answer that the
client gives, in the state that it gives it in. -/
theorem alone_of_serve (hcode : e.verdict b.native.codes = e.code)
    (h : outsideHost e.serve b = .ok answer b') : (call k e 0 .arriving).Alone answer b b' := by
  obtain ⟨saved, b₁, hout, h⟩ := bind_eq_ok.mp h
  obtain ⟨b₂, _, h, hback⟩ := body_of_ensuring_ok h
  rw [← ((within_stepOut same_frame).ok hout).1] at hcode
  refine .step (bind_of_ok hout) ?_
  obtain ⟨deed, timeout, code⟩ := e
  cases deed with
  | openQueue uri flags options => exact alone_of_openQueue hcode h hback
  | configureQueue q options => exact alone_of_configureQueue hcode h hback
  | closeQueue q => exact alone_of_closeQueue hcode h hback

end QueueActivity

end BrokerBridge
