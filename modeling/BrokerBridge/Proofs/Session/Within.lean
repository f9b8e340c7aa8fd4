import BrokerBridge.Proofs.Session.Courses

/-!
# What computations leave alone

A relation between states frames a computation when every end of it, other than waiting for ever,
stands in the relation to its start: a course that does not ask how the computation ended.
Relations that look at the far side and at the deliveries only are carried from the calls of a
client to the operations of its session.
-/

namespace BrokerBridge

variable {ν α β ε : Type}

/-- A relation that passes over everything but the far side and the deliveries. -/
structure Frame (R : Bridge ν → Bridge ν → Prop) : Prop where
  same : ∀ {b b'}, b'.native = b.native → b'.deliveries = b.deliveries → R b b'
  trans : ∀ {b₁ b₂ b₃}, R b₁ b₂ → R b₂ b₃ → R b₁ b₃

/-- The far side and the deliveries stay as they are: every other frame passes over this. -/
def Same (b b' : Bridge ν) : Prop := b'.native = b.native ∧ b'.deliveries = b.deliveries

theorem Alike.same {b b' : Bridge ν} (h : Alike b b') : Same b b' := ⟨h.native, h.deliveries⟩

theorem same_frame : Frame (Same (ν := ν)) where
  same hn hd := ⟨hn, hd⟩
  trans h₁ h₂ := ⟨h₂.1.trans h₁.1, h₂.2.trans h₁.2⟩

namespace Frame

variable {R : Bridge ν → Bridge ν → Prop} (hR : Frame R)

include hR

theorem of_same {b b' : Bridge ν} (h : Same b b') : R b b' := hR.same h.1 h.2

theorem composes : Course.Composes fun _ => R where
  alike h := hR.same h.native h.deliveries
  raise _ _ := hR.same rfl rfl
  before := hR.trans
  after := hR.trans

private theorem notes
    (hdeliver : ∀ (b : Bridge ν) d, R b { b with deliveries := b.deliveries ++ [d] }) :
    Course.Notes fun _ => R where
  deliver := hdeliver
  report _ _ _ := hR.same rfl rfl
  caught _ h := hR.trans h (hR.same rfl rfl)

theorem admits : Course.Admits fun _ => R where
  gate _ _ := hR.same rfl rfl
  stopped _ h := hR.trans h (hR.same rfl rfl)

end Frame

namespace Act

open Course

structure Within (R : Bridge ν → Bridge ν → Prop) (a : Act ν α) : Prop where
  ok : ∀ {b x b'}, a b = .ok x b' → R b b'
  panic : ∀ {b cause b'}, a b = .error (.panic cause) b' → R b b'

section

variable {R : Bridge ν → Bridge ν → Prop}

theorem Within.mono {S : Bridge ν → Bridge ν → Prop} {a : Act ν α} (h : Within R a)
    (hRS : ∀ b b', R b b' → S b b') : Within S a where
  ok hb := hRS _ _ (h.ok hb)
  panic hb := hRS _ _ (h.panic hb)

theorem Within.ends {a : Act ν α} (h : Within R a) {b b' : Bridge ν} (hends : a.Ends b b') :
    R b b' := by
  rcases hends with ⟨x, hends⟩ | ⟨cause, hends⟩
  · exact h.ok hends
  · exact h.panic hends

theorem Within.follows {a : Act ν α} (h : Within R a) : Follows (fun _ => R) a :=
  ⟨h.ok, h.panic⟩

theorem Follows.within {a : Act ν α} (h : Follows (fun _ => R) a) : Within R a :=
  ⟨h.ok, h.panic⟩

theorem within_onNative {f : ν → α × ν}
    (hf : ∀ b : Bridge ν, R b { b with native := (f b.native).2 }) : Within R (onNative f) :=
  Follows.within (follows_onNative hf)

private theorem within_modify {f : Bridge ν → Bridge ν} (hf : ∀ b, R b (f b)) :
    Within R (modify f : Act ν Unit) :=
  Follows.within (follows_modify hf)

theorem within_modifyNative {f : ν → ν}
    (hf : ∀ b : Bridge ν, R b { b with native := f b.native }) : Within R (modifyNative f) :=
  within_modify hf

theorem within_attempt {body : Act ν α} (h : Within R body) : Within R (attempt body) where
  ok hb := h.follows.attempt hb
  panic hb := absurd hb (neverPanics_attempt body _ _ _)

variable (hR : Frame R)

include hR

theorem within_modify_same {f : Bridge ν → Bridge ν} (hn : ∀ b, (f b).native = b.native)
    (hd : ∀ b, (f b).deliveries = b.deliveries) : Within R (modify f : Act ν Unit) :=
  within_modify fun b => hR.same (hn b) (hd b)

theorem within_pure (x : α) : Within R (pure x : Act ν α) :=
  (follows_pure hR.composes x).within

theorem within_bind {m : Act ν α} {k : α → Act ν β} (hm : Within R m)
    (hk : ∀ x, Within R (k x)) : Within R (m >>= k) :=
  (follows_bind hR.composes hm.follows fun x => (hk x).follows).within

theorem within_get : Within R (get : Act ν (Bridge ν)) := (follows_get hR.composes).within

theorem within_throw (i : Interrupt) : Within R (throw i : Act ν α) :=
  (follows_throw hR.composes i).within

theorem within_native : Within R (native : Act ν ν) :=
  (closed_native (closed_follows hR.composes)).within

theorem within_forM {f : α → Act ν Unit} {l : List α} (h : ∀ x ∈ l, Within R (f x)) :
    Within R (l.forM f) :=
  (closed_forM (g := f) (closed_follows hR.composes) fun x hx => (h x hx).follows).within

theorem within_modifyGate (f : Gate → Gate) : Within R (modifyGate f : Act ν Unit) :=
  (follows_modifyGate hR.admits f).within

theorem within_enterHost (levels : Nat) : Within R (enterHost levels : Act ν Unit) :=
  (follows_enterHost hR.composes levels).within

theorem within_stepOut : Within R (stepOut : Act ν Nat) := (follows_stepOut hR.composes).within

theorem within_stepBack (saved : Nat) : Within R (stepBack saved : Act ν Unit) :=
  (follows_stepBack hR.composes saved).within

theorem within_inHost {body : Act ν α} (h : Within R body) : Within R (inHost body) :=
  (follows_inHost hR.composes h.follows).within

theorem within_outsideHost {body : Act ν α} (h : Within R body) : Within R (outsideHost body) :=
  (follows_outsideHost hR.composes h.follows).within

theorem within_observe (f : Counters → Counters) : Within R (observe f : Act ν Unit) :=
  (follows_observe hR.composes f).within

theorem within_hostReturned (d : Delivery) (outcome : Except Panic HostOutcome) :
    Within R (hostReturned d outcome : Act ν Unit) := by
  apply within_bind hR
  · exact within_modify_same hR (fun _ => rfl) fun _ => rfl
  intro _
  split
  · exact within_pure hR _
  · apply within_bind hR (within_observe hR _)
    exact fun _ => within_modify_same hR (fun _ => rfl) fun _ => rfl

theorem within_tell (hdeliver : ∀ (b : Bridge ν) d,
      R b { b with deliveries := b.deliveries ++ [d] })
    {host : HostCode ν} (hhost : ∀ d, Within R (host d)) (e : NativeEvent) :
    Within R (e.tell host) := by
  have hcall d := follows_callHost hR.composes (hR.notes hdeliver) (hhost d).follows
  exact (@closed_tell _ _ (closed_follows hR.composes) host host hcall e).within

end

end Act

namespace Act

/-- Entering and leaving host execution is passed over by whatever passes over what it leaves
alone. -/
theorem within_inHost_between {R J : Bridge ν → Bridge ν → Prop} (hR : Frame R)
    (hJ : ∀ {b b₁ b₂ b'}, R b b₁ → J b₁ b₂ → R b₂ b' → J b b') {body : Act ν α}
    (h : Within J body) : Within J (inHost body) := by
  have hends {b b' : Bridge ν} (hrun : (inHost body).Ends b b') : J b b' := by
    obtain ⟨b₁, b₂, hin, hbody, hout⟩ := ends_of_inHost hrun
    exact hJ (hR.of_same hin.same) (h.ends hbody) (hR.of_same hout.same)
  exact ⟨fun hrun => hends (.inl ⟨_, hrun⟩), fun hrun => hends (.inr ⟨_, hrun⟩)⟩

/-- Relations one behind the other, where no panic comes between. -/
theorem within_bind_comp {K L J : Bridge ν → Bridge ν → Prop}
    (hJ : ∀ {b₁ b₂ b₃}, K b₁ b₂ → L b₂ b₃ → J b₁ b₃) {m : Act ν α} {k : α → Act ν β}
    (hm : Within K m) (hquiet : NeverPanics m) (hk : ∀ x, Within L (k x)) :
    Within J (m >>= k) where
  ok h := by
    obtain ⟨x, b₁, h₁, h₂⟩ := bind_eq_ok.mp h
    exact hJ (hm.ok h₁) ((hk x).ok h₂)
  panic h := by
    rcases bind_eq_error.mp h with h₁ | ⟨x, b₁, h₁, h₂⟩
    · exact absurd h₁ (hquiet _ _ _)
    · exact hJ (hm.ok h₁) ((hk x).panic h₂)

end Act

/-- A relation that a frame may stand before and after without being noticed. -/
structure Absorbs (R J : Bridge ν → Bridge ν → Prop) : Prop where
  frame : ∀ {b b'}, R b b' → J b b'
  before : ∀ {b₁ b₂ b₃}, R b₁ b₂ → J b₂ b₃ → J b₁ b₃
  after : ∀ {b₁ b₂ b₃}, J b₁ b₂ → R b₂ b₃ → J b₁ b₃

theorem Frame.absorbs {R : Bridge ν → Bridge ν → Prop} (hR : Frame R) : Absorbs R R where
  frame h := h
  before := hR.trans
  after := hR.trans

namespace Act

variable {R J : Bridge ν → Bridge ν → Prop} (hJ : Absorbs R J)

include hJ

private theorem within_bind_before {m : Act ν α} {k : α → Act ν β} (hm : Within R m)
    (hk : ∀ x b b', m b = .ok x b' → Within J (k x)) : Within J (m >>= k) where
  ok h := by
    obtain ⟨x, b₁, h₁, h₂⟩ := bind_eq_ok.mp h
    exact hJ.before (hm.ok h₁) ((hk x _ _ h₁).ok h₂)
  panic h := by
    rcases bind_eq_error.mp h with h₁ | ⟨x, b₁, h₁, h₂⟩
    · exact hJ.frame (hm.panic h₁)
    · exact hJ.before (hm.ok h₁) ((hk x _ _ h₁).panic h₂)

private theorem within_bind_after {m : Act ν α} {k : α → Act ν β} (hm : Within J m)
    (hk : ∀ x, Within R (k x)) : Within J (m >>= k) where
  ok h := by
    obtain ⟨x, b₁, h₁, h₂⟩ := bind_eq_ok.mp h
    exact hJ.after (hm.ok h₁) ((hk x).ok h₂)
  panic h := by
    rcases bind_eq_error.mp h with h₁ | ⟨x, b₁, h₁, h₂⟩
    · exact hm.panic h₁
    · exact hJ.after (hm.ok h₁) ((hk x).panic h₂)

private theorem within_ensuring_after {body : Act ν α} {cleanup : Act ν Unit}
    (hbody : Within J body)
    (hcleanup : Within R cleanup) (hquiet : NeverPanics cleanup) :
    Within J (ensuring body cleanup) where
  ok h := by
    obtain ⟨b₁, _, h₁, h₂⟩ := body_of_ensuring_ok h
    exact hJ.after (hbody.ok h₁) (hcleanup.ok h₂)
  panic h := by
    obtain ⟨b₁, _, h₁, h₂⟩ := body_of_ensuring_panic hquiet h
    exact hJ.after (hbody.panic h₁) (hcleanup.ok h₂)

end Act

/-! ## Sessions -/

structure NativeClient.Within (R : Bridge ν → Bridge ν → Prop) (c : NativeClient ν) : Prop where
  start : ∀ timeout, Act.Within R (c.start timeout)
  stop : Act.Within R c.stop
  openQueue : ∀ uri flags options timeout, Act.Within R (c.openQueue uri flags options timeout)
  configureQueue : ∀ q options timeout, Act.Within R (c.configureQueue q options timeout)
  closeQueue : ∀ q timeout, Act.Within R (c.closeQueue q timeout)
  queue? : ∀ uri, Act.Within R (c.queue? uri)
  post : ∀ e, Act.Within R (c.post e)
  confirm : ∀ q guid, Act.Within R (c.confirm q guid)

namespace Session

open Act Course

variable {R : Bridge ν → Bridge ν → Prop} (hR : Frame R) {s : Session ν}

include hR

theorem within_stop (hstop : Within R s.client.stop) (warn : Bool) :
    Within R (s.stop warn).run :=
  (follows_stop hR.composes hR.admits hstop.follows warn).within

theorem within_drop (hstop : Within R s.client.stop) : Within R s.drop := by
  apply within_bind hR (within_stop hR hstop true)
  intro r
  split
  · exact within_pure hR _
  · exact within_modify_same hR (fun _ => rfl) fun _ => rfl

/-- An operation is refused by the gate, or its body comes to an end between what leaves the far
side and the deliveries alone and what a waiting stop may do. -/
theorem endsIn_of_whileStarted (hstop : Within R s.client.stop) {stopped : ε} {body : Op ν ε α}
    {b b' : Bridge ν} {r : Except Panic (Except ε α)}
    (h : (s.whileStarted stopped body).run.EndsIn r b b') :
    (r = .ok (.error stopped) ∧ Same b b') ∨
      ∃ b₁ b₂, Same b b₁ ∧ body.run.EndsIn r b₁ b₂ ∧ R b₂ b' := by
  obtain ⟨b₁, b₂, hout, hin, hback⟩ := endsIn_of_outsideHost h
  obtain ⟨entered, b₃, henter, hbody⟩ := endsIn_of_bind_quiet neverPanics_enter hin
  have hbefore := same_frame.trans hout.same ((follows_enter same_frame.composes).ok henter)
  cases entered with
  | false =>
    obtain ⟨hrefused, rfl⟩ := endsIn_pure hbody
    exact .inl ⟨hrefused, same_frame.trans hbefore hback.same⟩
  | true =>
    obtain ⟨b₄, _, hbody, hleave⟩ := endsIn_of_ensuring neverPanics_leave hbody
    have hleft := (follows_leave hR.composes hR.admits hstop.follows).ok hleave
    exact .inr ⟨b₃, b₄, hbefore, hbody, hR.trans hleft (hR.composes.alike hback)⟩

theorem whileStarted_ok (hstop : Within R s.client.stop) {stopped : ε} {body : Op ν ε α}
    {b b' : Bridge ν} {r : Except ε α} (h : (s.whileStarted stopped body).run b = .ok r b') :
    (r = .error stopped ∧ Same b b') ∨
      ∃ b₁ b₂, Same b b₁ ∧ body.run b₁ = .ok r b₂ ∧ R b₂ b' := by
  rcases endsIn_of_whileStarted hR hstop (r := .ok r) h with ⟨hrefused, hsame⟩ | hbody
  · exact .inl ⟨Except.ok.inj hrefused, hsame⟩
  · exact .inr hbody

theorem within_queueTable : Within R (s.queueTable : Op ν ε QueueTable).run :=
  (paired_queueTable (s := s) (closed_follows hR.composes).toPaired rfl).within

variable (hc : s.client.Within R)

include hc

theorem within_start (timeout : Option Duration) : Within R (s.start timeout).run :=
  (follows_start hR.composes hR.admits (fun t => (hc.start t).follows) timeout).within

theorem within_queueOperation {a : Act ν α} (h : s.QueueOperation a) : Within R a := by
  have hs : s.Passes (fun a _ => Follows (fun _ => R) a) (fun a _ => Follows (fun _ => R) a)
      s.client :=
    { whileStarted := fun stopped _ _ hbody =>
        follows_whileStarted hR.composes (follows_leave hR.composes hR.admits hc.stop.follows)
          stopped hbody
      openQueue := fun _ _ _ _ => (hc.openQueue ..).follows
      configureQueue := fun _ _ _ => (hc.configureQueue ..).follows
      closeQueue := fun _ _ => (hc.closeQueue ..).follows
      queue? := fun _ => (hc.queue? _).follows
      post := fun _ => (hc.post _).follows
      confirm := fun _ _ => (hc.confirm ..).follows
      builder := rfl
      queues := rfl }
  exact (closed_queueOperation (closed_follows hR.composes) hs h).within

theorem within_post (uri : String) (payload : ByteArray) (properties : Option PropertySet)
    (onAck : Option Correlation) : Within R (s.post uri payload properties onAck).run :=
  within_queueOperation hR hc (.post ..)

/-! ## Where configuring is told apart -/

section

omit hc

variable {J : Bridge ν → Bridge ν → Prop} (hJ : Absorbs R J)

include hJ

private theorem within_opBind_before {x : Op ν ε α} {f : α → Op ν ε β} (hx : Within R x.run)
    (hf : ∀ a b b', x.run b = .ok (.ok a) b' → Within J (f a).run) : Within J (x >>= f).run := by
  apply within_bind_before hJ hx
  intro r b b' hran
  cases r with
  | ok a => exact hf a b b' hran
  | error e => exact (within_pure hR _).mono fun _ _ => hJ.frame

private theorem within_whileStarted (hstop : Within R s.client.stop) (stopped : ε) {body : Op ν ε α}
    (hbody : Within J body.run) : Within J (s.whileStarted stopped body).run := by
  apply within_bind_before hJ (within_stepOut hR)
  intro saved _ _ _
  refine within_ensuring_after hJ ?_ (within_stepBack hR saved) (neverPanics_stepBack saved)
  apply within_bind_before hJ (follows_enter hR.composes).within
  intro entered _ _ _
  split
  · have hleave := (follows_leave hR.composes hR.admits hstop.follows).within
    exact within_ensuring_after hJ hbody hleave neverPanics_leave
  · exact (within_pure hR _).mono fun _ _ => hJ.frame

/-- An operation that configures the queue of an address does little else. -/
theorem within_configureQueue {uri : String} (hstop : Within R s.client.stop)
    (hqueue : Within R (s.client.queue? uri))
    (haddress : ∀ q b b', s.client.queue? uri b = .ok (some q) b' → q.uri = uri)
    (hconfigure : ∀ q options timeout, q.uri = uri →
      Within J (s.client.configureQueue q options timeout))
    (options : QueueOptions) (timeout : Option Duration) :
    Within J (s.configureQueue uri options timeout).run := by
  have hparts := (closed_follows hR.composes).toPaired
  apply within_opBind_before hR hJ
  · exact (paired_requireMonitoring (c := s.client) hparts options).within
  intro _ _ _ _
  refine within_whileStarted hR hJ hstop _ ?_
  apply within_opBind_before hR hJ
  · exact (paired_openHandle (c := s.client) hparts hqueue.follows _).within
  intro q b b' hopen
  have huri : q.uri = uri := by
    obtain ⟨found, hfound, hq⟩ := queue?_of_openHandle hopen
    cases found with
    | none => cases hq
    | some _ =>
      cases hq
      exact haddress q b b' hfound
  apply within_bind_after hJ
  · exact within_bind_after hJ (hconfigure q _ _ huri) fun _ => within_pure hR _
  intro status
  cases status with
  | ok status => exact (paired_expectSuccess hparts ..).within
  | error e => exact within_pure hR _

end

/-! ## Where opening and posting are told apart -/

section

omit hc

private theorem within_op {a : Act ν α} (h : Within R a) : Within R (op a : Op ν ε α).run :=
  within_bind hR h fun _ => within_pure hR _

private theorem within_opBind {x : Op ν ε α} {f : α → Op ν ε β} (hx : Within R x.run)
    (hf : ∀ a, Within R (f a).run) : Within R (x >>= f).run :=
  within_opBind_before hR hR.absorbs hx fun a _ _ _ => hf a

variable (hstop : Within R s.client.stop) (hqueue : ∀ uri, Within R (s.client.queue? uri))

include hstop hqueue

/-- What is done to a queue that is looked up while the session is started. -/
theorem within_lookedUp {uri : String} {missing stopped : ε} {f : QueueHandle → Op ν ε α}
    (hf : ∀ q, Within R (f q).run) :
    Within R (s.whileStarted stopped (s.openHandle uri missing >>= f)).run := by
  refine within_whileStarted hR hR.absorbs hstop _ (within_opBind hR ?_ hf)
  have hparts := (closed_follows hR.composes).toPaired
  exact (paired_openHandle (c := s.client) hparts (hqueue uri).follows _).within

theorem within_closeQueue (hclose : ∀ q timeout, Within R (s.client.closeQueue q timeout))
    (uri : String) (timeout : Option Duration) : Within R (s.closeQueue uri timeout).run := by
  refine within_lookedUp hR hstop hqueue fun q => ?_
  apply within_opBind hR (within_op hR (hclose q _))
  exact fun status => (paired_expectSuccess (closed_follows hR.composes).toPaired ..).within

theorem within_queueOptions (uri : String) : Within R (s.queueOptions uri).run :=
  within_lookedUp hR hstop hqueue fun _ =>
    within_opBind hR (within_queueTable hR) fun _ => within_pure hR _

theorem within_confirm (hconfirm : ∀ q guid, Within R (s.client.confirm q guid)) (uri : String)
    (guid : ByteArray) : Within R (s.confirm uri guid).run := by
  refine within_lookedUp hR hstop hqueue fun q => ?_
  apply within_opBind hR (within_queueTable hR)
  intro table
  simp only
  split
  · exact within_pure hR _
  · split
    · exact within_pure hR _
    · apply within_opBind hR (within_op hR (hconfirm q _))
      intro code
      split <;> exact within_pure hR _

end

end Session

end BrokerBridge
