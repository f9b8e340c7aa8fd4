import BrokerBridge.Proofs.Session.Closed

/-!
# Levels before and after

How deep threads are in host execution, in callbacks and inside the gate, when a computation starts
and when it is over. What puts all of this back is put together from parts that do.
-/

namespace BrokerBridge

variable {ν α β ε : Type}

/-- The same thread runs, and everybody is as deep in host execution and inside the gate as before.
A computation that exits has also left every callback; one that waits for ever inside of one has
not. -/
structure Balanced (exits : Bool) (b b' : Bridge ν) : Prop where
  thread : b'.thread = b.thread
  host : b'.host = b.host
  delivering : exits = true → b'.delivering = b.delivering
  holds : b'.gate.holds = b.gate.holds
  readers : ∀ t, b'.gate.depthOf t = b.gate.depthOf t

namespace Balanced

variable {e : Bool} {b b' : Bridge ν}

theorem refl (b : Bridge ν) : Balanced e b b := ⟨rfl, rfl, fun _ => rfl, rfl, fun _ => rfl⟩

theorem trans {e₁ e₂ : Bool} {b₁ b₂ b₃ : Bridge ν} (h₁ : Balanced e₁ b₁ b₂)
    (h₂ : Balanced e₂ b₂ b₃) : Balanced (e₂ && e₁) b₁ b₃ where
  thread := h₂.thread.trans h₁.thread
  host := h₂.host.trans h₁.host
  delivering he := by
    obtain ⟨he₂, he₁⟩ := Bool.and_eq_true_iff.mp he
    exact (h₂.delivering he₂).trans (h₁.delivering he₁)
  holds := h₂.holds.trans h₁.holds
  readers t := (h₂.readers t).trans (h₁.readers t)

theorem mono {e' : Bool} (h : Balanced e b b') (he : e' = true → e = true) : Balanced e' b b' :=
  ⟨h.thread, h.host, fun he' => h.delivering (he he'), h.holds, h.readers⟩

private theorem after {b₁ b₂ b₃ : Bridge ν} (h₁ : Balanced true b₁ b₂) (h₂ : Balanced e b₂ b₃) :
    Balanced e b₁ b₃ :=
  (h₁.trans h₂).mono fun he => by rw [he]; rfl

private theorem ofHost {host : HostLock} (h : Balanced e { b with host } b') :
    Balanced e b { b' with host := b.host } :=
  ⟨h.thread, rfl, h.delivering, h.holds, h.readers⟩

private theorem ofThread {t : ThreadId} {k : Nat}
    (h : Balanced e { b with thread := t, delivering := k } b') :
    Balanced e b { b' with thread := b.thread, delivering := b.delivering } :=
  ⟨rfl, h.host, fun _ => rfl, h.holds, h.readers⟩

private theorem ofGate (h : Balanced e { b with gate := b.gate.hold.count b.thread } b') :
    Balanced e b { b' with gate := (b'.gate.uncount b'.thread).release } where
  thread := h.thread
  host := h.host
  delivering := h.delivering
  holds := by
    have hholds := h.holds
    rw [Gate.holds_count] at hholds
    show (b'.gate.uncount b'.thread).holds - 1 = b.gate.holds
    rw [Gate.holds_uncount, hholds]
    rfl
  readers t := by
    have hdepth (u : ThreadId) : b'.gate.depthOf u =
        if u = b.thread then b.gate.depthOf b.thread + 1 else b.gate.depthOf u :=
      (h.readers u).trans (Gate.depthOf_count ..)
    have hthread : b'.thread = b.thread := h.thread
    show (b'.gate.uncount b'.thread).depthOf t = b.gate.depthOf t
    rw [Gate.depthOf_uncount, hthread, hdepth, hdepth]
    by_cases ht : t = b.thread
    · subst ht
      simp
    · simp [ht]

end Balanced

namespace Act

def final : EStateM.Result Interrupt (Bridge ν) α → Bridge ν
  | .ok _ b | .error _ b => b

def exits : EStateM.Result Interrupt (Bridge ν) α → Bool
  | .ok _ _ | .error (.panic _) _ => true
  | .error _ _ => false

def Restores (a : Act ν α) : Prop :=
  ∀ b : Bridge ν, b.host.WellFormed → Balanced (exits (a b)) b (final (a b))

theorem Restores.of_ok {a : Act ν α} (h : Restores a) {b b' : Bridge ν} {x : α}
    (hb : a b = .ok x b') (hlock : b.host.WellFormed) : Balanced true b b' := by
  have hbalanced := h b hlock
  rw [hb] at hbalanced
  exact hbalanced

theorem restores_done (x : α) : Restores (pure x : Act ν α) := fun b _ => .refl b

theorem restores_reads : Restores (get : Act ν (Bridge ν)) := fun b _ => .refl b

theorem restores_fails (i : Interrupt) : Restores (throw i : Act ν α) := fun b _ => .refl b

theorem restores_modify {f : Bridge ν → Bridge ν} (hf : ∀ b, Balanced true b (f b)) :
    Restores (modify f : Act ν Unit) := fun b _ => hf b

theorem restores_onNative (f : ν → α × ν) : Restores (onNative f) :=
  fun _ _ => ⟨rfl, rfl, fun _ => rfl, rfl, fun _ => rfl⟩

theorem restores_modifyNative (f : ν → ν) : Restores (modifyNative f) :=
  restores_modify fun _ => ⟨rfl, rfl, fun _ => rfl, rfl, fun _ => rfl⟩

theorem restores_andThen {m : Act ν α} {k : α → Act ν β} (hm : Restores m)
    (hk : ∀ x, Restores (k x)) : Restores (m >>= k) := by
  intro b hlock
  cases hrun : m b with
  | ok x b₁ =>
    have hfirst := hm.of_ok hrun hlock
    rw [bind_of_ok hrun]
    exact hfirst.after (hk x b₁ (by rw [hfirst.host]; exact hlock))
  | error i b₁ =>
    have hfirst := hm b hlock
    rw [bind_of_error hrun]
    rw [hrun] at hfirst
    cases i <;> exact hfirst

theorem restores_attempt {body : Act ν α} (h : Restores body) : Restores (attempt body) := by
  intro b hlock
  have hbody := h b hlock
  unfold attempt
  cases hrun : body b with
  | ok x b₁ =>
    rw [hrun] at hbody
    exact hbody
  | error i b₁ =>
    rw [hrun] at hbody
    cases i <;> exact hbody

private theorem balanced_of_ensuring {body : Act ν α} {cleanup : Act ν Unit} {b₀ b : Bridge ν}
    (hbody : Restores body) (hlock : b.host.WellFormed) (hquiet : NeverPanics cleanup)
    (hback : ∀ {e b₁}, Balanced e b b₁ →
      Balanced (exits (cleanup b₁) && e) b₀ (final (cleanup b₁))) :
    Balanced (exits (ensuring body cleanup b)) b₀ (final (ensuring body cleanup b)) := by
  have hends := hback (hbody b hlock)
  unfold ensuring
  cases hrun : body b with
  | ok x b₁ =>
    rw [hrun] at hends
    cases hclean : cleanup b₁ with
    | ok u b₂ =>
      simp only [final, hclean] at hends ⊢
      exact hends
    | error i b₂ =>
      simp only [final, hclean] at hends ⊢
      cases i <;> exact hends
  | error i b₁ =>
    rw [hrun] at hends
    cases hclean : cleanup b₁ with
    | ok u b₂ =>
      simp only [final, hclean] at hends ⊢
      cases i <;> exact hends
    | error j b₂ =>
      simp only [final, hclean] at hends ⊢
      refine hends.mono fun hexits => ?_
      cases j with
      | panic cause => exact absurd hclean (hquiet _ _ _)
      | _ => cases hexits

theorem restores_ensuring {body : Act ν α} {cleanup : Act ν Unit} (h : Restores body)
    (hclean : Restores cleanup) (hquiet : NeverPanics cleanup) :
    Restores (ensuring body cleanup) := by
  intro b hlock
  refine balanced_of_ensuring h hlock hquiet ?_
  intro e b₁ hbody
  have hlock' : b₁.host.WellFormed := by
    rw [hbody.host]
    exact hlock
  exact hbody.trans (hclean b₁ hlock')

theorem restores_inside {body : Act ν α} (h : Restores body) : Restores (inHost body) := by
  intro b hlock
  cases hhost : b.host.enter? b.thread 1 with
  | none =>
    have henter : enterHost 1 b = .error .blocked b := by rw [enterHost_apply, hhost]
    rw [inHost, bind_of_error henter]
    exact .refl b
  | some host =>
    have henter : enterHost 1 b = .ok () { b with host } := by rw [enterHost_apply, hhost]
    rw [inHost, bind_of_ok henter]
    refine balanced_of_ensuring h ?_ (neverPanics_modify _) ?_
    · exact HostLock.wellFormed_enter? Nat.one_pos hhost
    · intro e b₁ hbody
      have hback : b₁.host.leave = b.host := by
        rw [hbody.host]
        exact HostLock.leave_enter? hlock hhost
      show Balanced e b { b₁ with host := b₁.host.leave }
      rw [hback]
      exact hbody.ofHost

theorem restores_outside {body : Act ν α} (h : Restores body) : Restores (outsideHost body) := by
  intro b hlock
  have hout : stepOut b = .ok (b.host.leaveAll b.thread).1
      { b with host := (b.host.leaveAll b.thread).2 } := rfl
  rw [outsideHost, bind_of_ok hout]
  refine balanced_of_ensuring h ?_ (neverPanics_stepBack _) ?_
  · exact HostLock.wellFormed_leaveAll hlock
  · intro e b₁ hbody
    have hback : b₁.host.restore? b₁.thread (b.host.leaveAll b.thread).1 = some b.host := by
      rw [hbody.host, hbody.thread]
      exact HostLock.restore?_leaveAll hlock
    rw [stepBack_apply, hback]
    exact hbody.ofHost

theorem closed_restores : Closed fun a _ => Restores (ν := ν) a where
  done := restores_done
  andThen := restores_andThen
  reads := restores_reads
  fails := restores_fails
  inside := restores_inside
  outside := restores_outside
  counts _ := restores_modify fun _ => ⟨rfl, rfl, fun _ => rfl, rfl, fun _ => rfl⟩

theorem restores_onThread (t : ThreadId) {body : Act ν α} (h : Restores body) :
    Restores (onThread t body) := by
  intro b hlock
  have hget : (get : Act ν (Bridge ν)) b = .ok b b := rfl
  have hset : (set { b with thread := t, delivering := 0 } : Act ν PUnit) b =
      .ok ⟨⟩ { b with thread := t, delivering := 0 } := rfl
  rw [onThread, bind_of_ok hget, bind_of_ok hset]
  refine balanced_of_ensuring h ?_ (neverPanics_modify _) ?_
  · exact hlock
  · exact fun hbody => hbody.ofThread

theorem restores_changeStarted (started : Bool) :
    Restores (changeStarted started : Act ν Bool) := by
  apply restores_andThen restores_reads
  intro b
  simp only
  split
  · apply restores_andThen
    · exact restores_modify fun _ => ⟨rfl, rfl, fun _ => rfl, rfl, fun _ => rfl⟩
    · exact fun _ => restores_done _
  · exact restores_fails _

theorem restores_warn (text : String) :
    Restores (warn text : Act ν (Except SessionError Unit)) := by
  apply restores_andThen
  · exact restores_modify fun _ => ⟨rfl, rfl, fun _ => rfl, rfl, fun _ => rfl⟩
  intro _
  exact restores_andThen restores_reads fun _ => restores_done _

theorem restores_reportUnhandled (context error : String) :
    Restores (reportUnhandled context error : Act ν Unit) :=
  restores_modify fun _ => ⟨rfl, rfl, fun _ => rfl, rfl, fun _ => rfl⟩

/-- Whatever a callback does and however it fails, it is left at the level of its call. -/
theorem restores_callHost {host : HostCode ν} {d : Delivery} (h : Restores (host d)) :
    Restores (callHost host d) := by
  intro b hlock
  have hcalled : (modify fun b => { b with
      delivering := b.delivering + 1, deliveries := b.deliveries ++ [d] } : Act ν Unit) b =
        .ok () { b with delivering := b.delivering + 1, deliveries := b.deliveries ++ [d] } := rfl
  rw [callHost, bind_of_ok hcalled]
  cases hrun : attempt (host d)
      { b with delivering := b.delivering + 1, deliveries := b.deliveries ++ [d] } with
  | ok outcome b₁ =>
    have hhost := (restores_attempt h).of_ok hrun hlock
    have hleft : (modify fun b => { b with delivering := b.delivering - 1 } : Act ν Unit) b₁ =
        .ok () { b₁ with delivering := b₁.delivering - 1 } := rfl
    have hback : Balanced true b { b₁ with delivering := b₁.delivering - 1 } :=
      ⟨hhost.thread, hhost.host, fun _ => congrArg (· - 1) (hhost.delivering rfl), hhost.holds,
        hhost.readers⟩
    rw [bind_of_ok hrun, hostReturned, bind_of_ok hleft]
    refine hback.after ?_
    have hlock' : b₁.host.WellFormed := by
      rw [hhost.host]
      exact hlock
    cases hostFailure? outcome with
    | none => exact restores_done () _ hlock'
    | some text =>
      refine restores_andThen (closed_restores.counts _) (fun _ => ?_) _ hlock'
      exact restores_reportUnhandled _ _
  | error i b₁ =>
    have hhost := restores_attempt h
      { b with delivering := b.delivering + 1, deliveries := b.deliveries ++ [d] } hlock
    rw [hrun] at hhost
    rw [bind_of_error hrun]
    cases i with
    | panic cause => exact absurd hrun (neverPanics_attempt _ _ _ _)
    | _ => exact ⟨hhost.thread, hhost.host, nofun, hhost.holds, hhost.readers⟩

end Act

/-! ## Sessions -/

namespace Session

open Act

theorem enter_apply (b : Bridge ν) : enter b =
    if b.gate.admits (b.delivering != 0 || b.gate.isReader b.thread) then
      if b.gate.started then .ok true { b with gate := b.gate.hold.count b.thread }
      else .ok false b
    else .error .blocked b := by
  show (if b.gate.admits (b.delivering != 0 || b.gate.isReader b.thread) then
      (if b.gate.started then do
        modifyGate fun g => g.hold.count b.thread
        return true
      else return false)
    else throw .blocked : Act ν Bool) b = _
  split
  · split <;> rfl
  · rfl

variable {s : Session ν} (hstop : Restores s.client.stop)

include hstop

private theorem restores_stop (warn : Bool) : Restores (s.stop warn).run :=
  paired_stop (c := s.client) closed_restores.operates hstop (restores_changeStarted false)
    restores_warn warn

private theorem restores_runWaiting (l : List StopRequest) : Restores (s.runWaiting l) := by
  induction l with
  | nil => exact restores_done _
  | cons r rest ih =>
    apply restores_andThen
    · exact restores_onThread r.thread (restores_attempt (restores_stop hstop r.warn))
    intro result
    apply restores_andThen
    · exact restores_modify fun _ => ⟨rfl, rfl, fun _ => rfl, rfl, fun _ => rfl⟩
    · exact fun _ => ih

private theorem restores_letIn : Restores (do
    let g := (← get).gate
    if g.isClear then
      modifyGate fun g => { g with waiting := [] }
      s.runWaiting g.waiting) := by
  apply restores_andThen restores_reads
  intro b
  simp only
  split
  · apply restores_andThen
    · exact restores_modify fun _ => ⟨rfl, rfl, fun _ => rfl, rfl, fun _ => rfl⟩
    · exact fun _ => restores_runWaiting hstop _
  · exact restores_done _

theorem restores_entered (stopped : ε) {body : Op ν ε α} (h : Restores body.run) :
    Restores (do
      if ← enter then ensuring body.run s.leave
      else return .error stopped) := by
  intro b hlock
  have henter := enter_apply b
  split at henter
  · split at henter
    · rw [bind_of_ok henter]
      refine balanced_of_ensuring h ?_ neverPanics_leave ?_
      · exact hlock
      · intro e b₁ hbody
        have hlock' : b₁.host.WellFormed := by
          rw [hbody.host]
          exact hlock
        exact hbody.ofGate.trans (restores_letIn hstop
          { b₁ with gate := (b₁.gate.uncount b₁.thread).release } hlock')
    · rw [bind_of_ok henter]
      exact .refl b
  · rw [bind_of_error henter]
    exact .refl b

end Session

end BrokerBridge
