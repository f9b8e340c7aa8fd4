import BrokerBridge.Session.Delivery
import BrokerBridge.Session.Operations

/-!
# Computations and their ends

How the end of a computation comes out of the ends of its parts, which computations no panic comes
out of, and which return.
-/

namespace BrokerBridge

variable {ν α β ε : Type}

namespace Act

theorem bind_eq_ok {m : Act ν α} {k : α → Act ν β} {b b' : Bridge ν} {y : β} :
    (m >>= k) b = .ok y b' ↔ ∃ x b₁, m b = .ok x b₁ ∧ k x b₁ = .ok y b' := by
  show EStateM.bind m k b = _ ↔ _
  unfold EStateM.bind
  split
  · next h => simp [h, and_assoc]
  · next h => simp [h]

theorem bind_eq_error {m : Act ν α} {k : α → Act ν β} {b b' : Bridge ν} {i : Interrupt} :
    (m >>= k) b = .error i b' ↔
      m b = .error i b' ∨ ∃ x b₁, m b = .ok x b₁ ∧ k x b₁ = .error i b' := by
  show EStateM.bind m k b = _ ↔ _
  unfold EStateM.bind
  split
  · next h => simp [h, and_assoc]
  · next h => simp [h]

theorem bind_of_ok {m : Act ν α} {k : α → Act ν β} {b b₁ : Bridge ν} {x : α}
    (h : m b = .ok x b₁) : (m >>= k) b = k x b₁ := by
  show EStateM.bind m k b = _
  rw [EStateM.bind, h]

theorem bind_of_error {m : Act ν α} {k : α → Act ν β} {b b₁ : Bridge ν} {i : Interrupt}
    (h : m b = .error i b₁) : (m >>= k) b = .error i b₁ := by
  show EStateM.bind m k b = _
  rw [EStateM.bind, h]

theorem body_of_ensuring_ok {body : Act ν α} {cleanup : Act ν Unit} {b b' : Bridge ν} {x : α}
    (h : ensuring body cleanup b = .ok x b') :
    ∃ b₁ u, body b = .ok x b₁ ∧ cleanup b₁ = .ok u b' := by
  unfold ensuring at h
  split at h
  · next h₁ =>
    split at h
    · next h₂ =>
      cases h
      exact ⟨_, _, h₁, h₂⟩
    · cases h
  · split at h <;> cases h

theorem ensuring_of_ok {body : Act ν α} {cleanup : Act ν Unit} {b b₁ b' : Bridge ν} {x : α}
    {u : Unit} (h : body b = .ok x b₁) (hcleanup : cleanup b₁ = .ok u b') :
    ensuring body cleanup b = .ok x b' := by
  rw [ensuring, h]
  simp only [hcleanup]

theorem ensuring_congr {body body' : Act ν α} {b b₁ : Bridge ν} (h : body b = body' b₁)
    (cleanup : Act ν Unit) : ensuring body cleanup b = ensuring body' cleanup b₁ := by
  unfold ensuring
  rw [h]

def NeverPanics (a : Act ν α) : Prop := ∀ b cause b', a b ≠ .error (.panic cause) b'

def Ends (a : Act ν α) (b b' : Bridge ν) : Prop :=
  (∃ x, a b = .ok x b') ∨ ∃ cause, a b = .error (.panic cause) b'

/-- A computation ends with a result, or with the cause of its panic. -/
def EndsIn (a : Act ν α) : Except Panic α → Bridge ν → Bridge ν → Prop
  | .ok x, b, b' => a b = .ok x b'
  | .error cause, b, b' => a b = .error (.panic cause) b'

theorem EndsIn.ends {a : Act ν α} {r : Except Panic α} {b b' : Bridge ν} (h : a.EndsIn r b b') :
    a.Ends b b' := by
  cases r with
  | ok x => exact .inl ⟨x, h⟩
  | error cause => exact .inr ⟨cause, h⟩

theorem EndsIn.eq_ok_iff {a : Act ν α} {r : Except Panic α} {b b' : Bridge ν}
    (h : a.EndsIn r b b') {x : α} : a b = .ok x b' ↔ r = .ok x := by
  cases r with
  | ok y =>
    have hrun : a b = .ok y b' := h
    rw [hrun]
    exact ⟨fun | rfl => rfl, fun | rfl => rfl⟩
  | error cause =>
    have hrun : a b = .error (.panic cause) b' := h
    rw [hrun]
    exact ⟨nofun, nofun⟩

theorem Ends.endsIn {a : Act ν α} {b b' : Bridge ν} (h : a.Ends b b') : ∃ r, a.EndsIn r b b' := by
  rcases h with ⟨x, h⟩ | ⟨cause, h⟩
  · exact ⟨.ok x, h⟩
  · exact ⟨.error cause, h⟩

theorem endsIn_of_attempt {body : Act ν α} {b b' : Bridge ν} {r : Except Panic α}
    (h : attempt body b = .ok r b') : body.EndsIn r b b' := by
  unfold attempt at h
  split at h
  · next hbody =>
    cases h
    exact hbody
  · next hbody =>
    cases h
    exact hbody
  · cases h

theorem ends_of_attempt {body : Act ν α} {b b' : Bridge ν} {r : Except Panic α}
    (h : attempt body b = .ok r b') : body.Ends b b' :=
  (endsIn_of_attempt h).ends

theorem ends_of_bind {m : Act ν α} {k : α → Act ν β} {b b' : Bridge ν} (h : (m >>= k).Ends b b') :
    (∃ x b₁, m b = .ok x b₁ ∧ (k x).Ends b₁ b') ∨ ∃ cause, m b = .error (.panic cause) b' := by
  rcases h with ⟨y, h⟩ | ⟨cause, h⟩
  · obtain ⟨x, b₁, hm, hk⟩ := bind_eq_ok.mp h
    exact .inl ⟨x, b₁, hm, .inl ⟨y, hk⟩⟩
  · rcases bind_eq_error.mp h with hm | ⟨x, b₁, hm, hk⟩
    · exact .inr ⟨cause, hm⟩
    · exact .inl ⟨x, b₁, hm, .inr ⟨cause, hk⟩⟩

theorem endsIn_of_bind {m : Act ν α} {k : α → Act ν β} {r : Except Panic β} {b b' : Bridge ν}
    (h : (m >>= k).EndsIn r b b') :
    (∃ x b₁, m b = .ok x b₁ ∧ (k x).EndsIn r b₁ b') ∨
      ∃ cause, r = .error cause ∧ m b = .error (.panic cause) b' := by
  cases r with
  | ok y => exact .inl (bind_eq_ok.mp h)
  | error cause =>
    rcases bind_eq_error.mp h with hm | hk
    · exact .inr ⟨cause, rfl, hm⟩
    · exact .inl hk

theorem endsIn_pure {x : α} {r : Except Panic α} {b b' : Bridge ν}
    (h : (pure x : Act ν α).EndsIn r b b') : r = .ok x ∧ b' = b := by
  cases r with
  | ok =>
    cases h
    exact ⟨rfl, rfl⟩
  | error => cases h

theorem eq_of_ends_pure {x : α} {b b' : Bridge ν} (h : (pure x : Act ν α).Ends b b') :
    b' = b := by
  obtain ⟨_, h⟩ := h.endsIn
  exact (endsIn_pure h).2

/-! ## Panics -/

theorem neverPanics_pure (x : α) : NeverPanics (pure x : Act ν α) := by
  intro b cause b' h
  cases h

theorem neverPanics_get : NeverPanics (get : Act ν (Bridge ν)) := by
  intro b cause b' h
  cases h

theorem neverPanics_modify (f : Bridge ν → Bridge ν) : NeverPanics (modify f : Act ν Unit) := by
  intro b cause b' h
  cases h

theorem neverPanics_onNative (f : ν → α × ν) : NeverPanics (onNative f) := by
  intro b cause b' h
  cases h

theorem neverPanics_bind {m : Act ν α} {k : α → Act ν β} (hm : NeverPanics m)
    (hk : ∀ x, NeverPanics (k x)) : NeverPanics (m >>= k) := by
  intro b cause b' h
  rcases bind_eq_error.mp h with h₁ | ⟨x, b₁, _, h₂⟩
  · exact hm _ _ _ h₁
  · exact hk x _ _ _ h₂

theorem neverPanics_forM {f : α → Act ν Unit} {l : List α} (h : ∀ x ∈ l, NeverPanics (f x)) :
    NeverPanics (l.forM f) := by
  induction l with
  | nil => exact neverPanics_pure _
  | cons x l ih =>
    apply neverPanics_bind (h x (List.mem_cons_self ..))
    exact fun _ => ih fun y hy => h y (List.mem_cons_of_mem _ hy)

theorem neverPanics_attempt (body : Act ν α) : NeverPanics (attempt body) := by
  intro b cause b' h
  unfold attempt at h
  split at h
  · cases h
  · cases h
  · next hnot _ => 
    cases h
    exact hnot _ rfl

/-- A panic that comes out of a cleanup that never panics was one of the body. -/
theorem body_of_ensuring_panic {body : Act ν α} {cleanup : Act ν Unit} {b b' : Bridge ν}
    {cause : Panic} (hquiet : NeverPanics cleanup)
    (h : ensuring body cleanup b = .error (.panic cause) b') :
    ∃ b₁ u, body b = .error (.panic cause) b₁ ∧ cleanup b₁ = .ok u b' := by
  unfold ensuring at h
  split at h
  · split at h
    · cases h
    · next h₂ =>
      cases h
      exact absurd h₂ (hquiet _ _ _)
  · next h₁ =>
    split at h
    · next h₂ =>
      cases h
      exact ⟨_, _, h₁, h₂⟩
    · next h₂ =>
      cases h
      exact absurd h₂ (hquiet _ _ _)

theorem endsIn_of_ensuring {body : Act ν α} {cleanup : Act ν Unit} {r : Except Panic α}
    {b b' : Bridge ν} (hquiet : NeverPanics cleanup) (h : (ensuring body cleanup).EndsIn r b b') :
    ∃ b₁ u, body.EndsIn r b b₁ ∧ cleanup b₁ = .ok u b' := by
  cases r with
  | ok x => exact body_of_ensuring_ok h
  | error cause => exact body_of_ensuring_panic hquiet h

theorem endsIn_of_bind_quiet {m : Act ν α} {k : α → Act ν β} {r : Except Panic β}
    {b b' : Bridge ν} (hquiet : NeverPanics m) (h : (m >>= k).EndsIn r b b') :
    ∃ x b₁, m b = .ok x b₁ ∧ (k x).EndsIn r b₁ b' := by
  rcases endsIn_of_bind h with hk | ⟨cause, _, hm⟩
  · exact hk
  · exact absurd hm (hquiet _ _ _)

theorem neverPanics_ensuring {body : Act ν α} {cleanup : Act ν Unit} (hbody : NeverPanics body)
    (hcleanup : NeverPanics cleanup) : NeverPanics (ensuring body cleanup) := by
  intro b cause b' h
  obtain ⟨b₁, _, h₁, _⟩ := body_of_ensuring_panic hcleanup h
  exact hbody _ _ _ h₁

theorem enterHost_apply (levels : Nat) (b : Bridge ν) : enterHost levels b =
    match b.host.enter? b.thread levels with
    | some host => .ok () { b with host }
    | none => .error .blocked b := by
  show (match b.host.enter? b.thread levels with
    | some host => set { b with host }
    | none => throw .blocked : Act ν Unit) b = _
  cases b.host.enter? b.thread levels <;> rfl

theorem stepBack_apply (saved : Nat) (b : Bridge ν) : stepBack saved b =
    match b.host.restore? b.thread saved with
    | some host => .ok () { b with host }
    | none => .error .blocked b := by
  unfold stepBack HostLock.restore?
  split
  · rfl
  · exact enterHost_apply saved b

theorem neverPanics_enterHost (levels : Nat) : NeverPanics (enterHost levels : Act ν Unit) := by
  intro b cause b' h
  rw [enterHost_apply] at h
  split at h <;> cases h

theorem neverPanics_stepBack (saved : Nat) : NeverPanics (stepBack saved : Act ν Unit) := by
  unfold stepBack
  split
  · exact neverPanics_pure _
  · exact neverPanics_enterHost saved

theorem eq_of_changeStarted {started was : Bool} {b b' : Bridge ν}
    (h : changeStarted started b = .ok was b') :
    b.gate.isClear = true ∧ was = b.gate.started ∧
      b' = { b with gate := b.gate.setStarted started } := by
  obtain ⟨_, b₁, hget, h⟩ := bind_eq_ok.mp h
  cases hget
  split at h
  · next hclear =>
    cases h
    exact ⟨hclear, rfl, rfl⟩
  · cases h

theorem neverPanics_changeStarted (started : Bool) :
    NeverPanics (changeStarted started : Act ν Bool) := by
  apply neverPanics_bind neverPanics_get
  intro b
  simp only
  split
  · exact neverPanics_bind (neverPanics_modify _) fun _ => neverPanics_pure _
  · intro _ _ _ h
    cases h

private theorem neverPanics_hostReturned (d : Delivery) (outcome : Except Panic HostOutcome) :
    NeverPanics (hostReturned d outcome : Act ν Unit) := by
  apply neverPanics_bind (neverPanics_modify _)
  intro _
  split
  · exact neverPanics_pure _
  · exact neverPanics_bind (neverPanics_modify _) fun _ => neverPanics_modify _

theorem neverPanics_callHost (host : HostCode ν) (d : Delivery) :
    NeverPanics (callHost host d) := by
  apply neverPanics_bind (neverPanics_modify _)
  intro _
  exact neverPanics_bind (neverPanics_attempt _) fun _ => neverPanics_hostReturned _ _

theorem neverPanics_inHost {body : Act ν α} (h : NeverPanics body) :
    NeverPanics (inHost body) :=
  neverPanics_bind (neverPanics_enterHost 1) fun _ =>
    neverPanics_ensuring h (neverPanics_modify _)

/-- Whatever callbacks do, none of it comes out of telling the host. -/
theorem neverPanics_tell (host : HostCode ν) (e : NativeEvent) : NeverPanics (e.tell host) := by
  have hcounts (f : Counters → Counters) : NeverPanics (observe f : Act ν Unit) :=
    neverPanics_modify _
  have hcall := neverPanics_callHost host
  cases e with
  | session e => exact neverPanics_inHost (hcall _)
  | message e =>
    apply neverPanics_inHost
    split
    · unfold MessageEvent.tellPushed
      simp only
      have hlast (f : Counters → Counters) (d : Delivery) :
          NeverPanics (observe f >>= fun _ => callHost host d) :=
        neverPanics_bind (hcounts f) fun _ => hcall d
      split
      · apply neverPanics_bind (hcounts _)
        exact fun _ => neverPanics_bind (hcall _) fun _ => hlast _ _
      · exact hlast _ _
    · apply neverPanics_bind (hcounts _)
      intro _
      split
      · exact neverPanics_bind (hcounts _) fun _ => hcall _
      · exact neverPanics_pure _
    · exact hcall _

/-! ## Returning -/

theorem returns_bind {m : Act ν α} {k : α → Act ν β} {b b₁ : Bridge ν} {x : α}
    (hm : m b = .ok x b₁) (hk : ∃ y b', k x b₁ = .ok y b') : ∃ y b', (m >>= k) b = .ok y b' := by
  rw [bind_of_ok hm]
  exact hk

theorem returns_ite {c : Prop} [Decidable c] {x y : Act ν α} {b : Bridge ν}
    (hx : ∃ a b', x b = .ok a b') (hy : ∃ a b', y b = .ok a b') :
    ∃ a b', (if c then x else y) b = .ok a b' := by
  split
  · exact hx
  · exact hy

/-- Host execution is taken up and left again. -/
theorem inHost_of_ok {body : Act ν α} {x : α} {b b' : Bridge ν} {host : HostLock}
    (henter : b.host.enter? b.thread 1 = some host) (hbody : body { b with host } = .ok x b') :
    inHost body b = .ok x { b' with host := b'.host.leave } := by
  have hentered : enterHost 1 b = .ok () { b with host } := by
    rw [enterHost_apply, henter]
  exact (bind_of_ok hentered).trans (ensuring_of_ok hbody rfl)

theorem returns_inHost {body : Act ν α} {b : Bridge ν}
    (hfree : (b.host.enter? b.thread 1).isSome)
    (h : ∀ host, ∃ x b', body { b with host } = .ok x b') : ∃ x b', inHost body b = .ok x b' := by
  obtain ⟨host, henter⟩ := Option.isSome_iff_exists.mp hfree
  obtain ⟨x, b', hbody⟩ := h host
  exact ⟨x, _, inHost_of_ok henter hbody⟩

end Act

namespace Session

open Act

variable {s : Session ν}

theorem neverPanics_enter : NeverPanics (enter : Act ν Bool) := by
  apply neverPanics_bind neverPanics_get
  intro b
  simp only
  split
  · split
    · exact neverPanics_bind (neverPanics_modify _) fun _ => neverPanics_pure _
    · exact neverPanics_pure _
  · intro b cause b' h
    cases h

/-- What goes wrong with a stop that waited stays with it. -/
theorem neverPanics_runWaiting (l : List StopRequest) : NeverPanics (s.runWaiting l) := by
  induction l with
  | nil => exact neverPanics_pure _
  | cons r rest ih =>
    apply neverPanics_bind
    · apply neverPanics_bind neverPanics_get
      intro b
      apply neverPanics_bind
      · intro b₁ cause b' h
        cases h
      · exact fun _ => neverPanics_ensuring (neverPanics_attempt _) (neverPanics_modify _)
    · exact fun _ => neverPanics_bind (neverPanics_modify _) fun _ => ih

theorem neverPanics_leave : NeverPanics s.leave := by
  apply neverPanics_bind neverPanics_get
  intro b
  apply neverPanics_bind (neverPanics_modify _)
  intro _
  apply neverPanics_bind neverPanics_get
  intro b'
  simp only
  split
  · exact neverPanics_bind (neverPanics_modify _) fun _ => neverPanics_runWaiting _
  · exact neverPanics_pure _

theorem endsIn_of_opBind {x : Op ν ε α} {f : α → Op ν ε β} {b b' : Bridge ν}
    {r : Except Panic (Except ε β)} (h : (x >>= f).run.EndsIn r b b') :
    (∃ e, x.run b = .ok (.error e) b' ∧ r = .ok (.error e)) ∨
      (∃ a b₁, x.run b = .ok (.ok a) b₁ ∧ (f a).run.EndsIn r b₁ b') ∨
      ∃ cause, r = .error cause ∧ x.run b = .error (.panic cause) b' := by
  rcases endsIn_of_bind h with ⟨y, b₁, hx, hf⟩ | ⟨cause, hr, hx⟩
  · cases y with
    | ok a => exact .inr (.inl ⟨a, b₁, hx, hf⟩)
    | error e =>
      obtain ⟨hr, rfl⟩ := endsIn_pure hf
      exact .inl ⟨e, hx, hr⟩
  · exact .inr (.inr ⟨cause, hr, hx⟩)

theorem opBind_ok {x : Op ν ε α} {f : α → Op ν ε β} {b b' : Bridge ν} {r : Except ε β}
    (h : (x >>= f).run b = .ok r b') :
    (∃ e, x.run b = .ok (.error e) b' ∧ r = .error e) ∨
      ∃ a b₁, x.run b = .ok (.ok a) b₁ ∧ (f a).run b₁ = .ok r b' := by
  rcases endsIn_of_opBind (r := .ok r) h with ⟨e, hx, hr⟩ | hf | ⟨_, hr, _⟩
  · exact .inl ⟨e, hx, Except.ok.inj hr⟩
  · exact .inr hf
  · cases hr

theorem op_ok {a : Act ν α} {b b' : Bridge ν} {r : Except ε α}
    (h : (op a : Op ν ε α).run b = .ok r b') : ∃ x, r = .ok x ∧ a b = .ok x b' := by
  obtain ⟨x, b₁, ha, hpure⟩ := bind_eq_ok.mp h
  cases hpure
  exact ⟨x, rfl, ha⟩

theorem endsIn_of_opBind_op {a : Act ν α} {f : α → Op ν ε β} {b b' : Bridge ν}
    {r : Except Panic (Except ε β)} (h : (op a >>= f).run.EndsIn r b b') :
    (∃ x b₁, a b = .ok x b₁ ∧ (f x).run.EndsIn r b₁ b') ∨
      ∃ cause, r = .error cause ∧ a b = .error (.panic cause) b' := by
  rcases endsIn_of_opBind h with ⟨e, ha, _⟩ | ⟨x, b₁, ha, hf⟩ | ⟨cause, hr, ha⟩
  · obtain ⟨_, hx, _⟩ := op_ok ha
    cases hx
  · obtain ⟨_, hx, ha⟩ := op_ok ha
    cases hx
    exact .inl ⟨x, b₁, ha, hf⟩
  · rcases bind_eq_error.mp ha with ha | ⟨_, _, _, hpure⟩
    · exact .inr ⟨cause, hr, ha⟩
    · cases hpure

theorem queue?_of_openHandle {uri : String} {missing : ε} {b b' : Bridge ν}
    {r : Except ε QueueHandle} (h : (s.openHandle uri missing).run b = .ok r b') :
    ∃ q, s.client.queue? uri b = .ok q b' ∧ r = q.elim (.error missing) .ok := by
  rcases opBind_ok h with ⟨e, hq, _⟩ | ⟨q, b₁, hq, hmatch⟩
  · obtain ⟨_, hx, _⟩ := op_ok hq
    cases hx
  · obtain ⟨_, hx, hq⟩ := op_ok hq
    cases hx
    cases q with
    | none =>
      cases hmatch
      exact ⟨none, hq, rfl⟩
    | some q =>
      cases hmatch
      exact ⟨some q, hq, rfl⟩

end Session

end BrokerBridge
