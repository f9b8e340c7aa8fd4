import BrokerBridge.Proofs.Concurrency.Guards
import BrokerBridge.Proofs.Replay.CallPlans

/-!
# What passes through the buffers

Any number of threads call the scripted client and report the host's health. Whoever is told of an
event, or asked for a part of the script, may call again, step out of host execution, or panic, to
any depth. In every interleaving an event is in a buffer only while its call is about to take it
out again, and a delivery hands over the event that it was given.
-/

namespace BrokerBridge

inductive CallPoint (α : Type) where
  /-- Not in host execution yet. -/
  | before (next : CallPlan α)
  | buffered (next : MessageEvent → HostPlan α)
  | popping (next : MessageEvent → HostPlan α)
  | within (next : HostPlan α)
  | taking (e : NativeEvent) (next : HostPlan α)
  | telling (e : NativeEvent) (next : HostPlan α)
  /-- A panic unwinds. -/
  | leaving

namespace CallPoint

variable {α : Type}

/-- The next section. Tokens that are held to the end make no difference to it. -/
def advance : CallPoint α → Act Stage (Option (CallPoint α))
  | before (.done _) => return none
  | before (.step s next) => do return some (.before (next (← s.run)))
  | before (.inHost next) => do
      Act.enterHost 1
      return some (.within next)
  | before (.post e next) => do
      Stage.modifyLedger (·.post e)
      return some (.buffered next)
  | buffered next => do
      Act.enterHost 1
      return some (.popping next)
  | popping next => do
      match ← Stage.ledgerUpdate (·.takePosted) with
      | none => Act.panic .postLost
      | some e => return some (.within (next e))
  | within (.step s next) => do return some (.within (next (← s.run)))
  | within (.hold _ next) => return some (.within next)
  | within (.deliver e next) => do
      Stage.modifyLedger (·.enqueue e)
      return some (.taking e next)
  | taking _ next => do
      match ← Stage.ledgerUpdate (·.takePending) with
      | none => Act.panic .eventLost
      | some e => return some (.telling e next)
  | telling _ next => return some (.within next)
  | within (.done _) | leaving => do
      Act.leaveHost
      return none

def unwound : CallPoint α → Option (CallPoint α)
  | before _ | buffered _ => none
  | _ => some .leaving

/-- Someone else's code runs and may do other things meanwhile. -/
def isOpen : CallPoint α → Bool
  | before (.step s _) | within (.step s _) => s.asks
  | telling .. => true
  | _ => false

def guards : CallPoint α → List HostGuard
  | before _ | buffered _ => []
  | _ => [.entered]

def hasPosted : CallPoint α → Bool
  | buffered _ | popping _ => true
  | _ => false

def passing? : CallPoint α → Option NativeEvent
  | taking e _ => some e
  | _ => none

end CallPoint

/-- What a thread can be inside of: a call, or host code that has entered or stepped out. -/
inductive CallFrame where
  | call (r : ClientRequest) (p : CallPoint r.Answer)
  | host (g : HostGuard)

namespace CallFrame

def isOpen : CallFrame → Bool
  | call _ p => p.isOpen
  | host _ => true

def isCall : CallFrame → Bool
  | call .. => true
  | host _ => false

def guards : CallFrame → List HostGuard
  | call _ p => p.guards
  | host g => [g]

def posts : CallFrame → Nat
  | call _ p => p.hasPosted.toNat
  | host _ => 0

def passing? : CallFrame → Option NativeEvent
  | call _ p => p.passing?
  | host _ => none

def passes (f : CallFrame) : Nat := f.passing?.isSome.toNat

end CallFrame

/-- What threads share, with the events that deliveries were given, what each of them handed over,
and the panics that were raised, in order. -/
structure CallRoom where
  bridge : Bridge Stage
  given : List NativeEvent := []
  handed : List (NativeEvent × NativeEvent) := []
  raised : List Panic := []

namespace CallRoom

def posted (s : CallRoom) : List MessageEvent := s.bridge.native.ledger.posted

def pending (s : CallRoom) : List NativeEvent := s.bridge.native.ledger.pending

def onHost (s : CallRoom) (host : HostLock) : CallRoom :=
  { s with bridge := { s.bridge with host } }

def raise (s : CallRoom) (cause : Panic) : CallRoom := { s with raised := s.raised ++ [cause] }

def advanced {α : Type} (s : CallRoom) (b : Bridge Stage) :
    CallPoint α → Option (CallPoint α) → CallRoom
  | .within (.deliver e _), _ => { s with bridge := b, given := s.given ++ [e] }
  | .taking e _, some (.telling e' _) => { s with bridge := b, handed := s.handed ++ [(e, e')] }
  | _, _ => { s with bridge := b }

@[simp] theorem bridge_advanced {α : Type} (s : CallRoom) (b : Bridge Stage) (p : CallPoint α)
    (p' : Option (CallPoint α)) : (s.advanced b p p').bridge = b := by
  unfold advanced
  split <;> rfl

/-- Anything else happens. Host execution and the buffers belong to the calls. -/
def amend (s : CallRoom) (f : Bridge Stage → Bridge Stage) : CallRoom :=
  let b := f s.bridge
  { s with bridge := { b with
      host := s.bridge.host
      native := { b.native with
        ledger := { b.native.ledger with posted := s.posted, pending := s.pending } } } }

end CallRoom

/-- Begin a call, enter or step out of host execution, or undo the latest of either; go on with a
call, or panic in the code that it runs. -/
inductive CallMove where
  | begin (r : ClientRequest)
  | enter
  | stepOut
  | drop
  | proceed
  | giveUp (text : Option String)
  | amend (f : Bridge Stage → Bridge Stage)

/-- What threads do with the client. Only the innermost frame of a thread moves. -/
def callProgram : Program CallRoom CallFrame CallMove := fun s t stack m =>
  match m, stack with
  | .begin r, stack =>
      if stack.head?.all CallFrame.isOpen then some (s, .call r (.before r.plan) :: stack) else none
  | .enter, stack =>
      if stack.head?.all CallFrame.isOpen then
        (s.bridge.host.enter? t 1).map fun host => (s.onHost host, .host .entered :: stack)
      else none
  | .stepOut, stack =>
      if stack.head?.all CallFrame.isOpen then
        some (s.onHost (s.bridge.host.leaveAll t).2,
          .host (.steppedOut (s.bridge.host.leaveAll t).1) :: stack)
      else none
  | .drop, .host g :: rest => (g.drop? s.bridge.host t).map fun host => (s.onHost host, rest)
  | .proceed, .call r p :: rest =>
      match p.advance { s.bridge with thread := t } with
      | .ok p' b => some (s.advanced b p p', (p'.map (.call r)).toList ++ rest)
      | .error (.panic cause) b =>
          some ({ s with bridge := b }.raise cause, (p.unwound.map (.call r)).toList ++ rest)
      | .error _ _ => none
  | .giveUp text, .call r p :: rest =>
      if p.isOpen then some (s.raise (.host text), (p.unwound.map (.call r)).toList ++ rest)
      else none
  | .amend f, stack => some (s.amend f, stack)
  | _, _ => none

abbrev CallThreads (n : Nat) := Threads n CallRoom CallFrame

def CallThreads.idle (n : Nat) (b : Bridge Stage) : CallThreads n := .atRest { bridge := b }

/-! ## What a move can do -/

inductive CallRoom.Turn (s : CallRoom) : Option CallFrame → CallRoom → Option CallFrame → Prop
  | keep {f f' b raised} (same : b.native.ledger.buffers = s.bridge.native.ledger.buffers)
      (posts : f.elim 0 CallFrame.posts = f'.elim 0 CallFrame.posts)
      (idle : f.elim 0 CallFrame.passes = 0) (idle' : f'.elim 0 CallFrame.passes = 0)
      (spared : ∀ cause ∈ raised, cause ∈ s.raised ∨ cause.isLoss = false) :
      Turn s f { s with bridge := b, raised } f'
  | buffer (r e next) {b} (posted : b.native.ledger.posted = s.posted ++ [e])
      (pending : b.native.ledger.pending = s.pending) :
      Turn s (some (.call r (.before (.post e next)))) { s with bridge := b }
        (some (.call r (.buffered next)))
  | pop (r next e) {b} (posted : s.posted = e :: b.native.ledger.posted)
      (pending : b.native.ledger.pending = s.pending) :
      Turn s (some (.call r (.popping next))) { s with bridge := b }
        (some (.call r (.within (next e))))
  | losePost (r next) {b} (posted : s.posted = []) :
      Turn s (some (.call r (.popping next))) ({ s with bridge := b }.raise .postLost)
        (some (.call r .leaving))
  | enqueue (r e next) {b} (posted : b.native.ledger.posted = s.posted)
      (pending : b.native.ledger.pending = s.pending ++ [e]) :
      Turn s (some (.call r (.within (.deliver e next))))
        { s with bridge := b, given := s.given ++ [e] } (some (.call r (.taking e next)))
  | hand (r e e' next) {b} (posted : b.native.ledger.posted = s.posted)
      (pending : s.pending = e' :: b.native.ledger.pending) :
      Turn s (some (.call r (.taking e next)))
        { s with bridge := b, handed := s.handed ++ [(e, e')] } (some (.call r (.telling e' next)))
  | loseEvent (r e next) {b} (pending : s.pending = []) :
      Turn s (some (.call r (.taking e next))) ({ s with bridge := b }.raise .eventLost)
        (some (.call r .leaving))

namespace CallPoint

open Act

variable {s : CallRoom} {t : ThreadId} {b : Bridge Stage} {r : ClientRequest}
  {p : CallPoint r.Answer} {p' : Option (CallPoint r.Answer)}

private theorem enterHost_ok {levels : Nat} {u : Unit}
    (h : enterHost levels { s.bridge with thread := t } = .ok u b) :
    s.bridge.host.enter? t levels = some b.host ∧ b.native = s.bridge.native := by
  rw [enterHost_apply] at h
  split at h
  · next host hhost =>
    cases h
    exact ⟨hhost, rfl⟩
  · cases h

private theorem spared_raise {cause : Panic} (h : cause.isLoss = false) :
    ∀ c ∈ s.raised ++ [cause], c ∈ s.raised ∨ c.isLoss = false := by
  intro c hc
  rcases List.mem_append.mp hc with hold | hnew
  · exact .inl hold
  · rw [List.mem_singleton.mp hnew]
    exact .inr h

section Sections

variable {f f' : Option CallFrame} {sec : ClientSection} (guards : List HostGuard)

/-- A section that the call shares with others leaves the buffers and host execution alone. -/
theorem turn_of_run_ok {a : sec.Answer} (h : sec.run { s.bridge with thread := t } = .ok a b)
    (posts : f.elim 0 CallFrame.posts = f'.elim 0 CallFrame.posts)
    (idle : f.elim 0 CallFrame.passes = 0) (idle' : f'.elim 0 CallFrame.passes = 0) :
    s.Turn f { s with bridge := b } f' ∧ HostGuard.Turn s.bridge.host t guards b.host guards := by
  obtain ⟨hhost, hbuffers, _⟩ := sec.spared_run.ok h
  refine ⟨.keep hbuffers posts idle idle' fun _ => .inl, ?_⟩
  rw [hhost]
  exact .stay

private theorem turn_of_run_panic {cause : Panic}
    (h : sec.run { s.bridge with thread := t } = .error (.panic cause) b)
    (posts : f.elim 0 CallFrame.posts = f'.elim 0 CallFrame.posts)
    (idle : f.elim 0 CallFrame.passes = 0) (idle' : f'.elim 0 CallFrame.passes = 0) :
    s.Turn f ({ s with bridge := b }.raise cause) f' ∧
      HostGuard.Turn s.bridge.host t guards b.host guards := by
  obtain ⟨hhost, hbuffers, hcause⟩ := sec.spared_run.panic h
  refine ⟨.keep hbuffers posts idle idle' (spared_raise (hcause cause rfl)), ?_⟩
  rw [hhost]
  exact .stay

end Sections

private theorem turn_of_advance_ok (h : p.advance { s.bridge with thread := t } = .ok p' b)
    (below : List HostGuard) :
    s.Turn (some (.call r p)) (s.advanced b p p') (p'.map (.call r)) ∧
      HostGuard.Turn s.bridge.host t (p.guards ++ below) b.host (p'.elim [] guards ++ below) := by
  cases p with
  | before next =>
    cases next with
    | done a =>
      cases h
      exact ⟨.keep rfl rfl rfl rfl fun _ => .inl, .stay⟩
    | step sec next =>
      obtain ⟨a, b₁, hrun, h⟩ := bind_eq_ok.mp h
      cases h
      exact turn_of_run_ok _ hrun rfl rfl rfl
    | inHost next =>
      obtain ⟨_, b₁, henter, h⟩ := bind_eq_ok.mp h
      cases h
      obtain ⟨hhost, hnative⟩ := enterHost_ok henter
      exact ⟨.keep (by rw [hnative]) rfl rfl rfl fun _ => .inl, .enter hhost⟩
    | post e next =>
      cases h
      exact ⟨.buffer r e next rfl rfl, .stay⟩
  | buffered next =>
    obtain ⟨_, b₁, henter, h⟩ := bind_eq_ok.mp h
    cases h
    obtain ⟨hhost, hnative⟩ := enterHost_ok henter
    exact ⟨.keep (by rw [hnative]) rfl rfl rfl fun _ => .inl, .enter hhost⟩
  | popping next =>
    obtain ⟨e, b₁, htake, h⟩ := bind_eq_ok.mp h
    cases htake
    cases hposted : s.bridge.native.ledger.posted with
    | nil =>
      simp only [hposted] at h
      cases h
    | cons e rest =>
      simp only [hposted] at h
      cases h
      exact ⟨.pop r next e hposted rfl, .stay⟩
  | within next =>
    cases next with
    | done a =>
      cases h
      exact ⟨.keep rfl rfl rfl rfl fun _ => .inl, .drop .entered below rfl rfl⟩
    | step sec next =>
      obtain ⟨a, b₁, hrun, h⟩ := bind_eq_ok.mp h
      cases h
      exact turn_of_run_ok _ hrun rfl rfl rfl
    | hold tokens next =>
      cases h
      exact ⟨.keep rfl rfl rfl rfl fun _ => .inl, .stay⟩
    | deliver e next =>
      cases h
      exact ⟨.enqueue r e next rfl rfl, .stay⟩
  | taking e next =>
    obtain ⟨e', b₁, htake, h⟩ := bind_eq_ok.mp h
    cases htake
    cases hpending : s.bridge.native.ledger.pending with
    | nil =>
      simp only [hpending] at h
      cases h
    | cons e' rest =>
      simp only [hpending] at h
      cases h
      exact ⟨.hand r e e' next rfl hpending, .stay⟩
  | telling e next =>
    cases h
    exact ⟨.keep rfl rfl rfl rfl fun _ => .inl, .stay⟩
  | leaving =>
    cases h
    exact ⟨.keep rfl rfl rfl rfl fun _ => .inl, .drop .entered below rfl rfl⟩

private theorem turn_of_advance_panic {cause : Panic}
    (h : p.advance { s.bridge with thread := t } = .error (.panic cause) b)
    (below : List HostGuard) :
    s.Turn (some (.call r p)) ({ s with bridge := b }.raise cause) (p.unwound.map (.call r)) ∧
      HostGuard.Turn s.bridge.host t (p.guards ++ below) b.host
        (p.unwound.elim [] guards ++ below) := by
  cases p with
  | before next =>
    cases next with
    | done a => cases h
    | step sec next =>
      rcases bind_eq_error.mp h with hrun | ⟨a, b₁, _, h⟩
      · exact turn_of_run_panic _ hrun rfl rfl rfl
      · cases h
    | inHost next =>
      rcases bind_eq_error.mp h with henter | ⟨_, b₁, _, h⟩
      · exact absurd henter (neverPanics_enterHost _ _ _ _)
      · cases h
    | post e next => cases h
  | buffered next =>
    rcases bind_eq_error.mp h with henter | ⟨_, b₁, _, h⟩
    · exact absurd henter (neverPanics_enterHost _ _ _ _)
    · cases h
  | popping next =>
    rcases bind_eq_error.mp h with htake | ⟨e, b₁, htake, h⟩
    · cases htake
    cases htake
    cases hposted : s.bridge.native.ledger.posted with
    | nil =>
      simp only [hposted] at h
      cases h
      exact ⟨.losePost r next hposted, .stay⟩
    | cons e rest =>
      simp only [hposted] at h
      cases h
  | within next =>
    cases next with
    | step sec next =>
      rcases bind_eq_error.mp h with hrun | ⟨a, b₁, _, h⟩
      · exact turn_of_run_panic _ hrun rfl rfl rfl
      · cases h
    | done a | hold tokens next | deliver e next => cases h
  | taking e next =>
    rcases bind_eq_error.mp h with htake | ⟨e', b₁, htake, h⟩
    · cases htake
    cases htake
    cases hpending : s.bridge.native.ledger.pending with
    | nil =>
      simp only [hpending] at h
      cases h
      exact ⟨.loseEvent r e next hpending, .stay⟩
    | cons e' rest =>
      simp only [hpending] at h
      cases h
  | telling e next | leaving => cases h

private theorem turn_of_isOpen (h : p.isOpen = true) (text : Option String)
    (below : List HostGuard) :
    s.Turn (some (.call r p)) (s.raise (.host text)) (p.unwound.map (.call r)) ∧
      HostGuard.Turn s.bridge.host t (p.guards ++ below) s.bridge.host
        (p.unwound.elim [] guards ++ below) := by
  cases p with
  | before next | within next | telling e next =>
    exact ⟨.keep rfl rfl rfl rfl (spared_raise rfl), .stay⟩
  | buffered next | popping next | taking e next | leaving => cases h

end CallPoint

def CallFrame.guardsOf (stack : List CallFrame) : List HostGuard := stack.flatMap CallFrame.guards

private theorem CallFrame.guardsOf_call {r : ClientRequest} (p : CallPoint r.Answer)
    (rest : List CallFrame) : guardsOf (call r p :: rest) = p.guards ++ guardsOf rest := by
  simp [guardsOf, guards]

private theorem CallFrame.guardsOf_call? {r : ClientRequest} (p : Option (CallPoint r.Answer))
    (rest : List CallFrame) : guardsOf ((p.map (call r)).toList ++ rest) =
      p.elim [] CallPoint.guards ++ guardsOf rest := by
  cases p with
  | none => rfl
  | some p => exact guardsOf_call p rest

def CallRoom.Moves (s : CallRoom) (t : ThreadId) (stack : List CallFrame) (s' : CallRoom)
    (stack' : List CallFrame) : Prop :=
  ∃ f f' rest, stack = f.toList ++ rest ∧ stack' = f'.toList ++ rest ∧
    (f = none → f' = none ∨ rest.head?.all CallFrame.isOpen = true) ∧ s.Turn f s' f' ∧
    HostGuard.Turn s.bridge.host t (CallFrame.guardsOf stack) s'.bridge.host
      (CallFrame.guardsOf stack')

private theorem CallRoom.moves_of_call {s s' : CallRoom} {t : ThreadId} {r : ClientRequest}
    {p : CallPoint r.Answer} {p' : Option (CallPoint r.Answer)} {rest : List CallFrame}
    (hturn : s.Turn (some (.call r p)) s' (p'.map (.call r)))
    (hguards : HostGuard.Turn s.bridge.host t (p.guards ++ CallFrame.guardsOf rest)
      s'.bridge.host (p'.elim [] CallPoint.guards ++ CallFrame.guardsOf rest)) :
    s.Moves t (.call r p :: rest) s' ((p'.map (.call r)).toList ++ rest) := by
  refine ⟨some (.call r p), _, rest, rfl, rfl, nofun, hturn, ?_⟩
  rw [CallFrame.guardsOf_call, CallFrame.guardsOf_call?]
  exact hguards

private theorem moves_of_callProgram {s s' : CallRoom} {t : ThreadId}
    {stack stack' : List CallFrame}
    {m : CallMove} (h : callProgram s t stack m = some (s', stack')) :
    s.Moves t stack s' stack' := by
  cases m with
  | begin r =>
    simp only [callProgram] at h
    split at h
    · next hopen =>
      cases h
      exact ⟨none, some (.call r (.before r.plan)), stack, rfl, rfl, fun _ => .inr hopen,
        .keep rfl rfl rfl rfl fun _ => .inl, .stay⟩
    · cases h
  | enter =>
    simp only [callProgram] at h
    split at h
    · next hopen =>
      obtain ⟨host, henter, heq⟩ := Option.map_eq_some_iff.mp h
      cases heq
      exact ⟨none, some (.host .entered), stack, rfl, rfl, fun _ => .inr hopen,
        .keep rfl rfl rfl rfl fun _ => .inl, .enter henter⟩
    · cases h
  | stepOut =>
    simp only [callProgram] at h
    split at h
    · next hopen =>
      cases h
      exact ⟨none, some (.host (.steppedOut _)), stack, rfl, rfl, fun _ => .inr hopen,
        .keep rfl rfl rfl rfl fun _ => .inl, .stepOut⟩
    · cases h
  | drop =>
    cases stack with
    | nil => cases h
    | cons f rest =>
      cases f with
      | call r p => cases h
      | host g =>
        obtain ⟨host, hdrop, heq⟩ := Option.map_eq_some_iff.mp h
        cases heq
        exact ⟨some (.host g), none, _, rfl, rfl, nofun, .keep rfl rfl rfl rfl fun _ => .inl,
          .drop g _ rfl hdrop⟩
  | proceed =>
    cases stack with
    | nil => cases h
    | cons f rest =>
      cases f with
      | host g => cases h
      | call r p =>
        simp only [callProgram] at h
        split at h
        · next p' b hadvance =>
          cases h
          obtain ⟨hturn, hguards⟩ :=
            CallPoint.turn_of_advance_ok hadvance (CallFrame.guardsOf rest)
          rw [← CallRoom.bridge_advanced s b p p'] at hguards
          exact CallRoom.moves_of_call hturn hguards
        · next cause b hadvance =>
          cases h
          obtain ⟨hturn, hguards⟩ :=
            CallPoint.turn_of_advance_panic hadvance (CallFrame.guardsOf rest)
          exact CallRoom.moves_of_call hturn hguards
        · cases h
  | giveUp text =>
    cases stack with
    | nil => cases h
    | cons f rest =>
      cases f with
      | host g => cases h
      | call r p =>
        simp only [callProgram] at h
        split at h
        · next hopen =>
          cases h
          obtain ⟨hturn, hguards⟩ := CallPoint.turn_of_isOpen (s := s) (t := t) hopen text
            (CallFrame.guardsOf rest)
          exact CallRoom.moves_of_call hturn hguards
        · cases h
  | amend f =>
    cases h
    exact ⟨none, none, stack, rfl, rfl, fun _ => .inl rfl, .keep rfl rfl rfl rfl fun _ => .inl,
      .stay⟩

namespace CallFrame

variable {f : CallFrame}

theorem passes_eq_zero_iff : f.passes = 0 ↔ f.passing? = none := by
  cases h : f.passing? <;> simp [passes, h]

private theorem not_isOpen_of_passing? {e : NativeEvent} (h : f.passing? = some e) :
    f.isOpen = false ∧ f.guards = [.entered] := by
  cases f with
  | host g => cases h
  | call r p =>
    cases p with
    | taking e next => exact ⟨rfl, rfl⟩
    | _ => cases h

end CallFrame

namespace CallThreads

variable {n : Nat} {s s' : CallThreads n} {t : Fin n} {m : CallMove}

/-! ## What holds of every interleaving -/

def guardsOf (s : CallThreads n) (t : Fin n) : List HostGuard := CallFrame.guardsOf (s.stackOf t)

def asGuards (s : CallThreads n) : GuardThreads n :=
  ⟨{ lock := s.shared.bridge.host }, fun t => (s.guardsOf t).map .holding⟩

private theorem guardsOf_asGuards (s : CallThreads n) (t : Fin n) :
    s.asGuards.guardsOf t = s.guardsOf t := by
  show ((s.guardsOf t).map .holding).filterMap GuardWork.guard? = s.guardsOf t
  rw [List.filterMap_map]
  exact List.filterMap_some

/-- Events are buffered for the calls that are about to take them, and nothing has gone wrong. -/
structure Paired (s : CallThreads n) : Prop where
  sound : s.asGuards.Sound
  opened : ∀ t, ∀ f ∈ (s.stackOf t).tail, f.isOpen = true
  posted : s.shared.posted.length = s.weight CallFrame.posts
  pending : s.shared.pending.length = s.weight CallFrame.passes
  passing : ∀ t, ∀ f ∈ s.stackOf t, ∀ e ∈ f.passing?, s.shared.pending = [e]
  given : s.shared.given = s.shared.handed.map Prod.snd ++ s.shared.pending
  handed : ∀ x ∈ s.shared.handed, x.2 = x.1
  raised : ∀ cause ∈ s.shared.raised, cause.isLoss = false

private theorem paired_idle {b : Bridge Stage} (hfree : b.host = .free) (hcalm : b.native.Calm) :
    (idle n b).Paired := by
  have hposted : b.native.ledger.posted = [] := congrArg Prod.fst hcalm
  have hpending : b.native.ledger.pending = [] := congrArg Prod.snd hcalm
  have hnone : ∀ f, f ∉ ([] : List CallFrame) := fun _ => List.not_mem_nil
  refine ⟨⟨?_, fun _ => ?_, fun _ => trivial, fun u _ => ?_⟩, fun _ f hf => absurd hf (hnone f),
    ?_, ?_, fun _ f hf => absurd hf (hnone f), ?_, fun _ hx => absurd hx List.not_mem_nil,
    fun _ hcause => absurd hcause List.not_mem_nil⟩
  · show b.host.WellFormed
    rw [hfree]
    exact HostLock.wellFormed_free
  · show b.host.depthOf _ = 0
    rw [hfree]
    rfl
  · show b.host.depthOf u = 0
    rw [hfree]
    rfl
  · show b.native.ledger.posted.length = _
    rw [hposted]
    exact (Threads.weight_atRest ..).symm
  · show b.native.ledger.pending.length = _
    rw [hpending]
    exact (Threads.weight_atRest ..).symm
  · show [] = b.native.ledger.pending
    rw [hpending]

private theorem turn_of_step? (h : s.step? callProgram t m = some s') :
    ∃ f f' rest shared, s.stackOf t = f.toList ++ rest ∧
      s' = s.set t shared (f'.toList ++ rest) ∧
      (f = none → f' = none ∨ rest.head?.all CallFrame.isOpen = true) ∧
      s.shared.Turn f shared f' ∧
      HostGuard.Turn s.shared.bridge.host t (s.guardsOf t) shared.bridge.host (s'.guardsOf t) := by
  obtain ⟨shared, stack, hp, rfl⟩ := Threads.exists_of_step? h
  obtain ⟨f, f', rest, hstack, rfl, hopen, hturn, hguards⟩ := moves_of_callProgram hp
  refine ⟨f, f', rest, shared, hstack, rfl, hopen, hturn, ?_⟩
  rw [guardsOf, guardsOf, Threads.stackOf_set_self]
  exact hguards

private theorem Paired.sound_step (hs : s.Paired) (h : s.step? callProgram t m = some s') :
    s'.asGuards.Sound := by
  obtain ⟨f, f', rest, shared, _, rfl, _, _, hguards⟩ := turn_of_step? h
  refine hs.sound.turn (t := t) ?_ fun u hu => ?_
  · rw [guardsOf_asGuards, guardsOf_asGuards]
    exact hguards
  · rw [guardsOf_asGuards, guardsOf_asGuards, guardsOf, guardsOf, Threads.stackOf_set_of_ne s hu]

private theorem Paired.opened_step (hs : s.Paired) (h : s.step? callProgram t m = some s') :
    ∀ u, ∀ f ∈ (s'.stackOf u).tail, f.isOpen = true := by
  obtain ⟨f, f', rest, shared, hstack, rfl, hopen, _, _⟩ := turn_of_step? h
  have hbefore := hs.opened t
  rw [hstack] at hbefore
  have hrest : f' ≠ none → ∀ g ∈ rest, g.isOpen = true := by
    intro hsome g hg
    cases f with
    | some f => exact hbefore g hg
    | none =>
      cases rest with
      | nil => cases hg
      | cons head below =>
        rcases List.mem_cons.mp hg with rfl | hbelow
        · exact (hopen rfl).resolve_left hsome
        · exact hbefore g hbelow
  intro u g hg
  by_cases hu : u = t
  · subst hu
    rw [Threads.stackOf_set_self] at hg
    cases f' with
    | some f' => exact hrest nofun g hg
    | none =>
      cases f with
      | some f => exact hbefore g (List.mem_of_mem_tail hg)
      | none => exact hbefore g hg
  · rw [Threads.stackOf_set_of_ne s hu] at hg
    exact hs.opened u g hg

private theorem Paired.owner (hs : s.Paired) {f : CallFrame} {rest : List CallFrame}
    (hstack : s.stackOf t = f :: rest) (hguards : f.guards = [.entered]) :
    s.shared.bridge.host.owner = some (t : ThreadId) := by
  have hdepth := hs.sound.depthOf t
  rw [guardsOf_asGuards, guardsOf, hstack] at hdepth
  have huncovered : CallFrame.guardsOf (f :: rest) = .entered :: CallFrame.guardsOf rest := by
    simp [CallFrame.guardsOf, hguards]
  rw [huncovered] at hdepth
  exact HostGuard.owner_of_entered hdepth

/-- Who passes an event through the buffer is innermost, and its thread has host execution. -/
theorem Paired.innermost (hs : s.Paired) {f : CallFrame} (hf : f ∈ s.stackOf t) {e : NativeEvent}
    (h : f.passing? = some e) :
    ∃ rest, s.stackOf t = f :: rest ∧ s.shared.bridge.host.owner = some (t : ThreadId) := by
  obtain ⟨hopen, hguards⟩ := CallFrame.not_isOpen_of_passing? h
  have htail := hs.opened t
  cases hstack : s.stackOf t with
  | nil =>
    rw [hstack] at hf
    cases hf
  | cons head rest =>
    rw [hstack] at hf htail
    rcases List.mem_cons.mp hf with rfl | hrest
    · exact ⟨rest, rfl, hs.owner hstack hguards⟩
    · rw [htail f hrest] at hopen
      cases hopen

private theorem not_passing_of_weight (h : s.weight CallFrame.passes = 0) :
    ∀ t, ∀ f ∈ s.stackOf t, f.passing? = none := by
  intro t f hf
  exact CallFrame.passes_eq_zero_iff.mp (Threads.weight_eq_zero_iff.mp h t f hf)

/-- A call that has host execution is alone with the buffer, as long as it passes nothing itself. -/
theorem Paired.weight_passes (hs : s.Paired) {f : CallFrame} {rest : List CallFrame}
    (hstack : s.stackOf t = f :: rest) (hguards : f.guards = [.entered])
    (hidle : f.passing? = none) : s.weight CallFrame.passes = 0 := by
  rw [Threads.weight_eq_zero_iff]
  intro u g hg
  rw [CallFrame.passes_eq_zero_iff, Option.eq_none_iff_forall_ne_some]
  intro e hpassing
  obtain ⟨below, hbelow, howner⟩ := hs.innermost hg hpassing
  rw [hs.owner hstack hguards] at howner
  have hu : t = u := Fin.ext (Option.some.inj howner)
  subst hu
  rw [hstack] at hbelow
  cases hbelow
  rw [hidle] at hpassing
  cases hpassing

private theorem Paired.passing_step (hs : s.Paired) {f f' : Option CallFrame}
    {rest : List CallFrame}
    (hstack : s.stackOf t = f.toList ++ rest) (hidle : f'.elim 0 CallFrame.passes = 0)
    {shared : CallRoom} (hsame : shared.pending = s.shared.pending) :
    ∀ u, ∀ g ∈ (s.set t shared (f'.toList ++ rest)).stackOf u, ∀ e ∈ g.passing?,
      shared.pending = [e] := by
  rw [hsame]
  refine Threads.forall_mem_exchange (P := fun _ g => ∀ e ∈ g.passing?, s.shared.pending = [e])
    hs.passing hstack ?_ shared
  rintro g rfl e he
  rw [CallFrame.passes_eq_zero_iff.mp hidle] at he
  cases he

private theorem Paired.step (hs : s.Paired) (h : s.step? callProgram t m = some s') :
    s'.Paired := by
  have hsound := hs.sound_step h
  have hopened := hs.opened_step h
  obtain ⟨f, f', rest, shared, hstack, rfl, _, hturn, _⟩ := turn_of_step? h
  have hposts := Threads.weight_exchange CallFrame.posts hstack shared f'
  have hpasses := Threads.weight_exchange CallFrame.passes hstack shared f'
  rw [← hs.posted] at hposts
  rw [← hs.pending] at hpasses
  cases hturn with
  | @keep _ _ b raised same posts idle idle' spared =>
    have hposted : b.native.ledger.posted = s.shared.posted := congrArg Prod.fst same
    have hpending : b.native.ledger.pending = s.shared.pending := congrArg Prod.snd same
    rw [posts] at hposts
    rw [idle, idle'] at hpasses
    refine ⟨hsound, hopened, ?_, ?_, hs.passing_step hstack idle' hpending, ?_, hs.handed, ?_⟩
    · exact (congrArg List.length hposted).trans (Nat.add_right_cancel hposts).symm
    · exact (congrArg List.length hpending).trans hpasses.symm
    · exact hs.given.trans (congrArg _ hpending.symm)
    · intro cause hcause
      exact (spared cause hcause).elim (hs.raised cause) id
  | @buffer r e next b posted pending =>
    refine ⟨hsound, hopened, ?_, ?_, hs.passing_step hstack rfl pending, ?_, hs.handed, hs.raised⟩
    · exact (congrArg List.length posted).trans (List.length_append.trans hposts.symm)
    · exact (congrArg List.length pending).trans hpasses.symm
    · exact hs.given.trans (congrArg _ pending.symm)
  | @pop r next e b posted pending =>
    have hlength : s.shared.posted.length = b.native.ledger.posted.length + 1 :=
      congrArg List.length posted
    refine ⟨hsound, hopened, ?_, ?_, hs.passing_step hstack rfl pending, ?_, hs.handed, hs.raised⟩
    · rw [hlength] at hposts
      exact (Nat.add_right_cancel hposts).symm
    · exact (congrArg List.length pending).trans hpasses.symm
    · exact hs.given.trans (congrArg _ pending.symm)
  | losePost r next posted =>
    rw [posted] at hposts
    cases hposts
  | @enqueue r e next b posted pending =>
    have hnone := hs.weight_passes hstack rfl rfl
    have hbefore : s.shared.pending = [] := by
      rw [← List.length_eq_zero_iff, hs.pending, hnone]
    rw [hbefore] at pending hpasses
    refine ⟨hsound, hopened, ?_, ?_, ?_, ?_, hs.handed, hs.raised⟩
    · exact (congrArg List.length posted).trans hposts.symm
    · exact (congrArg List.length pending).trans hpasses.symm
    · refine Threads.forall_mem_exchange
        (P := fun _ g => ∀ e' ∈ g.passing?, b.native.ledger.pending = [e']) ?_ hstack ?_ _
      · intro u g hg e' he'
        rw [not_passing_of_weight hnone u g hg] at he'
        cases he'
      · rintro _ ⟨⟩ e' ⟨⟩
        exact pending
    · show s.shared.given ++ [e] = s.shared.handed.map Prod.snd ++ b.native.ledger.pending
      rw [hs.given, hbefore, pending, List.append_nil]
      rfl
  | @hand r e e' next b posted pending =>
    have hpassing := hs.passing t _ (Threads.mem_of_exchange hstack rfl) e rfl
    rw [pending] at hpassing
    obtain ⟨rfl, hempty⟩ := List.cons.inj hpassing
    rw [pending, hempty] at hpasses
    have hnone := Nat.add_right_cancel hpasses
    refine ⟨hsound, hopened, ?_, ?_, ?_, ?_, ?_, hs.raised⟩
    · exact (congrArg List.length posted).trans hposts.symm
    · exact (congrArg List.length hempty).trans hnone.symm
    · intro u g hg e he
      rw [not_passing_of_weight hnone u g hg] at he
      cases he
    · show s.shared.given = (s.shared.handed ++ [(e', e')]).map Prod.snd ++ b.native.ledger.pending
      rw [hs.given, pending, hempty, List.map_append, List.append_assoc]
      rfl
    · intro x hx
      rcases List.mem_append.mp hx with hold | hnew
      · exact hs.handed x hold
      · rw [List.mem_singleton.mp hnew]
  | loseEvent r e next pending =>
    have hpassing := hs.passing t _ (Threads.mem_of_exchange hstack rfl) e rfl
    rw [pending] at hpassing
    cases hpassing

private theorem paired_of_play? {b : Bridge Stage} (hfree : b.host = .free) (hcalm : b.native.Calm)
    {moves : List (Fin n × CallMove)} (h : (idle n b).play? callProgram moves = some s) :
    s.Paired :=
  Threads.play?_induction (fun _ _ _ _ _ hs hstep => hs.step hstep) (paired_idle hfree hcalm) h

def Uncalled (s : CallThreads n) : Prop := ∀ t, ∀ f ∈ s.stackOf t, f.isCall = false

instance (s : CallThreads n) : Decidable s.Uncalled := inferInstanceAs (Decidable (∀ _, _))

theorem Uncalled.weight_eq_zero (h : s.Uncalled) {w : CallFrame → Nat}
    (hw : ∀ f, f.isCall = false → w f = 0) : s.weight w = 0 := by
  rw [Threads.weight_eq_zero_iff]
  exact fun t f hf => hw f (h t f hf)

/-- Whatever threads and the code that they run have done, no call has missed an event that it had
buffered, and every delivery has handed over the event that it was given, in the order in which they
were given, down to the one that is being passed on. Whenever no thread is inside of a call, however
calls have ended, the buffers are empty. -/
theorem buffers_transient {b : Bridge Stage} (hfree : b.host = .free) (hcalm : b.native.Calm)
    {moves : List (Fin n × CallMove)} (h : (idle n b).play? callProgram moves = some s) :
    .eventLost ∉ s.shared.raised ∧ .postLost ∉ s.shared.raised ∧
    (∀ x ∈ s.shared.handed, x.2 = x.1) ∧
    s.shared.given = s.shared.handed.map Prod.fst ++ s.shared.pending ∧
    (s.Uncalled → s.shared.posted = [] ∧ s.shared.pending = []) := by
  have hs := paired_of_play? hfree hcalm h
  have hmap : s.shared.handed.map Prod.snd = s.shared.handed.map Prod.fst :=
    List.map_congr_left hs.handed
  refine ⟨fun hlost => ?_, fun hlost => ?_, hs.handed, ?_, fun huncalled => ⟨?_, ?_⟩⟩
  · cases hs.raised _ hlost
  · cases hs.raised _ hlost
  · rw [hs.given, hmap]
  · rw [← List.length_eq_zero_iff, hs.posted]
    apply huncalled.weight_eq_zero
    intro f hf
    cases f with
    | call r p => cases hf
    | host g => rfl
  · rw [← List.length_eq_zero_iff, hs.pending]
    apply huncalled.weight_eq_zero
    intro f hf
    cases f with
    | call r p => cases hf
    | host g => rfl

def proceeds (t : Fin n) (k : Nat) : List (Fin n × CallMove) := List.replicate k (t, .proceed)

/-- Before a queue that is opened has its first message handed over, two threads post; each decides
the event of the other, and the host code that is told of the acknowledgement panics. The host's
health changes afterwards. -/
def postsAcross (t u : Fin 2) : List (Fin 2 × CallMove) :=
  (t, .begin (.openQueue "bmq://d/q" (.ofAccess true true) {} ⟨0⟩)) :: proceeds t 8 ++
    [(t, .stepOut), (t, .begin (.post (.push [])))] ++ proceeds t 2 ++
    (u, .begin (.post (.ack []))) :: proceeds u 10 ++ (u, .giveUp none) :: proceeds u 1 ++
    proceeds t 5 ++ (t, .drop) :: proceeds t 2 ++
    (u, .begin (.healthChanged .unhealthy)) :: proceeds u 6

def scriptedStage : Bridge Stage where
  native :=
    { ledger := { started := true }
      script :=
        { push := [[{ payload := .empty, guid := .zero, queueUri := "bmq://d/q" }]]
          ack := [[{ status := 0, guid := .zero, queueUri := "bmq://d/q" }]] } }

theorem buffers_transient_across : ∃ s : CallThreads 2,
    scriptedStage.host = .free ∧ scriptedStage.native.Calm ∧
    (idle 2 scriptedStage).play? callProgram (postsAcross 0 1) = some s ∧ s.Uncalled ∧
    s.shared.handed.length = 3 ∧ s.shared.raised.length = 1 ∧
    (∀ x ∈ s.shared.handed, x.2 = x.1) ∧ s.shared.posted = [] ∧ s.shared.pending = [] := by
  have hrun : (((idle 2 scriptedStage).play? callProgram (postsAcross 0 1)).map
      fun s : CallThreads 2 => decide (Uncalled s ∧ s.shared.handed.length = 3 ∧
        s.shared.raised.length = 1)) = some true := by
    decide +kernel
  obtain ⟨s, hplay, hrun⟩ := Option.map_eq_some_iff.mp hrun
  obtain ⟨huncalled, hhanded, hraised⟩ := of_decide_eq_true hrun
  have hfree : scriptedStage.host = .free := rfl
  have hcalm : scriptedStage.native.Calm := rfl
  obtain ⟨_, _, hsame, _, hempty⟩ := buffers_transient hfree hcalm hplay
  exact ⟨s, hfree, hcalm, hplay, huncalled, hhanded, hraised, hsame, hempty huncalled⟩

end CallThreads

end BrokerBridge
