import BrokerBridge.Proofs.Session.Computations

/-!
# Failures of callbacks

What the host is called with does not depend on how its callbacks end. Each failure of theirs is
counted and reported once, in order, and none of them gets out of the delivery.
-/

namespace BrokerBridge

variable {ν : Type}

/-! ## Deliveries and their failures -/

/-- Host code that does nothing but end. How its calls end goes by the number of calls before. -/
def HostCode.assigned (outcomes : Nat → Except Panic HostOutcome) : HostCode ν := fun _ => do
  match outcomes ((← get).deliveries.length - 1) with
  | .ok outcome => return outcome
  | .error cause => Act.panic cause

/-- The calls that a batch of pushed messages comes to, with the errors of its properties. -/
def pushedDeliveries : List ReceivedMessage × List DecodeError → List Delivery
  | (received, []) => [.messages received]
  | (received, errors) =>
      [.notification (.diagnostic (decodeReport errors)), .messages received]

def MessageEvent.deliveries (e : MessageEvent) : List Delivery :=
  match MessageEventKind.ofCode? e.kind with
  | some .push => pushedDeliveries (receiveBatch e.messages)
  | some .ack =>
      match deliveredAcks e.messages with
      | [] => []
      | acks => [.acks acks]
  | _ => [.notification (.diagnostic (unexpectedMessages e.kind))]

def NativeEvent.deliveries : NativeEvent → List Delivery
  | .session e => [.notification (.event (.ofEvent e))]
  | .message e => e.deliveries

/-- The failures to be reported of calls with these deliveries, the first of which is call number
`k`. -/
def failures (outcomes : Nat → Except Panic HostOutcome) : Nat → List Delivery →
    List UnhandledFailure
  | _, [] => []
  | k, d :: rest =>
      ((hostFailure? (outcomes k)).map fun text => ⟨d.kind.context, text⟩).toList ++
        failures outcomes (k + 1) rest

theorem failures_append (outcomes : Nat → Except Panic HostOutcome) (k : Nat)
    (ds more : List Delivery) : failures outcomes k (ds ++ more) =
      failures outcomes k ds ++ failures outcomes (k + ds.length) more := by
  induction ds generalizing k with
  | nil => rfl
  | cons d rest ih =>
    have hlength : k + (d :: rest).length = k + 1 + rest.length := by
      rw [List.length_cons]
      omega
    rw [List.cons_append, failures, failures, ih, List.append_assoc, hlength]

/-- The host is called with these deliveries and no others. Of the calls that fail each is reported
and counted, and the thread ends up as deep inside host code and deliveries as it was. -/
structure Delivers (outcomes : Nat → Except Panic HostOutcome) (ds : List Delivery)
    (b b' : Bridge ν) : Prop where
  deliveries : b'.deliveries = b.deliveries ++ ds
  unhandled : b'.diagnostics.unhandled =
    b.diagnostics.unhandled ++ failures outcomes b.deliveries.length ds
  counted : b'.metrics.counters.map (·.callbackFailures) = b.metrics.counters.map
    fun c => c.callbackFailures + (failures outcomes b.deliveries.length ds).length
  host : b'.host = b.host
  delivering : b'.delivering = b.delivering
  thread : b'.thread = b.thread

section

variable {outcomes : Nat → Except Panic HostOutcome} {ds more : List Delivery}

theorem Delivers.trans {b₁ b₂ b₃ : Bridge ν} (h : Delivers outcomes ds b₁ b₂)
    (h' : Delivers outcomes more b₂ b₃) : Delivers outcomes (ds ++ more) b₁ b₃ := by
  have hlength : b₂.deliveries.length = b₁.deliveries.length + ds.length := by
    rw [h.deliveries, List.length_append]
  refine ⟨?_, ?_, ?_, h'.host.trans h.host, h'.delivering.trans h.delivering,
    h'.thread.trans h.thread⟩
  · rw [h'.deliveries, h.deliveries, List.append_assoc]
  · rw [h'.unhandled, h.unhandled, hlength, failures_append, List.append_assoc]
  · have hcounted := congrArg (Option.map
      (· + (failures outcomes b₂.deliveries.length more).length)) h.counted
    rw [Option.map_map, Option.map_map] at hcounted
    rw [h'.counted, failures_append, List.length_append, ← hlength]
    refine hcounted.trans (congrArg (fun f => b₁.metrics.counters.map f) ?_)
    funext c
    exact Nat.add_assoc _ _ _

def Performs (outcomes : Nat → Except Panic HostOutcome) (ds : List Delivery) (a : Act ν Unit) :
    Prop :=
  ∀ b, ∃ b', a b = .ok () b' ∧ Delivers outcomes ds b b'

private theorem Performs.bind {a k : Act ν Unit} (ha : Performs outcomes ds a)
    (hk : Performs outcomes more k) : Performs outcomes (ds ++ more) (a >>= fun _ => k) := by
  intro b
  obtain ⟨b₁, hrun, hdelivers⟩ := ha b
  obtain ⟨b₂, hrun', hdelivers'⟩ := hk b₁
  exact ⟨b₂, (Act.bind_of_ok hrun).trans hrun', hdelivers.trans hdelivers'⟩

private theorem performs_pure : Performs outcomes [] (pure () : Act ν Unit) := fun b =>
  ⟨b, rfl, (List.append_nil _).symm, (List.append_nil _).symm, rfl, rfl, rfl, rfl⟩

private theorem Performs.observe {f : Counters → Counters} {a : Act ν Unit}
    (hf : ∀ c, (f c).callbackFailures = c.callbackFailures) (ha : Performs outcomes ds a) :
    Performs outcomes ds (Act.observe f >>= fun _ => a) := by
  intro b
  obtain ⟨b', hrun, hdelivers⟩ := ha { b with metrics := b.metrics.observe f }
  refine ⟨b', hrun, { hdelivers with counted := hdelivers.counted.trans ?_ }⟩
  show (b.metrics.counters.map f).map _ = _
  rw [Option.map_map]
  refine congrArg (fun g => b.metrics.counters.map g) (funext fun c => ?_)
  exact congrArg (· + _) (hf c)

theorem attempt_assigned (d : Delivery) (b : Bridge ν) :
    Act.attempt (HostCode.assigned outcomes d) b =
      .ok (outcomes (b.deliveries.length - 1)) b := by
  have hrun : HostCode.assigned outcomes d b = (match outcomes (b.deliveries.length - 1) with
      | .ok outcome => return outcome
      | .error cause => Act.panic cause : Act ν HostOutcome) b := rfl
  rw [Act.attempt, hrun]
  cases outcomes (b.deliveries.length - 1) <;> rfl

theorem hostReturned_apply (d : Delivery) (outcome : Except Panic HostOutcome) (b : Bridge ν) :
    Act.hostReturned d outcome b = .ok () (match hostFailure? outcome with
      | none => { b with delivering := b.delivering - 1 }
      | some text => { b with
          delivering := b.delivering - 1
          metrics := b.metrics.observe fun c =>
            { c with callbackFailures := c.callbackFailures + 1 }
          diagnostics := { b.diagnostics with
            unhandled := b.diagnostics.unhandled ++ [⟨d.kind.context, text⟩] } }) := by
  have hrun : Act.hostReturned d outcome b = (match hostFailure? outcome with
      | none => return
      | some text => do
          Act.observe fun c => { c with callbackFailures := c.callbackFailures + 1 }
          Act.reportUnhandled d.kind.context text : Act ν Unit)
        { b with delivering := b.delivering - 1 } := rfl
  rw [hrun]
  cases hostFailure? outcome <;> rfl

private theorem performs_callHost (d : Delivery) :
    Performs outcomes [d] (Act.callHost (.assigned outcomes) d : Act ν Unit) := by
  intro b
  have hlength : (b.deliveries ++ [d]).length - 1 = b.deliveries.length := by
    rw [List.length_append, List.length_singleton, Nat.add_sub_cancel]
  have hrun : Act.callHost (.assigned outcomes) d b = Act.hostReturned d
      (outcomes b.deliveries.length)
      { b with delivering := b.delivering + 1, deliveries := b.deliveries ++ [d] } := by
    show (Act.attempt (HostCode.assigned outcomes d) >>= Act.hostReturned d) _ = _
    rw [Act.bind_of_ok (attempt_assigned d _)]
    exact congrArg (fun k => Act.hostReturned d (outcomes k) _) hlength
  refine ⟨_, hrun.trans (hostReturned_apply ..), ?_⟩
  cases hfailure : hostFailure? (outcomes b.deliveries.length) with
  | none =>
    have hnone : failures outcomes b.deliveries.length [d] = [] := by
      simp [failures, hfailure]
    refine ⟨rfl, ?_, ?_, rfl, Nat.add_sub_cancel .., rfl⟩
    · rw [hnone, List.append_nil]
    · rw [hnone]
      rfl
  | some text =>
    have hone : failures outcomes b.deliveries.length [d] = [⟨d.kind.context, text⟩] := by
      simp [failures, hfailure]
    refine ⟨rfl, ?_, ?_, rfl, Nat.add_sub_cancel .., rfl⟩
    · rw [hone]
    · rw [hone]
      exact Option.map_map ..

private theorem performs_tellPushed (e : MessageEvent) : Performs outcomes
    (pushedDeliveries (receiveBatch e.messages))
    (e.tellPushed (.assigned outcomes) : Act ν Unit) := by
  have hpushed (received : List ReceivedMessage) :
      Performs outcomes [.messages received] (do
        Act.observe fun c => { c with messagesPushed := c.messagesPushed + received.length }
        Act.callHost (.assigned outcomes) (.messages received) : Act ν Unit) :=
    .observe (fun _ => rfl) (performs_callHost _)
  unfold MessageEvent.tellPushed
  obtain ⟨received, errors⟩ := receiveBatch e.messages
  cases errors with
  | nil => exact hpushed received
  | cons error rest =>
    exact .observe (fun _ => rfl) ((performs_callHost _).bind (hpushed received))

private theorem performs_tellAcked (e : MessageEvent) : Performs outcomes
    (match deliveredAcks e.messages with | [] => [] | acks => [.acks acks])
    (e.tellAcked (.assigned outcomes) : Act ν Unit) := by
  unfold MessageEvent.tellAcked
  refine .observe (fun _ => rfl) ?_
  cases deliveredAcks e.messages with
  | nil => exact performs_pure
  | cons ack rest => exact .observe (fun _ => rfl) (performs_callHost _)

private theorem Performs.inHost {body : Act ν Unit} (h : Performs outcomes ds body) {b : Bridge ν}
    (hhost : b.host.WellFormed) (hfree : (b.host.enter? b.thread 1).isSome) :
    ∃ b', Act.inHost body b = .ok () b' ∧ Delivers outcomes ds b b' := by
  obtain ⟨host, henter⟩ := Option.isSome_iff_exists.mp hfree
  obtain ⟨b₁, hrun, hdelivers⟩ := h { b with host }
  have hleft : b₁.host.leave = b.host := by
    rw [hdelivers.host]
    exact HostLock.leave_enter? hhost henter
  exact ⟨_, Act.inHost_of_ok henter hrun, hdelivers.deliveries, hdelivers.unhandled,
    hdelivers.counted, hleft, hdelivers.delivering, hdelivers.thread⟩

private theorem tell_assigned (outcomes : Nat → Except Panic HostOutcome) (e : NativeEvent)
    {b : Bridge ν}
    (hhost : b.host.WellFormed) (hfree : (b.host.enter? b.thread 1).isSome) :
    ∃ b', e.tell (.assigned outcomes) b = .ok () b' ∧ Delivers outcomes e.deliveries b b' := by
  cases e with
  | session e => exact (performs_callHost _).inHost hhost hfree
  | message e =>
    refine Performs.inHost ?_ hhost hfree
    show Performs outcomes e.deliveries _
    unfold MessageEvent.deliveries
    generalize MessageEventKind.ofCode? e.kind = kind
    match kind with
    | some .push => exact performs_tellPushed e
    | some .ack => exact performs_tellAcked e
    | some .undefined | some .put | none => exact performs_callHost _

private theorem forM_tell_assigned (outcomes : Nat → Except Panic HostOutcome)
    (events : List NativeEvent)
    {b : Bridge ν} (hhost : b.host.WellFormed) (hfree : (b.host.enter? b.thread 1).isSome) :
    ∃ b', events.forM (·.tell (.assigned outcomes)) b = .ok () b' ∧
      Delivers outcomes (events.flatMap NativeEvent.deliveries) b b' := by
  induction events generalizing b with
  | nil => exact performs_pure b
  | cons e rest ih =>
    obtain ⟨b₁, htell, hfirst⟩ := tell_assigned outcomes e hhost hfree
    rw [← hfirst.host] at hhost hfree
    rw [← hfirst.thread] at hfree
    obtain ⟨b₂, hrun, hrest⟩ := ih hhost hfree
    exact ⟨b₂, (Act.bind_of_ok htell).trans hrun, hfirst.trans hrest⟩

end

/-- However callbacks end, handing events over returns, the callbacks are the same ones in the same
order with the same arguments, and their failures are what is counted and reported. This holds
after each of the events. -/
theorem failures_leave_deliveries (events : List NativeEvent)
    (outcomes outcomes' : Nat → Except Panic HostOutcome) {b : Bridge ν}
    (hhost : b.host.WellFormed) (hfree : (b.host.enter? b.thread 1).isSome) (n : Nat) :
    ∃ b₁ b₂, (events.take n).forM (·.tell (.assigned outcomes)) b = .ok () b₁ ∧
      (events.take n).forM (·.tell (.assigned outcomes')) b = .ok () b₂ ∧
      b₁.deliveries = b₂.deliveries ∧
      Delivers outcomes ((events.take n).flatMap NativeEvent.deliveries) b b₁ ∧
      Delivers outcomes' ((events.take n).flatMap NativeEvent.deliveries) b b₂ := by
  obtain ⟨b₁, hrun, hdelivers⟩ := forM_tell_assigned outcomes (events.take n) hhost hfree
  obtain ⟨b₂, hrun', hdelivers'⟩ := forM_tell_assigned outcomes' (events.take n) hhost hfree
  exact ⟨b₁, b₂, hrun, hrun', hdelivers.deliveries.trans hdelivers'.deliveries.symm, hdelivers,
    hdelivers'⟩

def mixedEvents : List NativeEvent :=
  [.session ⟨SessionEventKind.connected.code, Code.success, "", none⟩,
    .message (.push [.push ⟨0, "bmq://d/q", {}⟩ .zero .empty
      (some ⟨[(⟨#[107]⟩, .unrecognized 99)]⟩)]),
    .message (.ack [.ack ⟨0, "bmq://d/q", {}⟩ .zero Code.success none])]

def failingTwice : Nat → Except Panic HostOutcome
  | 0 => .ok (.error ["inner", "outer"])
  | 1 => .error (.host none)
  | _ => .ok .ok

theorem failures_leave_deliveries_mixed : ∃ b₁ b₂ : Bridge Unit,
    mixedEvents.forM (·.tell (.assigned fun _ => .ok .ok)) { metrics := ⟨some {}⟩, native := () } =
      .ok () b₁ ∧
    mixedEvents.forM (·.tell (.assigned failingTwice)) { metrics := ⟨some {}⟩, native := () } =
      .ok () b₂ ∧
    b₁.deliveries = b₂.deliveries ∧
    b₂.deliveries.map Delivery.kind = [.notification, .notification, .messages, .acks] ∧
    b₁.diagnostics.unhandled = [] ∧
    b₂.diagnostics.unhandled = [⟨"session event callback", "outer: inner"⟩,
      ⟨"session event callback", "callback panicked: non-string panic payload"⟩] ∧
    b₂.metrics.counters.map (·.callbackFailures) = some 2 := by
  obtain ⟨b₁, b₂, hrun, hrun', hsame, hfirst, hsecond⟩ := failures_leave_deliveries mixedEvents
    (fun _ => .ok .ok) failingTwice (b := ({ metrics := ⟨some {}⟩, native := () } : Bridge Unit))
    HostLock.wellFormed_free rfl 3
  refine ⟨b₁, b₂, hrun, hrun', hsame, ?_, ?_, ?_, ?_⟩
  · rw [hsecond.deliveries]
    rfl
  · rw [hfirst.unhandled]
    rfl
  · rw [hsecond.unhandled]
    decide +kernel
  · rw [hsecond.counted]
    decide +kernel

end BrokerBridge
