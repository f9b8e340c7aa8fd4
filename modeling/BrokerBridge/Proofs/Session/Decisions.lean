import BrokerBridge.Proofs.Session.Balanced

/-!
# What decides how an operation ends

An operation of a session makes its checks one after another, and the first of them that fails
decides how it ends. Where all are passed, the call that the operation is for is made, and the code
that the client answers with decides.
-/

namespace BrokerBridge

variable {ν α β ε : Type}

/-- A post is never refused with the code of a success. -/
def NativeClient.RefusesByCode (c : NativeClient ν) : Prop :=
  ∀ e refused b b', c.post e b = .ok (.error refused) b' → refused.code ≠ Code.success

namespace Session

/-! ## Checks -/

structure FoundQueue where
  handle : QueueHandle
  table : QueueTable

inductive Rule where
  | monitored (options : QueueOptions)
  | encodable (properties : Option PropertySet)
  | valid (uri : String)
  | identified (guid : ByteArray)
  | packed (m : OutgoingMessage)

def Rule.broken? (s : Session ν) (found : Option FoundQueue) : Rule → Option SessionError
  | monitored options =>
      if options.suspendsOnBadHostHealth ∧ ¬ s.options.monitorHostHealth then
        some .hostHealthNotMonitored
      else none
  | encodable properties =>
      match encodeProperties properties with
      | .ok _ => none
      | .error e => some (.property e)
  | valid uri => found.bind fun q =>
      if q.table.isValid q.handle then none else some (.queueClosing uri)
  | identified guid => if guid.size = 16 then none else some .invalidGuid
  | packed m => found.bind fun q =>
      match s.client.builder.pack q.table .zero q.handle m with
      | .ok _ => none
      | .error refused => some (.construction refused.code)

inductive OperationCheck where
  | keeps (rule : Rule)
  | started
  | resolved (uri : String)

inductive Operation where
  | openQueue (uri : String) (read write : Bool) (options : QueueOptions)
      (timeout : Option Duration)
  | configureQueue (uri : String) (options : QueueOptions) (timeout : Option Duration)
  | closeQueue (uri : String) (timeout : Option Duration)
  | queueOptions (uri : String)
  | post (uri : String) (payload : ByteArray) (properties : Option PropertySet)
      (onAck : Option Correlation)
  | confirm (uri : String) (guid : ByteArray)

def outgoing (s : Session ν) (payload : ByteArray) (properties : Option PropertySet)
    (onAck : Option Correlation) : OutgoingMessage :=
  ⟨payload, (encodeProperties properties).toOption.join, onAck, s.compression⟩

namespace Operation

def checks (s : Session ν) : Operation → List OperationCheck
  | openQueue _ _ _ options _ => [.keeps (.monitored options), .started]
  | configureQueue uri options _ => [.keeps (.monitored options), .started, .resolved uri]
  | closeQueue uri _ => [.started, .resolved uri]
  | queueOptions uri => [.started, .resolved uri]
  | post uri payload properties onAck =>
      [.keeps (.encodable properties), .started, .resolved uri,
        .keeps (.packed (s.outgoing payload properties onAck))]
  | confirm uri guid =>
      [.started, .resolved uri, .keeps (.valid uri), .keeps (.identified guid)]

def error? : Except ε α → Option ε
  | .ok _ => none
  | .error e => some e

def outcome (s : Session ν) : Operation → Act ν (Option SessionError)
  | openQueue uri read write options timeout =>
      return error? (← (s.openQueue uri read write options timeout).run)
  | configureQueue uri options timeout =>
      return error? (← (s.configureQueue uri options timeout).run)
  | closeQueue uri timeout => return error? (← (s.closeQueue uri timeout).run)
  | queueOptions uri => return error? (← (s.queueOptions uri).run)
  | post uri payload properties onAck =>
      return (error? (← (s.post uri payload properties onAck).run)).map PostFailure.error
  | confirm uri guid => return error? (← (s.confirm uri guid).run)

end Operation

/-! ## Calls -/

/-- What the client replies to a call: a code, or with a code that it refuses. -/
inductive Reply where
  | answered (code : Int)
  | refused (code : Int)

namespace Reply

def code : Reply → Int
  | answered code | refused code => code

/-- The code tells whether the call was refused. -/
def Coded : Reply → Prop
  | answered _ => True
  | refused code => code ≠ Code.success

end Reply

inductive OwnCall where
  | start (timeout : Duration)
  | openQueue (uri : String) (flags : QueueFlags) (options : QueueOptions) (timeout : Duration)
  | configureQueue (uri : String) (q : QueueHandle) (options : QueueOptions) (timeout : Duration)
  | closeQueue (uri : String) (q : QueueHandle) (timeout : Duration)
  | post (uri : String) (e : MessageEvent)
  | confirm (q : QueueHandle) (guid : Guid)

namespace OwnCall

/-- How the client replies to a call, with a description where it gives one. Only a post can be
refused. -/
def Answered (c : NativeClient ν) (description : String) :
    OwnCall → Reply → Bridge ν → Bridge ν → Prop
  | start timeout, .answered code, b, b' => c.start timeout b = .ok code b'
  | openQueue uri flags options timeout, .answered code, b, b' =>
      ∃ q, c.openQueue uri flags options timeout b = .ok ⟨q, code, description⟩ b'
  | configureQueue _ q options timeout, .answered code, b, b' =>
      ∃ q', c.configureQueue q options timeout b = .ok ⟨q', code, description⟩ b'
  | closeQueue _ q timeout, .answered code, b, b' =>
      ∃ q', c.closeQueue q timeout b = .ok ⟨q', code, description⟩ b'
  | post _ e, .answered code, b, b' => code = Code.success ∧ c.post e b = .ok (.ok ()) b'
  | post _ e, .refused code, b, b' => ∃ returned, c.post e b = .ok (.error ⟨code, returned⟩) b'
  | confirm q guid, .answered code, b, b' => c.confirm q guid b = .ok code b'
  | _, .refused _, _, _ => False

def failed (description : String) : OwnCall → FailedCall
  | start _ => .start
  | openQueue uri .. => .queue .openQueue uri description
  | configureQueue uri .. => .queue .configureQueue uri description
  | closeQueue uri .. => .queue .closeQueue uri description
  | post uri _ => .post uri
  | confirm _ guid => .confirm guid

def failure? (description : String) (own : OwnCall) : Reply → Option SessionError
  | .answered code =>
      if code = Code.success then none else some (.ofNative (own.failed description) code)
  | .refused code => some (.ofNative (own.failed description) code)

/-- What the code of a reply relies on: that the client refuses a post with a code of its own. -/
def ReliesOn (c : NativeClient ν) : OwnCall → Prop
  | post .. => c.RefusesByCode
  | start _ | openQueue .. | configureQueue .. | closeQueue .. | confirm .. => True

end OwnCall

/-- The call that an operation is for, once it has found its queue. Reading the options of a queue
takes none. -/
def Operation.own? (s : Session ν) : Operation → Option FoundQueue → Option OwnCall
  | openQueue uri read write options timeout, _ =>
      some (.openQueue uri (.ofAccess read write) options
        (timeout.getD s.options.timeouts.openQueue))
  | configureQueue uri options timeout, found => found.map fun q =>
      .configureQueue uri q.handle options (timeout.getD s.options.timeouts.configureQueue)
  | closeQueue uri timeout, found => found.map fun q =>
      .closeQueue uri q.handle (timeout.getD s.options.timeouts.closeQueue)
  | queueOptions _, _ => none
  | post uri payload properties onAck, found => found.bind fun q =>
      (s.client.builder.pack q.table .zero q.handle
        (s.outgoing payload properties onAck)).toOption.map fun builder =>
          .post uri builder.build
  | confirm _ guid, found => found.bind fun q => (Guid.ofBytes? guid).map (.confirm q.handle)

/-- What a code says about the operation that it was the answer for. -/
structure Classified (code : Int) (e? : Option SessionError) : Prop where
  succeeds : e? = none ↔ code = 0
  timesOut : e?.map SessionError.kind = some "BrokerTimeout" ↔ code = -2
  fails : e?.map SessionError.kind = some "GenericFailure" ↔ code ≠ 0 ∧ code ≠ -2
  resultCode : ∀ e ∈ e?, e.resultCode = some code

private theorem classified_failure? (own : OwnCall) (description : String) (reply : Reply)
    (hcoded : reply.Coded) : Classified reply.code (own.failure? description reply) := by
  by_cases hsuccess : reply.code = 0
  · have hnone : own.failure? description reply = none := by
      cases reply with
      | answered => exact if_pos hsuccess
      | refused => exact absurd hsuccess hcoded
    rw [hnone, hsuccess]
    exact ⟨by decide, by decide, by decide, nofun⟩
  · have hsome : own.failure? description reply =
        some (.ofNative (own.failed description) reply.code) := by
      cases reply with
      | answered => exact if_neg hsuccess
      | refused => rfl
    have hkind : (SessionError.ofNative (own.failed description) reply.code).kind =
        if reply.code = -2 then "BrokerTimeout" else "GenericFailure" := by
      unfold SessionError.ofNative
      split <;> split <;> trivial
    rw [hsome]
    refine ⟨iff_of_false nofun hsuccess, ?_, ?_, ?_⟩
    · rw [Option.map_some, hkind]
      by_cases htimeout : reply.code = -2 <;> simp [htimeout]
    · rw [Option.map_some, hkind]
      by_cases htimeout : reply.code = -2 <;> simp [htimeout, hsuccess]
    · rintro _ ⟨⟩
      exact SessionError.resultCode_ofNative _ _

/-! ## Steps -/

inductive OperationStep where
  | stepOut (levels : Nat)
  | enter (started : Bool)
  | lookup (uri : String) (found : Option FoundQueue)
  | call (own : OwnCall) (reply : Reply) (description : String)
  | setStarted
  | leave
  | stepBack (levels : Nat)

def OperationStep.Taken (s : Session ν) : OperationStep → Bridge ν → Bridge ν → Prop
  | stepOut levels, b, b' => Act.stepOut b = .ok levels b'
  | enter started, b, b' => b.gate.started = started ∧ Session.enter b = .ok started b'
  | lookup uri found, b, b' => s.client.queue? uri b = .ok (found.map FoundQueue.handle) b' ∧
      ∀ q ∈ found, q.table = s.client.queues b'.native
  | call own reply description, b, b' => own.Answered s.client description reply b b'
  | setStarted, b, b' => ∃ was, Act.changeStarted true b = .ok was b'
  | leave, b, b' => s.leave b = .ok () b'
  | stepBack levels, b, b' => Act.stepBack levels b = .ok () b'

def Takes (s : Session ν) : List OperationStep → Bridge ν → Bridge ν → Prop
  | [], b, b' => b' = b
  | step :: rest, b, b' => ∃ b₁, step.Taken s b b₁ ∧ s.Takes rest b₁ b'

/-- What some checks come to that are made before a call: the steps taken, and the error that they
end with. A check that fails is the last, and only a call's answer comes after all checks. -/
inductive Verdict (s : Session ν) (own? : Option FoundQueue → Option OwnCall) :
    List OperationCheck → Option FoundQueue → List OperationStep → Option SessionError → Prop where
  | broken {rule : Rule} {rest found} {e : SessionError} (h : rule.broken? s found = some e) :
      Verdict s own? (.keeps rule :: rest) found [] (some e)
  | kept {rule : Rule} {rest found steps e?} (h : rule.broken? s found = none)
      (hrest : Verdict s own? rest found steps e?) :
      Verdict s own? (.keeps rule :: rest) found steps e?
  | stopped {rest found} (levels : Nat) :
      Verdict s own? (.started :: rest) found
        [.stepOut levels, .enter false, .stepBack levels] (some .stopped)
  | started {rest found steps e?} (levels : Nat) (hrest : Verdict s own? rest found steps e?) :
      Verdict s own? (.started :: rest) found
        ([.stepOut levels, .enter true] ++ steps ++ [.leave, .stepBack levels]) e?
  | missing {rest found} (uri : String) :
      Verdict s own? (.resolved uri :: rest) found [.lookup uri none] (some (.queueNotOpened uri))
  | resolved {rest found steps e?} (uri : String) (q : FoundQueue)
      (hrest : Verdict s own? rest (some q) steps e?) :
      Verdict s own? (.resolved uri :: rest) found (.lookup uri (some q) :: steps) e?
  | done {found} (h : own? found = none) : Verdict s own? [] found [] none
  | called {found} {own : OwnCall} (reply : Reply) (description : String)
      (h : own? found = some own) :
      Verdict s own? [] found [.call own reply description] (own.failure? description reply)

/-! ## Deciding -/

variable {s : Session ν} {own? : Option FoundQueue → Option OwnCall}

theorem takes_append {xs ys : List OperationStep} {b b' : Bridge ν} :
    s.Takes (xs ++ ys) b b' ↔ ∃ b₁, s.Takes xs b b₁ ∧ s.Takes ys b₁ b' := by
  induction xs generalizing b with
  | nil =>
    constructor
    · exact fun h => ⟨b, rfl, h⟩
    · rintro ⟨_, rfl, h⟩
      exact h
  | cons step rest ih =>
    constructor
    · rintro ⟨b₁, hstep, h⟩
      obtain ⟨b₂, hrest, hys⟩ := ih.mp h
      exact ⟨b₂, ⟨b₁, hstep, hrest⟩, hys⟩
    · rintro ⟨b₂, ⟨b₁, hstep, hrest⟩, hys⟩
      exact ⟨b₁, hstep, ih.mpr ⟨b₂, hrest, hys⟩⟩

/-- A computation ends as some checks and the call after them have it. What has been found is
known by it. -/
def Decided (s : Session ν) (own? : Option FoundQueue → Option OwnCall)
    (checks : List OperationCheck) (found : Option FoundQueue)
    (out : Except ε α → Option SessionError) (a : Op ν ε α) : Prop :=
  ∀ b : Bridge ν, (∀ q ∈ found, q.table = s.client.queues b.native) → ∀ e? b',
    (∃ r, a.run b = .ok r b' ∧ out r = e?) ↔
      ∃ steps, Verdict s own? checks found steps e? ∧ s.Takes steps b b'

variable {checks : List OperationCheck} {found : Option FoundQueue}
  {out : Except ε α → Option SessionError}

private theorem decided_broken {rule : Rule} {e : ε} {error : SessionError}
    (h : rule.broken? s found = some error) (hout : out (.error e) = some error) :
    Decided s own? (.keeps rule :: checks) found out (throw e : Op ν ε α) := by
  intro b _ e? b'
  constructor
  · rintro ⟨_, ⟨⟩, rfl⟩
    rw [hout]
    exact ⟨[], .broken h, rfl⟩
  · rintro ⟨_, hverdict, htakes⟩
    cases hverdict with
    | broken h' =>
      cases htakes
      exact ⟨.error e, rfl, by rw [hout, ← h, h']⟩
    | kept h' => rw [h] at h'; cases h'

private theorem decided_kept {rule : Rule} {a : Op ν ε α} (h : rule.broken? s found = none)
    (ha : Decided s own? checks found out a) :
    Decided s own? (.keeps rule :: checks) found out a := by
  intro b hfound e? b'
  refine (ha b hfound e? b').trans ⟨?_, ?_⟩
  · rintro ⟨steps, hverdict, htakes⟩
    exact ⟨steps, .kept h hverdict, htakes⟩
  · rintro ⟨steps, hverdict, htakes⟩
    cases hverdict with
    | broken h' => rw [h] at h'; cases h'
    | kept _ hrest => exact ⟨steps, hrest, htakes⟩

private theorem outsideHost_eq_ok {body : Act ν α} {x : α} {b b' : Bridge ν} :
    Act.outsideHost body b = .ok x b' ↔ ∃ levels b₁ b₂, Act.stepOut b = .ok levels b₁ ∧
      body b₁ = .ok x b₂ ∧ Act.stepBack levels b₂ = .ok () b' := by
  constructor
  · intro h
    obtain ⟨levels, b₁, hout, h⟩ := Act.bind_eq_ok.mp h
    obtain ⟨b₂, _, hbody, hback⟩ := Act.body_of_ensuring_ok h
    exact ⟨levels, b₁, b₂, hout, hbody, hback⟩
  · rintro ⟨levels, b₁, b₂, hout, hbody, hback⟩
    exact Act.bind_eq_ok.mpr ⟨levels, b₁, hout, Act.ensuring_of_ok hbody hback⟩

private theorem run_op_bind {a : Act ν β} {k : β → Op ν ε α} {r : Except ε α} {b b' : Bridge ν} :
    (op a >>= k).run b = .ok r b' ↔ ∃ x b₁, a b = .ok x b₁ ∧ (k x).run b₁ = .ok r b' := by
  rw [op, ExceptT.run_bind_lift]
  exact Act.bind_eq_ok

private theorem started_of_enter {started : Bool} {b b' : Bridge ν} (h : enter b = .ok started b') :
    b.gate.started = started := by
  rw [enter_apply] at h
  split at h
  · split at h
    · next hstarted =>
      cases h
      exact hstarted
    · next hstopped =>
      cases h
      exact Bool.eq_false_iff.mpr hstopped
  · cases h

private theorem decided_started {stopped : ε} {body : Op ν ε α}
    (hout : out (.error stopped) = some .stopped)
    (hbody : Decided s own? checks none out body) :
    Decided s own? (.started :: checks) none out (s.whileStarted stopped body) := by
  intro b _ e? b'
  constructor
  · rintro ⟨r, hrun, rfl⟩
    obtain ⟨levels, b₁, b₂, hleft, hinside, hback⟩ := outsideHost_eq_ok.mp hrun
    obtain ⟨started, b₃, henter, hinside⟩ := Act.bind_eq_ok.mp hinside
    have hentered := started_of_enter henter
    cases started with
    | false =>
      cases hinside
      rw [hout]
      exact ⟨_, .stopped levels, b₁, hleft, b₂, ⟨hentered, henter⟩, b', hback, rfl⟩
    | true =>
      obtain ⟨b₄, _, hrun, hleave⟩ := Act.body_of_ensuring_ok hinside
      obtain ⟨steps, hverdict, htakes⟩ := (hbody b₃ nofun (out r) b₄).mp ⟨r, hrun, rfl⟩
      have hin : s.Takes [.stepOut levels, .enter true] b b₃ :=
        ⟨b₁, hleft, b₃, ⟨hentered, henter⟩, rfl⟩
      refine ⟨_, .started levels hverdict, takes_append.mpr ⟨b₄, ?_, ?_⟩⟩
      · exact takes_append.mpr ⟨b₃, hin, htakes⟩
      · exact ⟨b₂, hleave, b', hback, rfl⟩
  · rintro ⟨_, hverdict, htakes⟩
    cases hverdict with
    | stopped levels =>
      obtain ⟨b₁, hleft, b₂, ⟨_, henter⟩, _, hback, rfl⟩ := htakes
      refine ⟨.error stopped, outsideHost_eq_ok.mpr ⟨levels, b₁, b₂, hleft, ?_, hback⟩, hout⟩
      exact Act.bind_of_ok henter
    | started levels hrest =>
      obtain ⟨b₄, htakes, b₂, hleave, _, hback, rfl⟩ := takes_append.mp htakes
      obtain ⟨b₃, ⟨b₁, hleft, _, ⟨_, henter⟩, rfl⟩, htakes⟩ := takes_append.mp htakes
      obtain ⟨r, hrun, hr⟩ := (hbody b₃ nofun e? b₄).mpr ⟨_, hrest, htakes⟩
      refine ⟨r, outsideHost_eq_ok.mpr ⟨levels, b₁, b₂, hleft, ?_, hback⟩, hr⟩
      exact (Act.bind_of_ok henter).trans (Act.ensuring_of_ok hrun hleave)

private theorem decided_resolved {uri : String} {missing : ε} {k : QueueHandle → Op ν ε α}
    (hout : out (.error missing) = some (.queueNotOpened uri))
    (hk : ∀ q, Decided s own? checks (some q) out (k q.handle)) :
    Decided s own? (.resolved uri :: checks) none out (s.openHandle uri missing >>= k) := by
  -- A lookup leaves the far side as it likes, so the queue is known with the tables after it.
  have hrun (r : Except ε α) (b b' : Bridge ν) :
      (s.openHandle uri missing >>= k).run b = .ok r b' ↔ ∃ q b₁, s.client.queue? uri b = .ok q b₁ ∧
        (q.elim (throw missing) k).run b₁ = .ok r b' := by
    rw [openHandle, bind_assoc, run_op_bind]
    refine exists_congr fun q => ?_
    cases q <;> rfl
  intro b _ e? b'
  simp only [hrun]
  constructor
  · rintro ⟨r, ⟨q, b₁, hlookup, hrest⟩, rfl⟩
    cases q with
    | none =>
      cases hrest
      rw [hout]
      exact ⟨_, .missing uri, _, ⟨hlookup, nofun⟩, rfl⟩
    | some q =>
      let found : FoundQueue := ⟨q, s.client.queues b₁.native⟩
      have hfound : ∀ q ∈ some found, q.table = s.client.queues b₁.native := by
        rintro _ ⟨⟩
        rfl
      obtain ⟨steps, hverdict, htakes⟩ := (hk found b₁ hfound (out r) b').mp ⟨r, hrest, rfl⟩
      exact ⟨_, .resolved uri found hverdict, b₁, ⟨hlookup, hfound⟩, htakes⟩
  · rintro ⟨_, hverdict, htakes⟩
    cases hverdict with
    | missing =>
      obtain ⟨_, ⟨hlookup, _⟩, rfl⟩ := htakes
      exact ⟨.error missing, ⟨none, _, hlookup, rfl⟩, hout⟩
    | resolved _ q hrest =>
      obtain ⟨b₁, ⟨hlookup, hfound⟩, htakes⟩ := htakes
      obtain ⟨r, hrun, hr⟩ := (hk q b₁ hfound e? b').mpr ⟨_, hrest, htakes⟩
      exact ⟨r, ⟨some q.handle, b₁, hlookup, hrun⟩, hr⟩

private theorem decided_table {q : FoundQueue} {k : QueueTable → Op ν ε α}
    (hk : Decided s own? checks (some q) out (k q.table)) :
    Decided s own? checks (some q) out (s.queueTable >>= k) := by
  intro b hfound e? b'
  have hrun : (s.queueTable >>= k).run b = (k q.table).run b := by
    rw [hfound q rfl]
    rfl
  rw [hrun]
  exact hk b hfound e? b'

private theorem decided_done {x : α} (h : own? found = none) (hout : out (.ok x) = none) :
    Decided s own? [] found out (pure x : Op ν ε α) := by
  intro b _ e? b'
  constructor
  · rintro ⟨_, ⟨⟩, rfl⟩
    rw [hout]
    exact ⟨[], .done h, rfl⟩
  · rintro ⟨_, hverdict, htakes⟩
    cases hverdict with
    | done =>
      cases htakes
      exact ⟨.ok x, rfl, hout⟩
    | called _ _ h' => rw [h] at h'; cases h'

private theorem decided_called {own : OwnCall} {a : Op ν ε α} (h : own? found = some own)
    (ha : ∀ b e? b', (∃ r, a.run b = .ok r b' ∧ out r = e?) ↔ ∃ reply description,
      own.Answered s.client description reply b b' ∧ own.failure? description reply = e?) :
    Decided s own? [] found out a := by
  intro b _ e? b'
  refine (ha b e? b').trans ⟨?_, ?_⟩
  · rintro ⟨reply, description, hanswer, rfl⟩
    exact ⟨_, .called reply description h, b', hanswer, rfl⟩
  · rintro ⟨_, hverdict, htakes⟩
    cases hverdict with
    | done h' => rw [h] at h'; cases h'
    | called reply description h' =>
      obtain ⟨_, hanswer, rfl⟩ := htakes
      rw [h] at h'
      cases h'
      exact ⟨reply, description, hanswer, rfl⟩

private theorem decided_answered {own : OwnCall} {a : Op ν ε α} (h : own? found = some own)
    (hown : ∀ description code b b', ¬own.Answered s.client description (.refused code) b b')
    (ha : ∀ b e? b', (∃ r, a.run b = .ok r b' ∧ out r = e?) ↔ ∃ code description,
      own.Answered s.client description (.answered code) b b' ∧
        own.failure? description (.answered code) = e?) :
    Decided s own? [] found out a := by
  refine decided_called h fun b e? b' => (ha b e? b').trans ⟨?_, ?_⟩
  · rintro ⟨code, description, hanswer⟩
    exact ⟨.answered code, description, hanswer⟩
  · rintro ⟨reply, description, hanswer, he⟩
    cases reply with
    | answered code => exact ⟨code, description, hanswer, he⟩
    | refused code => exact (hown _ _ _ _ hanswer).elim

/-! ## Operations -/

open Operation (error?)

private theorem decided_monitored {options : QueueOptions} {a : Op ν SessionError α}
    (ha : Decided s own? checks found error? a) :
    Decided s own? (.keeps (.monitored options) :: checks) found error?
      (s.requireMonitoring options >>= fun _ => a) := by
  by_cases hbroken : options.suspendsOnBadHostHealth ∧ ¬ s.options.monitorHostHealth
  · have hrule : (Rule.monitored options).broken? s found = some .hostHealthNotMonitored :=
      if_pos hbroken
    have hthrow : (s.requireMonitoring options >>= fun _ => a) = throw .hostHealthNotMonitored := by
      rw [requireMonitoring, if_pos (by simpa using hbroken)]
      rfl
    rw [hthrow]
    exact decided_broken hrule rfl
  · have hrule : (Rule.monitored options).broken? s found = none := if_neg hbroken
    have hgoes : (s.requireMonitoring options >>= fun _ => a) = a := by
      rw [requireMonitoring, if_neg (by simpa using hbroken)]
      rfl
    rw [hgoes]
    exact decided_kept hrule ha

private theorem run_code {a : Act ν Int} {call : FailedCall} {b b' : Bridge ν}
    {e? : Option SessionError} :
    (∃ r, (op a >>= fun code =>
        if code ≠ Code.success then throw (.ofNative call code) else pure ()
          : Op ν SessionError Unit).run b = .ok r b' ∧ error? r = e?) ↔
      ∃ code, a b = .ok code b' ∧
        (if code = Code.success then none else some (SessionError.ofNative call code)) = e? := by
  have hcode (code : Int) (r : Except SessionError Unit) (b₁ : Bridge ν) :
      (if code ≠ Code.success then throw (.ofNative call code) else pure ()
        : Op ν SessionError Unit).run b₁ = .ok r b' ↔ b' = b₁ ∧ r =
          if code = Code.success then .ok () else .error (.ofNative call code) := by
    by_cases h : code = Code.success
    · rw [if_neg fun hne => hne h, if_pos h]
      exact ⟨fun | rfl => ⟨rfl, rfl⟩, fun ⟨h, h'⟩ => h ▸ h' ▸ rfl⟩
    · rw [if_pos h, if_neg h]
      exact ⟨fun | rfl => ⟨rfl, rfl⟩, fun ⟨h, h'⟩ => h ▸ h' ▸ rfl⟩
  simp only [run_op_bind, hcode]
  constructor
  · rintro ⟨_, ⟨code, _, ha, rfl, rfl⟩, rfl⟩
    refine ⟨code, ha, ?_⟩
    split <;> rfl
  · rintro ⟨code, ha, rfl⟩
    refine ⟨_, ⟨code, b', ha, rfl, rfl⟩, ?_⟩
    split <;> rfl

private theorem run_posted {uri : String} {e : MessageEvent} {b b' : Bridge ν}
    {e? : Option SessionError} :
    (∃ r, (op (s.client.post e) >>= fun answer => match answer with
        | .ok () => pure ()
        | .error refused => throw
          ⟨.ofNative (.post uri) refused.code, refused.event.correlations.head?⟩
          : Op ν PostFailure Unit).run b = .ok r b' ∧ (error? r).map PostFailure.error = e?) ↔
      ∃ reply description, (OwnCall.post uri e).Answered s.client description reply b b' ∧
        (OwnCall.post uri e).failure? description reply = e? := by
  simp only [run_op_bind]
  constructor
  · rintro ⟨r, ⟨answer, b₁, hpost, hrun⟩, rfl⟩
    cases answer with
    | ok =>
      cases hrun
      exact ⟨.answered Code.success, "", ⟨rfl, hpost⟩, rfl⟩
    | error refused =>
      cases hrun
      exact ⟨.refused refused.code, "", ⟨refused.event, hpost⟩, rfl⟩
  · rintro ⟨reply, description, hanswer, rfl⟩
    cases reply with
    | answered code =>
      obtain ⟨rfl, hpost⟩ := hanswer
      exact ⟨.ok (), ⟨.ok (), b', hpost, rfl⟩, rfl⟩
    | refused code =>
      obtain ⟨returned, hpost⟩ := hanswer
      exact ⟨_, ⟨.error ⟨code, returned⟩, b', hpost, rfl⟩, rfl⟩

private theorem run_status {a : Act ν QueueStatus} {action : QueueAction} {uri : String}
    {b b' : Bridge ν}
    {e? : Option SessionError} :
    (∃ r, (op a >>= expectSuccess action uri).run b = .ok r b' ∧ error? r = e?) ↔
      ∃ code description, (∃ q, a b = .ok ⟨q, code, description⟩ b') ∧
        (if code = Code.success then none
          else some (SessionError.ofNative (.queue action uri description) code)) = e? := by
  have hstatus (status : QueueStatus) (r : Except SessionError Unit) (b₁ : Bridge ν) :
      (expectSuccess action uri status).run b₁ = .ok r b' ↔ b' = b₁ ∧ r =
        if status.code = Code.success then .ok ()
        else .error (.ofNative (.queue action uri status.description) status.code) := by
    unfold expectSuccess
    split <;> exact ⟨fun | rfl => ⟨rfl, rfl⟩, fun ⟨h, h'⟩ => h ▸ h' ▸ rfl⟩
  simp only [run_op_bind, hstatus]
  constructor
  · rintro ⟨_, ⟨⟨q, code, description⟩, b₁, ha, rfl, rfl⟩, rfl⟩
    refine ⟨code, description, ⟨q, ha⟩, ?_⟩
    dsimp only
    split <;> rfl
  · rintro ⟨code, description, ⟨q, ha⟩, rfl⟩
    refine ⟨_, ⟨_, b', ha, rfl, rfl⟩, ?_⟩
    dsimp only
    split <;> rfl

private theorem decided_openQueue (uri : String) (read write : Bool) (options : QueueOptions)
    (timeout : Option Duration) :
    Decided s ((Operation.openQueue uri read write options timeout).own? s)
      ((Operation.openQueue uri read write options timeout).checks s) none error?
      (s.openQueue uri read write options timeout) :=
  decided_monitored (decided_started rfl
    (decided_answered rfl (fun _ _ _ _ => id) fun _ _ _ => run_status))

private theorem decided_configureQueue (uri : String) (options : QueueOptions)
    (timeout : Option Duration) :
    Decided s ((Operation.configureQueue uri options timeout).own? s)
      ((Operation.configureQueue uri options timeout).checks s) none error?
      (s.configureQueue uri options timeout) :=
  decided_monitored (decided_started rfl (decided_resolved rfl fun _ =>
    decided_answered rfl (fun _ _ _ _ => id) fun _ _ _ => run_status))

private theorem decided_closeQueue (uri : String) (timeout : Option Duration) :
    Decided s ((Operation.closeQueue uri timeout).own? s)
      ((Operation.closeQueue uri timeout).checks s) none error? (s.closeQueue uri timeout) :=
  decided_started rfl (decided_resolved rfl fun _ =>
    decided_answered rfl (fun _ _ _ _ => id) fun _ _ _ => run_status)

private theorem decided_queueOptions (uri : String) :
    Decided s ((Operation.queueOptions uri).own? s)
      ((Operation.queueOptions uri).checks s) none error? (s.queueOptions uri) :=
  decided_started rfl (decided_resolved rfl fun _ => decided_table (decided_done rfl rfl))

private theorem decided_confirm (uri : String) (guid : ByteArray) :
    Decided s ((Operation.confirm uri guid).own? s)
      ((Operation.confirm uri guid).checks s) none error? (s.confirm uri guid) := by
  refine decided_started rfl (decided_resolved rfl fun q => decided_table ?_)
  by_cases hvalid : q.table.isValid q.handle
  · have hrule : (Rule.valid uri).broken? s (some q) = none := if_pos hvalid
    simp only [hvalid, Bool.not_true, Bool.false_eq_true, if_false]
    refine decided_kept hrule ?_
    by_cases hsize : guid.size = 16
    · have hrule : (Rule.identified guid).broken? s (some q) = none := if_pos hsize
      have hguid : Guid.ofBytes? guid = some ⟨guid, hsize⟩ := dif_pos hsize
      simp only [hguid]
      have hown : (Operation.confirm uri guid).own? s (some q) =
          some (.confirm q.handle ⟨guid, hsize⟩) := by
        simp only [Operation.own?, Option.bind_some, hguid, Option.map_some]
      refine decided_kept hrule
        (decided_answered hown (fun _ _ _ _ => id) fun b e? b' => run_code.trans ?_)
      exact ⟨fun ⟨code, h⟩ => ⟨code, "", h⟩, fun ⟨code, _, h⟩ => ⟨code, h⟩⟩
    · have hrule : (Rule.identified guid).broken? s (some q) = some .invalidGuid := if_neg hsize
      have hguid : Guid.ofBytes? guid = none := dif_neg hsize
      simp only [hguid]
      exact decided_broken hrule rfl
  · have hrule : (Rule.valid uri).broken? s (some q) = some (.queueClosing uri) := if_neg hvalid
    simp only [hvalid]
    exact decided_broken hrule rfl

private theorem decided_post (uri : String) (payload : ByteArray) (properties : Option PropertySet)
    (onAck : Option Correlation) :
    Decided s ((Operation.post uri payload properties onAck).own? s)
      ((Operation.post uri payload properties onAck).checks s) none
      (fun r => (error? r).map PostFailure.error) (s.post uri payload properties onAck) := by
  unfold post
  cases hencode : encodeProperties properties with
  | error e =>
    refine decided_broken ?_ rfl
    simp only [Rule.broken?, hencode]
  | ok wire =>
    refine decided_kept ?_ (decided_started rfl (decided_resolved rfl fun q => decided_table ?_))
    · simp only [Rule.broken?, hencode]
    have houtgoing : s.outgoing payload properties onAck =
        ⟨payload, wire, onAck, s.compression⟩ := by
      rw [outgoing, hencode]
      rfl
    rw [← houtgoing]
    cases hpack : s.client.builder.pack q.table .zero q.handle
        (s.outgoing payload properties onAck) with
    | error refused =>
      refine decided_broken ?_ rfl
      simp only [Rule.broken?, Option.bind_some, hpack]
    | ok builder =>
      have hown : (Operation.post uri payload properties onAck).own? s (some q) =
          some (.post uri builder.build) := by
        simp only [Operation.own?, Option.bind_some, hpack]
        rfl
      refine decided_kept ?_ (decided_called hown fun b e? b' => run_posted)
      simp only [Rule.broken?, Option.bind_some, hpack]

private theorem outcome_eq_ok {a : Op ν ε α} {out : Except ε α → Option SessionError}
    {b b' : Bridge ν}
    {e? : Option SessionError} : (do return out (← a.run) : Act ν (Option SessionError)) b =
      .ok e? b' ↔ ∃ r, a.run b = .ok r b' ∧ out r = e? := by
  refine Act.bind_eq_ok.trans ⟨?_, ?_⟩
  · rintro ⟨r, _, hrun, ⟨⟩⟩
    exact ⟨r, hrun, rfl⟩
  · rintro ⟨r, hrun, rfl⟩
    exact ⟨r, b', hrun, rfl⟩

def startSteps (timeout : Duration) (levels : Nat) (code : Int) : List OperationStep :=
  [.stepOut levels, .call (.start timeout) (.answered code) ""] ++
    (if code = Code.success then [.setStarted] else []) ++ [.stepBack levels]

private theorem start_eq_ok {timeout : Option Duration} {b b' : Bridge ν}
    {e? : Option SessionError} :
    (∃ r, (s.start timeout).run b = .ok r b' ∧ error? r = e?) ↔ ∃ levels code,
      s.Takes (startSteps (timeout.getD s.options.timeouts.connect) levels code) b b' ∧
        (OwnCall.start (timeout.getD s.options.timeouts.connect)).failure? "" (.answered code) =
          e? := by
  refine run_code.trans ?_
  constructor
  · rintro ⟨code, hrun, rfl⟩
    obtain ⟨levels, b₁, b₂, hleft, hbody, hback⟩ := outsideHost_eq_ok.mp hrun
    obtain ⟨code, b₃, hstart, hraise⟩ := Act.bind_eq_ok.mp hbody
    by_cases hcode : code = Code.success
    · rw [if_pos hcode] at hraise
      obtain ⟨was, _, hraise, ⟨⟩⟩ := Act.bind_eq_ok.mp hraise
      refine ⟨levels, code, ?_, rfl⟩
      rw [startSteps, if_pos hcode]
      exact ⟨b₁, hleft, b₃, hstart, b₂, ⟨was, hraise⟩, b', hback, rfl⟩
    · rw [if_neg hcode] at hraise
      cases hraise
      refine ⟨levels, code, ?_, rfl⟩
      rw [startSteps, if_neg hcode]
      exact ⟨b₁, hleft, b₂, hstart, b', hback, rfl⟩
  · rintro ⟨levels, code, htakes, rfl⟩
    refine ⟨code, outsideHost_eq_ok.mpr ?_, rfl⟩
    rw [startSteps] at htakes
    by_cases hcode : code = Code.success
    · rw [if_pos hcode] at htakes
      obtain ⟨b₁, hleft, b₃, hstart, b₂, ⟨was, hraise⟩, _, hback, rfl⟩ := htakes
      refine ⟨levels, b₁, b₂, hleft, (Act.bind_of_ok hstart).trans ?_, hback⟩
      rw [if_pos hcode]
      exact Act.bind_eq_ok.mpr ⟨was, b₂, hraise, rfl⟩
    · rw [if_neg hcode] at htakes
      obtain ⟨b₁, hleft, b₂, hstart, _, hback, rfl⟩ := htakes
      refine ⟨levels, b₁, b₂, hleft, (Act.bind_of_ok hstart).trans ?_, hback⟩
      rw [if_neg hcode]
      rfl

private theorem gate_of_stepBack {levels : Nat} {b b' : Bridge ν}
    (h : Act.stepBack levels b = .ok () b') : b'.gate = b.gate := by
  rw [Act.stepBack_apply] at h
  split at h
  · cases h
    rfl
  · cases h

private theorem started_of_startSteps {timeout : Duration} {levels : Nat} {code : Int}
    {b b' : Bridge ν}
    (h : s.Takes (startSteps timeout levels code) b b') : ∃ b₁,
      s.client.start timeout { b with host := (b.host.leaveAll b.thread).2 } = .ok code b₁ ∧
      b'.gate.started = (decide (code = Code.success) || b₁.gate.started) := by
  rw [startSteps] at h
  by_cases hcode : code = Code.success
  · rw [if_pos hcode] at h
    obtain ⟨_, hleft, b₁, hstart, b₂, ⟨was, hraise⟩, _, hback, rfl⟩ := h
    cases hleft
    refine ⟨b₁, hstart, ?_⟩
    rw [gate_of_stepBack hback, (Act.eq_of_changeStarted hraise).2.2, decide_eq_true hcode]
    rfl
  · rw [if_neg hcode] at h
    obtain ⟨_, hleft, b₁, hstart, _, hback, rfl⟩ := h
    cases hleft
    refine ⟨b₁, hstart, ?_⟩
    rw [gate_of_stepBack hback, decide_eq_false hcode]
    rfl

private theorem Verdict.classified {checks : List OperationCheck} {found : Option FoundQueue}
    {steps : List OperationStep} {e? : Option SessionError}
    (h : Verdict s own? checks found steps e?) {own : OwnCall} {reply : Reply}
    {description : String} (hcall : .call own reply description ∈ steps) (hcoded : reply.Coded) :
    Classified reply.code e? := by
  induction h with
  | broken | done => cases hcall
  | kept _ _ ih => exact ih hcall
  | stopped => simp at hcall
  | started _ _ ih => exact ih (by simpa using hcall)
  | missing => simp at hcall
  | resolved _ _ _ ih => exact ih (by simpa using hcall)
  | called reply description =>
    simp only [List.mem_singleton, OperationStep.call.injEq] at hcall
    obtain ⟨rfl, rfl, rfl⟩ := hcall
    exact classified_failure? _ _ _ hcoded

private theorem OwnCall.Answered.coded {own : OwnCall} {description : String} {reply : Reply}
    {b b' : Bridge ν} (h : own.Answered s.client description reply b b')
    (hrelies : own.ReliesOn s.client) : reply.Coded := by
  cases reply with
  | answered => trivial
  | refused code =>
    cases own with
    | post uri e =>
      obtain ⟨returned, hpost⟩ := h
      exact hrelies _ _ _ _ hpost
    | _ => exact h.elim

private theorem coded_of_takes {steps : List OperationStep} {b b' : Bridge ν}
    (h : s.Takes steps b b') {own : OwnCall} {reply : Reply} {description : String}
    (hcall : .call own reply description ∈ steps) (hrelies : own.ReliesOn s.client) :
    reply.Coded := by
  induction steps generalizing b with
  | nil => cases hcall
  | cons step rest ih =>
    obtain ⟨b₁, hstep, hrest⟩ := h
    rcases List.mem_cons.mp hcall with rfl | hlater
    · exact OwnCall.Answered.coded hstep hrelies
    · exact ih hrest hlater

/-- Whatever the client answers, an operation takes the steps, and ends with the error, that its
checks in their order come to: the first that fails decides, with an error of its own and before
any further call. Where the call is made that an operation is for, its code decides, if the client
refuses no post with the code of a success; so does the code that a start is answered with. A start
that fails leaves the session started or stopped as it is then. -/
theorem operations_decide_alike (s : Session ν) :
    (∀ (operation : Operation) (b b' : Bridge ν) (e? : Option SessionError),
      operation.outcome s b = .ok e? b' ↔ ∃ steps,
        Verdict s (operation.own? s) (operation.checks s) none steps e? ∧ s.Takes steps b b') ∧
    (∀ (operation : Operation) (steps : List OperationStep) (e? : Option SessionError),
      Verdict s (operation.own? s) (operation.checks s) none steps e? →
        ∀ own reply description, .call own reply description ∈ steps → reply.Coded →
          Classified reply.code e?) ∧
    (∀ (steps : List OperationStep) (b b' : Bridge ν), s.Takes steps b b' →
      ∀ own reply description, .call own reply description ∈ steps → own.ReliesOn s.client →
        reply.Coded) ∧
    ∀ (timeout : Option Duration) (b b' : Bridge ν) (e? : Option SessionError),
      ((∃ r, (s.start timeout).run b = .ok r b' ∧ error? r = e?) ↔ ∃ levels code,
        s.Takes (startSteps (timeout.getD s.options.timeouts.connect) levels code) b b' ∧
          (OwnCall.start (timeout.getD s.options.timeouts.connect)).failure? ""
            (.answered code) = e?) ∧
      ∀ r, (s.start timeout).run b = .ok r b' → ∃ code b₁,
        s.client.start (timeout.getD s.options.timeouts.connect)
          { b with host := (b.host.leaveAll b.thread).2 } = .ok code b₁ ∧
        Classified code (error? r) ∧
        b'.gate.started = (decide (code = Code.success) || b₁.gate.started) := by
  refine ⟨fun operation b b' e? => ?_, fun _ _ _ h _ _ _ => h.classified,
    fun _ _ _ h _ _ _ => coded_of_takes h, ?_⟩
  · cases operation with
    | openQueue => exact outcome_eq_ok.trans (decided_openQueue _ _ _ _ _ b nofun e? b')
    | configureQueue => exact outcome_eq_ok.trans (decided_configureQueue _ _ _ b nofun e? b')
    | closeQueue => exact outcome_eq_ok.trans (decided_closeQueue _ _ b nofun e? b')
    | queueOptions => exact outcome_eq_ok.trans (decided_queueOptions _ b nofun e? b')
    | post => exact outcome_eq_ok.trans (decided_post _ _ _ _ b nofun e? b')
    | confirm => exact outcome_eq_ok.trans (decided_confirm _ _ b nofun e? b')
  · intro timeout b b' e?
    refine ⟨start_eq_ok, fun r hrun => ?_⟩
    obtain ⟨levels, code, htakes, he⟩ := start_eq_ok.mp ⟨r, hrun, rfl⟩
    obtain ⟨b₁, hstart, hstarted⟩ := started_of_startSteps htakes
    refine ⟨code, b₁, hstart, ?_, hstarted⟩
    rw [← he]
    exact classified_failure? (.start _) "" (.answered code) trivial

/-- A client that knows every queue, counts the calls made to it and answers all with one code. -/
def answering (code : Int) : NativeClient Nat where
  start _ := Act.onNative fun n => (code, n + 1)
  stop := Act.modifyNative (· + 1)
  openQueue _ _ _ _ := Act.onNative fun n => (⟨none, code, "done"⟩, n + 1)
  configureQueue q _ _ := Act.onNative fun n => (⟨some q, code, "done"⟩, n + 1)
  closeQueue q _ := Act.onNative fun n => (⟨some q, code, "done"⟩, n + 1)
  queue? uri := return some ⟨0, uri, .ofAccess true true⟩
  post e :=
    if code = Code.success then Act.onNative fun n => (.ok (), n + 1)
    else Act.onNative fun n => (.error ⟨code, e⟩, n + 1)
  confirm _ _ := Act.onNative fun n => (code, n + 1)
  queues _ := ⟨[{}]⟩

def answeringSession (code : Int) : Session Nat where
  client := answering code
  options := .ofSettings "program" {}
  compression := .none
  label := "session"

private theorem refusesByCode_answering (code : Int) : (answering code).RefusesByCode := by
  intro e refused b b' h
  have hpost : (answering code).post e b = (if code = Code.success then
      Act.onNative fun n => (.ok (), n + 1)
    else Act.onNative fun n => (.error ⟨code, e⟩, n + 1) : Act Nat (Except PostRejection Unit)) b :=
    rfl
  rw [hpost] at h
  split at h
  · cases h
  · next hcode =>
    cases h
    exact hcode

def foundQueue : FoundQueue := ⟨⟨0, "bmq://d/q", .ofAccess true true⟩, ⟨[{}]⟩⟩

/-- A queue is configured too late, a message is posted too late, a message is confirmed by one
byte, and a start comes to nothing. -/
theorem operations_decide_alike_late :
    (Operation.configureQueue "bmq://d/q" {} none).outcome (answeringSession (-2))
      { gate := { started := true }, native := 0 } =
        .ok (some (.timedOut (.queue .configureQueue "bmq://d/q" "done")))
          { gate := { started := true }, native := 1 } ∧
    (Operation.post "bmq://d/q" ⟨#[1]⟩ none none).outcome (answeringSession (-2))
      { gate := { started := true }, native := 0 } =
        .ok (some (.timedOut (.post "bmq://d/q"))) { gate := { started := true }, native := 1 } ∧
    Classified (-2) (some (.timedOut (.post "bmq://d/q"))) ∧
    (Operation.confirm "bmq://d/q" ⟨#[1]⟩).outcome (answeringSession (-2))
      { gate := { started := true }, native := 0 } =
        .ok (some .invalidGuid) { gate := { started := true }, native := 0 } ∧
    ∃ r, ((answeringSession (-2)).start none).run { native := 0 } = .ok r { native := 1 } ∧
      error? r = some (.timedOut .start) := by
  obtain ⟨hoperations, hclassified, hcoded, hstart⟩ :=
    operations_decide_alike (answeringSession (-2))
  have htable : ∀ q ∈ some foundQueue, q.table = ⟨[{}]⟩ := by
    rintro _ ⟨⟩
    rfl
  have hconfigure : Verdict (answeringSession (-2))
      ((Operation.configureQueue "bmq://d/q" {} none).own? (answeringSession (-2)))
      ((Operation.configureQueue "bmq://d/q" {} none).checks (answeringSession (-2))) none _ _ :=
    .kept rfl (.started 0 (.resolved "bmq://d/q" foundQueue
      (.called (.answered (-2)) "done" rfl)))
  obtain ⟨steps, event, hpost, htakes, hcall⟩ : ∃ steps event, Verdict (answeringSession (-2))
      ((Operation.post "bmq://d/q" ⟨#[1]⟩ none none).own? (answeringSession (-2)))
      ((Operation.post "bmq://d/q" ⟨#[1]⟩ none none).checks (answeringSession (-2))) none steps
        ((OwnCall.post "bmq://d/q" event).failure? "" (.refused (-2))) ∧
      (answeringSession (-2)).Takes steps { gate := { started := true }, native := 0 }
        { gate := { started := true }, native := 1 } ∧
      .call (.post "bmq://d/q" event) (.refused (-2)) "" ∈ steps := by
    refine ⟨_, _, .kept rfl (.started 0 (.resolved "bmq://d/q" foundQueue
      (.kept rfl (.called (.refused (-2)) "" rfl)))), ?_, ?_⟩
    · exact ⟨_, rfl, _, ⟨rfl, rfl⟩, _, ⟨rfl, htable⟩, _, ⟨_, rfl⟩, _, rfl, _, rfl, rfl⟩
    · exact List.mem_append_left _ (List.mem_append_right _
        (List.mem_cons_of_mem _ (List.mem_singleton.mpr rfl)))
  have hconfirm : Verdict (answeringSession (-2))
      ((Operation.confirm "bmq://d/q" ⟨#[1]⟩).own? (answeringSession (-2)))
      ((Operation.confirm "bmq://d/q" ⟨#[1]⟩).checks (answeringSession (-2))) none _ _ :=
    .started 0 (.resolved "bmq://d/q" foundQueue (.kept rfl (.broken rfl)))
  refine ⟨(hoperations (.configureQueue ..) _ _ _).mpr ⟨_, hconfigure, ?_⟩,
    (hoperations (.post ..) _ _ _).mpr ⟨steps, hpost, htakes⟩,
    hclassified _ _ _ hpost _ _ _ hcall
      (hcoded _ _ _ htakes _ _ _ hcall (refusesByCode_answering (-2))),
    (hoperations (.confirm ..) _ _ _).mpr ⟨_, hconfirm, ?_⟩,
    (hstart none _ _ _).1.mpr ⟨0, -2, ?_, rfl⟩⟩
  · exact ⟨_, rfl, _, ⟨rfl, rfl⟩, _, ⟨rfl, htable⟩, _, ⟨_, rfl⟩, _, rfl, _, rfl, rfl⟩
  · exact ⟨_, rfl, _, ⟨rfl, rfl⟩, _, ⟨rfl, htable⟩, _, rfl, _, rfl, rfl⟩
  · exact ⟨_, rfl, _, rfl, _, rfl, rfl⟩

end Session

end BrokerBridge
