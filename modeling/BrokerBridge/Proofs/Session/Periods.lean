import BrokerBridge.Proofs.Session.Within

/-!
# Started periods

A session stops its client once for each time that it was started: by the first stop after the
start, or when it is dropped. What a client is started and stopped by is noted in its own state.
-/

namespace BrokerBridge

variable {ν α : Type}

/-! ## Calls in a row -/

inductive LifecycleCall where
  | start (accepted : Bool)
  | stop
deriving DecidableEq, Repr

namespace LifecycleCall

def hasEffect : LifecycleCall → Bool
  | start accepted => accepted
  | stop => true

def last? (log : List LifecycleCall) : Option LifecycleCall := (log.filter hasEffect).getLast?

theorem last?_append (log more : List LifecycleCall) :
    last? (log ++ more) = (last? more).or (last? log) := by
  unfold last?
  rw [List.filter_append, List.getLast?_append]

theorem last?_cons {c : LifecycleCall} (hc : c.hasEffect = true) (log : List LifecycleCall) :
    last? (c :: log) = (last? log).or (some c) := by
  unfold last?
  rw [List.filter_cons_of_pos hc, List.getLast?_cons]
  cases (log.filter hasEffect).getLast? <;> rfl

private theorem hasEffect_of_last? {log : List LifecycleCall} {c : LifecycleCall}
    (h : last? log = some c) : c ∈ log ∧ c.hasEffect = true :=
  List.mem_filter.mp (List.mem_of_getLast? h)

/-- What is noted of starts and stops while a session is started or not: the last that had an
effect says which, and no stop comes but after a start that was accepted. -/
structure Alternates (started : Bool) (log : List LifecycleCall) : Prop where
  started : started = true ↔ last? log = some (.start true)
  stops : ∀ before, before ++ [.stop] <+: log → last? before = some (.start true)

namespace Alternates

variable {started : Bool} {log : List LifecycleCall}

private theorem nil : Alternates false [] where
  started := iff_of_false nofun nofun
  stops before h := by simp at h

private theorem start (h : Alternates started log) (accepted : Bool) :
    Alternates (accepted || started) (log ++ [.start accepted]) where
  started := by
    rw [last?_append]
    cases accepted with
    | true => exact iff_of_true rfl rfl
    | false => exact h.started
  stops before hstops := by
    rcases List.prefix_concat_iff.mp hstops with heq | hstops
    · cases (List.append_inj' heq rfl).2
    · exact h.stops before hstops

private theorem stop (h : Alternates true log) : Alternates false (log ++ [.stop]) where
  started := by
    rw [last?_append]
    exact iff_of_false nofun nofun
  stops before hstops := by
    rcases List.prefix_concat_iff.mp hstops with heq | hstops
    · rw [(List.append_inj' heq rfl).1]
      exact h.started.mp rfl
    · exact h.stops before hstops

private theorem ended (h : Alternates started log) :
    Alternates false (log ++ if started then [.stop] else []) := by
  cases started with
  | true => exact h.stop
  | false =>
    rw [if_neg Bool.false_ne_true, List.append_nil]
    exact h

private theorem between (h : Alternates started log) {before between : List LifecycleCall}
    (hstops : before ++ .stop :: between ++ [.stop] <+: log) : .start true ∈ between := by
  have hlast := h.stops _ hstops
  rw [last?_append, last?_cons rfl] at hlast
  cases hbetween : last? between with
  | none =>
    rw [hbetween] at hlast
    cases hlast
  | some c =>
    rw [hbetween] at hlast
    cases hlast
    exact (hasEffect_of_last? hbetween).1

/-- Where nothing is started, the last call with an effect after an accepted start is a stop. -/
theorem stopped_after (h : Alternates false log) {before after : List LifecycleCall}
    (hlog : log = before ++ .start true :: after) : last? after = some .stop := by
  have hstopped : last? log ≠ some (.start true) := fun hlast => nomatch h.started.mpr hlast
  rw [hlog, last?_append, last?_cons rfl] at hstopped
  cases hafter : last? after with
  | none =>
    rw [hafter] at hstopped
    exact absurd rfl hstopped
  | some c =>
    rw [hafter] at hstopped
    cases c with
    | stop => rfl
    | start accepted =>
      have haccepted : accepted = true := (hasEffect_of_last? hafter).2
      rw [haccepted] at hstopped
      exact absurd rfl hstopped

end Alternates

end LifecycleCall

/-! ## Sessions -/

open LifecycleCall Act

def Bridge.dropReports (b : Bridge ν) : List UnhandledFailure :=
  b.diagnostics.unhandled.filter (·.context = "session drop")

structure Marks (calls : ν → List LifecycleCall) (new : List LifecycleCall) (started : Bool)
    (b b' : Bridge ν) : Prop where
  waiting : b'.gate.waiting = []
  calls : calls b'.native = calls b.native ++ new
  started : b'.gate.started = started
  reports : b'.dropReports = b.dropReports

section

variable {calls : ν → List LifecycleCall} {new more : List LifecycleCall} {started : Bool}
  {b b₁ b₂ b₃ b' : Bridge ν}

theorem Marks.trans (h : Marks calls new started b₁ b₂) {started' : Bool}
    (h' : Marks calls more started' b₂ b₃) : Marks calls (new ++ more) started' b₁ b₃ where
  waiting := h'.waiting
  calls := by rw [h'.calls, h.calls, List.append_assoc]
  started := h'.started
  reports := h'.reports.trans h.reports

private theorem Alike.marks (h : Alike b b') (hwaiting : b.gate.waiting = []) :
    Marks calls [] b.gate.started b b' where
  waiting := h.waiting.trans hwaiting
  calls := by rw [h.native, List.append_nil]
  started := h.started
  reports := by rw [Bridge.dropReports, h.unhandled, Bridge.dropReports]

private theorem Marks.of_alike (h : Marks calls new started b₁ b₂) (hbefore : Alike b b₁)
    (hafter : Alike b₂ b') : Marks calls new started b b' where
  waiting := hafter.waiting.trans h.waiting
  calls := by rw [hafter.native, h.calls, hbefore.native]
  started := hafter.started.trans h.started
  reports := by
    rw [Bridge.dropReports, hafter.unhandled]
    refine h.reports.trans ?_
    rw [Bridge.dropReports, hbefore.unhandled, Bridge.dropReports]

private theorem Marks.setStarted (h : Marks calls new started b b') (now : Bool) :
    Marks calls new now b { b' with gate := b'.gate.setStarted now } :=
  ⟨h.waiting, h.calls, rfl, h.reports⟩

/-- Where no stop waits, nothing is done that starts, stops or drops a session. -/
def LeavesPeriod (calls : ν → List LifecycleCall) (b b' : Bridge ν) : Prop :=
  b.gate.waiting = [] → Marks calls [] b.gate.started b b'

private theorem composes_leavesPeriod : Course.Composes fun _ => LeavesPeriod calls where
  alike h hwaiting := h.marks hwaiting
  raise _ b hwaiting := Alike.marks ⟨rfl, rfl, rfl, rfl, rfl, rfl⟩ hwaiting
  before h₁ h₂ hwaiting := by
    have hfirst := h₁ hwaiting
    rw [← hfirst.started]
    exact hfirst.trans (h₂ hfirst.waiting)
  after h₁ h₂ hwaiting := by
    have hfirst := h₁ hwaiting
    rw [← hfirst.started]
    exact hfirst.trans (h₂ hfirst.waiting)

end

def answered : Except Panic Int → List LifecycleCall
  | .ok code => [.start (code = Code.success)]
  | .error _ => []

/-- A client notes how it is started and stopped, and leaves all else of it to the session. -/
structure NativeClient.NotesCalls (c : NativeClient ν) (calls : ν → List LifecycleCall) :
    Prop where
  start : ∀ timeout r b b', b.gate.waiting = [] → (c.start timeout).EndsIn r b b' →
    Marks calls (answered r) b.gate.started b b'
  stop : ∀ r b b', b.gate.waiting = [] → c.stop.EndsIn r b b' →
    Marks calls [.stop] b.gate.started b b'
  queues : c.QueueCalls (fun a _ => Follows (fun _ => LeavesPeriod calls) a) c

namespace Session

/-- Starts, stops and queue operations one after another, however each of them ends, on a session
that is new. What happens beside them starts and stops nothing. -/
inductive Lifetime (s : Session ν) (calls : ν → List LifecycleCall) : Bridge ν → Prop where
  | new {b : Bridge ν} : b.gate.started = false → b.gate.waiting = [] → calls b.native = [] →
      b.dropReports = [] → Lifetime s calls b
  | start {b b' : Bridge ν} (timeout : Option Duration) : Lifetime s calls b →
      (s.start timeout).run.Ends b b' → Lifetime s calls b'
  | stop {b b' : Bridge ν} (warn : Bool) : Lifetime s calls b → (s.stop warn).run.Ends b b' →
      Lifetime s calls b'
  | operation {α : Type} {b b' : Bridge ν} {a : Act ν α} : Lifetime s calls b → s.QueueOperation a →
      a.Ends b b' → Lifetime s calls b'
  | aside {b b' : Bridge ν} : Lifetime s calls b → LeavesPeriod calls b b' → Lifetime s calls b'

variable {s : Session ν} {calls : ν → List LifecycleCall} (hc : s.client.NotesCalls calls)
  {b b' : Bridge ν}

include hc

private theorem leavesPeriod_operation {a : Act ν α} (h : s.QueueOperation a) :
    Follows (fun _ => LeavesPeriod calls) a := by
  have hleave : Follows (fun _ => LeavesPeriod calls) s.leave :=
    { ok := fun h hwaiting => (alike_of_leave hwaiting h).marks hwaiting
      panic := fun h => absurd h (neverPanics_leave _ _ _) }
  have hpasses : s.Passes (fun a _ => Follows (fun _ => LeavesPeriod calls) a)
      (fun a _ => Follows (fun _ => LeavesPeriod calls) a) s.client :=
    { toQueueCalls := hc.queues
      whileStarted := fun stopped _ _ h =>
        follows_whileStarted composes_leavesPeriod hleave stopped h }
  exact closed_queueOperation (closed_follows composes_leavesPeriod) hpasses h

/-- A start is noted with its answer, unless there is none, and an accepted one takes the session
for started. -/
theorem marks_start {timeout : Option Duration} {r : Except Panic (Except SessionError Unit)}
    (hwaiting : b.gate.waiting = []) (h : (s.start timeout).run.EndsIn r b b') :
    (∃ accepted, Marks calls [.start accepted] (accepted || b.gate.started) b b') ∨
      Marks calls [] b.gate.started b b' := by
  obtain ⟨answer, b₁, b₂, hbefore, hstart, hafter, _⟩ := endsIn_of_start h
  have hmarks := hc.start _ _ _ _ (hbefore.waiting.trans hwaiting) hstart
  rw [hbefore.started] at hmarks
  cases answer with
  | error => exact .inr (hmarks.of_alike hbefore hafter)
  | ok code =>
    refine .inl ⟨code = Code.success, ?_⟩
    by_cases haccepted : code = Code.success
    · simp only [haccepted, if_true] at hafter
      rw [decide_eq_true haccepted, Bool.true_or]
      have haccepting := (hmarks.setStarted true).of_alike hbefore hafter
      rwa [answered, decide_eq_true haccepted] at haccepting
    · simp only [haccepted, if_false] at hafter
      have hflag : (decide (code = Code.success) || b.gate.started) = b.gate.started := by
        rw [decide_eq_false haccepted, Bool.false_or]
      rw [hflag]
      exact hmarks.of_alike hbefore hafter

/-- A stop is noted exactly if the session was started, and it is stopped afterwards. -/
theorem marks_stop {warn : Bool} {r : Except Panic (Except SessionError Unit)}
    (hwaiting : b.gate.waiting = []) (h : (s.stop warn).run.EndsIn r b b') :
    Marks calls (if b.gate.started then [.stop] else []) false b b' := by
  obtain ⟨answer, b₁, b₂, hbefore, hafter, hstop, _⟩ := endsIn_of_stop h
  have hcleared := ((Alike.marks hbefore hwaiting).setStarted false : Marks calls _ _ _ _)
  cases hstarted : b.gate.started with
  | true =>
    rw [hstarted, if_pos rfl] at hstop
    have hmarks := hcleared.trans (hc.stop _ _ _ hcleared.waiting hstop)
    exact hmarks.of_alike ⟨rfl, rfl, rfl, rfl, rfl, rfl⟩ hafter
  | false =>
    rw [hstarted, if_neg Bool.false_ne_true] at hstop
    rw [hstop.2] at hafter
    exact hcleared.of_alike ⟨rfl, rfl, rfl, rfl, rfl, rfl⟩ hafter

omit hc in
/-- A session that is dropped is stopped. A warning that comes out of it as an error is reported. -/
theorem endsIn_of_drop {r : Except Panic Unit} (h : s.drop.EndsIn r b b') :
    ∃ result b₁, (s.stop true).run.EndsIn result b b₁ ∧ r = result.map (fun _ => ()) ∧
      b' = match result with
        | .ok (.error e) => Course.reported b₁ "session drop" e.message
        | .ok (.ok ()) => b₁
        | .error _ => b₁ := by
  rcases endsIn_of_bind h with ⟨result, b₁, hstop, hreport⟩ | ⟨cause, rfl, hstop⟩
  · refine ⟨.ok result, b₁, hstop, ?_⟩
    cases result with
    | ok => exact endsIn_pure hreport
    | error e =>
      cases r with
      | ok =>
        cases hreport
        exact ⟨rfl, rfl⟩
      | error => cases hreport
  · exact ⟨.error cause, b', hstop, rfl, rfl⟩

omit hc in
private theorem dropReports_reported (text : String) :
    (Course.reported b "session drop" text).dropReports =
      b.dropReports ++ [⟨"session drop", text⟩] := by
  show (b.diagnostics.unhandled ++ [_]).filter _ = _
  rw [List.filter_append]
  rfl

private theorem marks_drop {r : Except Panic Unit} (hwaiting : b.gate.waiting = [])
    (h : s.drop.EndsIn r b b') :
    calls b'.native = calls b.native ++ (if b.gate.started then [.stop] else []) ∧
      b'.gate.started = false ∧ (r = .ok () → b'.dropReports = b.dropReports ++
        if b.gate.started && b'.diagnostics.escalate then
          [⟨"session drop", s.unstoppedWarning⟩]
        else []) := by
  obtain ⟨result, b₁, hstop, hr, rfl⟩ := endsIn_of_drop h
  have hmarks := marks_stop hc hwaiting hstop
  obtain ⟨answer, _, _, _, _, _, rfl⟩ := endsIn_of_stop hstop
  cases answer with
  | error => exact ⟨hmarks.calls, hmarks.started, fun hok => nomatch hr.symm.trans hok⟩
  | ok =>
    simp only [Except.map, Bool.and_true]
    cases hwarned : b.gate.started && b₁.diagnostics.escalate with
    | true =>
      refine ⟨hmarks.calls, hmarks.started, fun _ => ?_⟩
      simp only [if_true]
      rw [dropReports_reported, hmarks.reports]
      exact congrArg (b.dropReports ++ ·) (if_pos hwarned).symm
    | false =>
      refine ⟨hmarks.calls, hmarks.started, fun _ => ?_⟩
      simp only [Bool.false_eq_true, if_false, hwarned, List.append_nil]
      exact hmarks.reports

private theorem Lifetime.alternates (h : s.Lifetime calls b) : b.gate.waiting = [] ∧
    Alternates b.gate.started (calls b.native) ∧ b.dropReports = [] := by
  have hmoves {new : List LifecycleCall} {started : Bool} {b b' : Bridge ν}
      (hmarks : Marks calls new started b b') (hb : b.dropReports = [])
      (hnew : Alternates started (calls b.native ++ new)) : b'.gate.waiting = [] ∧
        Alternates b'.gate.started (calls b'.native) ∧ b'.dropReports = [] := by
    rw [hmarks.started, hmarks.calls, hmarks.reports]
    exact ⟨hmarks.waiting, hnew, hb⟩
  -- Along the life of the session the flag says what the last call that had an effect was. A stop
  -- that waits would clear it at some time later, so that none waits is part of what is kept.
  induction h with
  | new hstarted hwaiting hcalls hreports =>
    rw [hstarted, hcalls]
    exact ⟨hwaiting, .nil, hreports⟩
  | start timeout _ hends ih =>
    obtain ⟨_, hends⟩ := hends.endsIn
    obtain ⟨hwaiting, hb, hreports⟩ := ih
    rcases marks_start hc hwaiting hends with ⟨accepted, hmarks⟩ | hmarks
    · exact hmoves hmarks hreports (hb.start accepted)
    · refine hmoves hmarks hreports ?_
      rwa [List.append_nil]
  | stop warn _ hends ih =>
    obtain ⟨_, hends⟩ := hends.endsIn
    obtain ⟨hwaiting, hb, hreports⟩ := ih
    exact hmoves (marks_stop hc hwaiting hends) hreports hb.ended
  | operation _ hoperation hends ih =>
    obtain ⟨hwaiting, hb, hreports⟩ := ih
    have hleaves := (leavesPeriod_operation hc hoperation).within.ends hends hwaiting
    refine hmoves hleaves hreports ?_
    rwa [List.append_nil]
  | aside _ hleaves ih =>
    obtain ⟨hwaiting, hb, hreports⟩ := ih
    refine hmoves (hleaves hwaiting) hreports ?_
    rwa [List.append_nil]

/-- A stop calls the client exactly if the session is started, and so never twice without an
accepted start between the two. After a stop the session is not started, also where the warning of
it is raised as an error. After the session was dropped, the last call that had an effect on the
client after an accepted start is a stop, and the warning is reported once if it is raised as an
error and the session was still started, and else not at all. -/
theorem periods_stopped_once (h : s.Lifetime calls b) :
    Alternates b.gate.started (calls b.native) ∧
    (∀ before between, before ++ .stop :: between ++ [.stop] <+: calls b.native →
      .start true ∈ between) ∧
    (∀ warn r b', (s.stop warn).run.EndsIn r b b' →
      calls b'.native = calls b.native ++ (if b.gate.started then [.stop] else []) ∧
      b'.gate.started = false ∧
      ∀ result, r = .ok result → result =
        if b.gate.started && warn && b'.diagnostics.escalate then
          .error (.warning s.unstoppedWarning)
        else .ok ()) ∧
    ∀ r b', s.drop.EndsIn r b b' →
      calls b'.native = calls b.native ++ (if b.gate.started then [.stop] else []) ∧
      Alternates false (calls b'.native) ∧ b'.gate.started = false ∧
      (∀ before between, before ++ .stop :: between ++ [.stop] <+: calls b'.native →
        .start true ∈ between) ∧
      (∀ before after, calls b'.native = before ++ .start true :: after →
        last? after = some .stop) ∧
      (r = .ok () → b'.dropReports =
        if b.gate.started && b'.diagnostics.escalate then
          [⟨"session drop", s.unstoppedWarning⟩]
        else []) := by
  obtain ⟨hwaiting, halternates, hreports⟩ := h.alternates hc
  refine ⟨halternates, fun _ _ => halternates.between, ?_, ?_⟩
  · intro warn r b' hstop
    have hmarks := marks_stop hc hwaiting hstop
    refine ⟨hmarks.calls, hmarks.started, ?_⟩
    rintro result rfl
    obtain ⟨answer, _, _, _, _, _, hresult⟩ := endsIn_of_stop hstop
    cases answer with
    | ok => exact Except.ok.inj hresult
    | error => cases hresult
  · intro r b' hdrop
    obtain ⟨hcalls, hstarted, hreported⟩ := marks_drop hc hwaiting hdrop
    have hended : Alternates false (calls b'.native) := by
      rw [hcalls]
      exact halternates.ended
    rw [hreports] at hreported
    exact ⟨hcalls, hended, hstarted, fun _ _ => hended.between, fun _ _ => hended.stopped_after,
      hreported⟩

end Session

/-! ## Clients that note nothing -/

structure Recorded (ν : Type) where
  far : ν
  log : List LifecycleCall

def Act.onFar (a : Act ν α) : Act (Recorded ν) α := fun b =>
  match a { b with native := b.native.far } with
  | .ok x b' => .ok x { b' with native := ⟨b'.native, b.native.log⟩ }
  | .error i b' => .error i { b' with native := ⟨b'.native, b.native.log⟩ }

def Act.note (call : LifecycleCall) : Act (Recorded ν) Unit :=
  modifyNative fun n => { n with log := n.log ++ [call] }

def NativeClient.recording (c : NativeClient ν) : NativeClient (Recorded ν) where
  start timeout := do
    let code ← Act.onFar (c.start timeout)
    Act.note (.start (code = Code.success))
    return code
  stop := do
    Act.note .stop
    Act.onFar c.stop
  openQueue uri flags options timeout := Act.onFar (c.openQueue uri flags options timeout)
  configureQueue q options timeout := Act.onFar (c.configureQueue q options timeout)
  closeQueue q timeout := Act.onFar (c.closeQueue q timeout)
  queue? uri := Act.onFar (c.queue? uri)
  post e := Act.onFar (c.post e)
  confirm q guid := Act.onFar (c.confirm q guid)
  builder := c.builder
  queues n := c.queues n.far

def NativeClient.KeepsOut (c : NativeClient ν) : Prop :=
  c.Calls (fun a _ => Follows (fun _ => LeavesPeriod fun _ => []) a) c

private theorem Act.endsIn_of_onFar {a : Act ν α} {r : Except Panic α} {b b' : Bridge (Recorded ν)}
    (h : (Act.onFar a).EndsIn r b b') :
    a.EndsIn r { b with native := b.native.far } { b' with native := b'.native.far } ∧
      b'.native.log = b.native.log := by
  have happly : Act.onFar a b = match a { b with native := b.native.far } with
      | .ok x b' => .ok x { b' with native := ⟨b'.native, b.native.log⟩ }
      | .error i b' => .error i { b' with native := ⟨b'.native, b.native.log⟩ } := rfl
  cases r with
  | ok x =>
    have hrun : Act.onFar a b = .ok x b' := h
    rw [happly] at hrun
    split at hrun
    · next hfar =>
      cases hrun
      exact ⟨hfar, rfl⟩
    · cases hrun
  | error cause =>
    have hrun : Act.onFar a b = .error (.panic cause) b' := h
    rw [happly] at hrun
    split at hrun
    · cases hrun
    · next hfar =>
      cases hrun
      exact ⟨hfar, rfl⟩

private theorem Act.marks_onFar {a : Act ν α} (ha : Follows (fun _ => LeavesPeriod fun _ => []) a)
    {r : Except Panic α} {b b' : Bridge (Recorded ν)} (hwaiting : b.gate.waiting = [])
    (h : (Act.onFar a).EndsIn r b b') : Marks Recorded.log [] b.gate.started b b' := by
  obtain ⟨hfar, hlog⟩ := Act.endsIn_of_onFar h
  have hmarks := ha.within.ends hfar.ends hwaiting
  refine ⟨hmarks.waiting, ?_, hmarks.started, hmarks.reports⟩
  rw [hlog, List.append_nil]

private theorem Act.leavesPeriod_onFar {a : Act ν α}
    (ha : Follows (fun _ => LeavesPeriod fun _ => []) a) :
    Follows (fun _ => LeavesPeriod Recorded.log) (Act.onFar a) where
  ok {_ x _} h hwaiting := Act.marks_onFar ha (r := .ok x) hwaiting h
  panic {_ cause _} h hwaiting := Act.marks_onFar ha (r := .error cause) hwaiting h

private theorem NativeClient.KeepsOut.notesCalls {c : NativeClient ν} (hc : c.KeepsOut) :
    c.recording.NotesCalls Recorded.log where
  start timeout r b b' hwaiting h := by
    rcases endsIn_of_bind h with ⟨code, b₁, hstart, h⟩ | ⟨cause, rfl, hstart⟩
    · have hmarks := Act.marks_onFar (hc.start timeout) (r := .ok code) hwaiting hstart
      obtain ⟨_, b₂, hnote, h⟩ := endsIn_of_bind_quiet (neverPanics_modify _) h
      cases hnote
      obtain ⟨rfl, rfl⟩ := endsIn_pure h
      exact ⟨hmarks.waiting, congrArg (· ++ _) (hmarks.calls.trans (List.append_nil _)),
        hmarks.started, hmarks.reports⟩
    · exact Act.marks_onFar (hc.start timeout) (r := .error cause) hwaiting hstart
  stop r b b' hwaiting h := by
    obtain ⟨_, b₁, hnote, h⟩ := endsIn_of_bind_quiet (neverPanics_modify _) h
    cases hnote
    have hnoted : ({ b with native := ⟨b.native.far, b.native.log ++ [.stop]⟩ } :
        Bridge (Recorded ν)).gate.waiting = [] := hwaiting
    have hmarks := Act.marks_onFar hc.stop hnoted h
    exact ⟨hmarks.waiting, hmarks.calls.trans (List.append_nil _), hmarks.started,
      hmarks.reports⟩
  queues :=
    { openQueue := fun _ _ _ _ => Act.leavesPeriod_onFar (hc.openQueue ..)
      configureQueue := fun _ _ _ => Act.leavesPeriod_onFar (hc.configureQueue ..)
      closeQueue := fun _ _ => Act.leavesPeriod_onFar (hc.closeQueue ..)
      queue? := fun _ => Act.leavesPeriod_onFar (hc.queue? _)
      post := fun _ => Act.leavesPeriod_onFar (hc.post _)
      confirm := fun _ _ => Act.leavesPeriod_onFar (hc.confirm ..)
      builder := rfl
      queues := rfl }

/-! ## Two periods -/

def obeying : NativeClient Int where
  start _ := onNative fun code => (code, code)
  stop := onNative fun code => ((), code)
  openQueue _ _ _ _ := onNative fun code => (⟨none, code, ""⟩, code)
  configureQueue q _ _ := onNative fun code => (⟨some q, code, ""⟩, code)
  closeQueue q _ := onNative fun code => (⟨some q, code, ""⟩, code)
  queue? _ := onNative fun code => (none, code)
  post e := onNative fun code => (.error ⟨code, e⟩, code)
  confirm _ _ := onNative fun code => (code, code)
  queues _ := .empty

private theorem obeying_keepsOut : obeying.KeepsOut := by
  have hanswer {α : Type} (f : Int → α) : Follows (fun _ => LeavesPeriod fun _ => [])
      (onNative fun code => (f code, code) : Act Int α) :=
    follows_onNative fun b => composes_leavesPeriod.alike ⟨rfl, rfl, rfl, rfl, rfl, rfl⟩
  exact {
    start := fun _ => hanswer _
    stop := hanswer _
    openQueue := fun _ _ _ _ => hanswer _
    configureQueue := fun _ _ _ => hanswer _
    closeQueue := fun _ _ => hanswer _
    queue? := fun _ => hanswer _
    post := fun _ => hanswer _
    confirm := fun _ _ => hanswer _
    builder := rfl
    queues := rfl }

def recordedSession : Session (Recorded Int) where
  client := obeying.recording
  options := .ofSettings "program" {}
  compression := .none
  label := "session"

/-- Warnings are raised as errors, and starts are accepted as long as the number is zero. -/
def recorded (started : Bool) (code : Int) (log : List LifecycleCall) : Bridge (Recorded Int) where
  gate := { started }
  diagnostics := { escalate := true }
  native := ⟨code, log⟩

private theorem recorded_start : recordedSession.Lifetime Recorded.log
    (recorded true 0 [.start true]) :=
  .start none (.new (b := recorded false 0 []) rfl rfl rfl rfl) (.inl ⟨_, rfl⟩)

def warned (started : Bool) (log : List LifecycleCall) : Bridge (Recorded Int) :=
  { recorded started 0 log with
    diagnostics := { escalate := true, warnings := [recordedSession.unstoppedWarning] } }

/-- The session is stopped with a warning, started once more, and dropped. -/
theorem periods_stopped_once_escalated : ∃ b b', recordedSession.Lifetime Recorded.log b ∧
    recordedSession.drop b = .ok () b' ∧
    b'.native.log = [.start true, .stop, .start true, .stop] ∧ b'.gate.started = false ∧
    b'.dropReports = [⟨"session drop", recordedSession.unstoppedWarning⟩] := by
  have hwarned : recordedSession.Lifetime Recorded.log (warned false [.start true, .stop]) :=
    recorded_start.stop true (.inl ⟨.error (.warning recordedSession.unstoppedWarning), rfl⟩)
  have hrestarted : recordedSession.Lifetime Recorded.log
      (warned true [.start true, .stop, .start true]) :=
    hwarned.start none (.inl ⟨.ok (), rfl⟩)
  obtain ⟨b', hdrop, hescalate⟩ : ∃ b', recordedSession.drop
      (warned true [.start true, .stop, .start true]) = .ok () b' ∧
        b'.diagnostics.escalate = true := ⟨_, rfl, rfl⟩
  obtain ⟨_, _, _, hdropped⟩ :=
    Session.periods_stopped_once obeying_keepsOut.notesCalls hrestarted
  obtain ⟨hlog, _, hstarted, _, _, hreports⟩ := hdropped (.ok ()) b' hdrop
  refine ⟨_, b', hrestarted, hdrop, hlog, hstarted, (hreports rfl).trans (if_pos ?_)⟩
  rw [hescalate]
  rfl

/-- A start that is refused after a stop is the last call of the client, also when the session is
dropped. -/
theorem refused_start_comes_last : ∃ b b', recordedSession.Lifetime Recorded.log b ∧
    recordedSession.drop b = .ok () b' ∧ b'.native.log = [.start true, .stop, .start false] ∧
    ¬ ∀ before after, b'.native.log = before ++ .start true :: after →
      after.getLast? = some .stop := by
  have hstopped : recordedSession.Lifetime Recorded.log
      (recorded false 0 [.start true, .stop]) :=
    recorded_start.stop false (.inl ⟨_, rfl⟩)
  have hrefusing : recordedSession.Lifetime Recorded.log
      (recorded false (-2) [.start true, .stop]) :=
    hstopped.aside fun hwaiting => ⟨hwaiting, rfl, rfl, rfl⟩
  have hlifetime : recordedSession.Lifetime Recorded.log
      (recorded false (-2) [.start true, .stop, .start false]) :=
    .start none hrefusing (.inl ⟨_, rfl⟩)
  refine ⟨_, _, hlifetime, rfl, rfl, fun hlast => ?_⟩
  exact absurd (hlast [] [.stop, .start false] rfl) (by decide)

end BrokerBridge
