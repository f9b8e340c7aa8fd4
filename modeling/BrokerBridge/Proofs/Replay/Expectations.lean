import Mathlib.Data.List.Forall2
import BrokerBridge.Proofs.Replay.PostedToken
import BrokerBridge.Proofs.Replay.Programs

/-!
# Expectations over a whole run

Each call that arrives uses up an expectation. A call that does not agree with it panics, and the
panic of a callback ends as the report of a failure. So a program that comes to its end with no
expectation left has made the calls that were expected, or a mismatch was reported on the way.
-/

namespace BrokerBridge

def Mismatch.call? : Mismatch → Option NativeCall
  | unexpected _ call | exhausted call => some call
  | unmet _ => none

/-- What a mismatch has led to: the panic that ends the computation, the report of a callback that
failed, or the outcome of a stop on a thread of its own. -/
inductive Mismatch.Noticed (m : Mismatch) (ending : Option Panic)
    (reports : List UnhandledFailure) (stops : List StopOutcome) : Prop where
  | raised : ending = some (.expectation m) → Noticed m ending reports stops
  | reported (r : UnhandledFailure) : r ∈ reports → r.error = "callback panicked: " ++ m.message →
      Noticed m ending reports stops
  | stopped (o : StopOutcome) : o ∈ stops → o.result = .error (.expectation m) →
      Noticed m ending reports stops

theorem Mismatch.Noticed.mono {m : Mismatch} {e e' : Option Panic}
    {reports reports' : List UnhandledFailure} {stops stops' : List StopOutcome}
    (h : m.Noticed e reports stops) (he : ∀ cause, e = some cause → e' = some cause)
    (hreports : reports ⊆ reports') (hstops : stops ⊆ stops') : m.Noticed e' reports' stops' := by
  cases h with
  | raised h => exact .raised (he _ h)
  | reported r hr htext => exact .reported r (hreports hr) htext
  | stopped o ho hresult => exact .stopped o (hstops ho) hresult

namespace ExpectationQueue

def Meets (q q' : ExpectationQueue) (calls : List NativeCall) : Prop :=
  ∃ expected, q.pending = expected ++ q'.pending ∧
    List.Forall₂ (fun e c => e.agrees c = true) expected calls ∧ q'.history = q.history ++ calls

theorem meets_nil (q : ExpectationQueue) : q.Meets q [] :=
  ⟨[], rfl, .nil, (List.append_nil _).symm⟩

private theorem Meets.append {q₁ q₂ q₃ : ExpectationQueue} {calls more : List NativeCall}
    (h₁ : q₁.Meets q₂ calls) (h₂ : q₂.Meets q₃ more) : q₁.Meets q₃ (calls ++ more) := by
  obtain ⟨expected, hpending, hagree, hhistory⟩ := h₁
  obtain ⟨expected', hpending', hagree', hhistory'⟩ := h₂
  refine ⟨expected ++ expected', ?_, List.rel_append hagree hagree', ?_⟩
  · rw [hpending, hpending', List.append_assoc]
  · rw [hhistory', hhistory, List.append_assoc]

/-- A strict queue is met by a call, or there is a mismatch about that call. -/
theorem observe_strict {q : ExpectationQueue} (hq : q.mode = .strict) (call : NativeCall) :
    (q.observe call).2.mode = .strict ∧
      match (q.observe call).1 with
      | .ok () => q.Meets (q.observe call).2 [call]
      | .error m => m.call? = some call := by
  have hannounce : q.announce call = q := by
    unfold announce
    rw [hq]
  unfold observe
  rw [hannounce, take]
  cases hpending : q.pending with
  | nil => exact ⟨hq, rfl⟩
  | cons expected rest =>
    simp only [List.head?_cons, List.tail_cons]
    by_cases hagrees : expected.agrees call = true
    · rw [if_pos hagrees]
      exact ⟨hq, [expected], hpending, .cons hagrees .nil, rfl⟩
    · rw [if_neg hagrees]
      exact ⟨hq, rfl⟩

end ExpectationQueue

structure Account (ending : Option Panic) (b b' : Bridge Stage) (calls : List NativeCall)
    (reports : List UnhandledFailure) (stops : List StopOutcome) : Prop where
  mode : b'.native.expectations.mode = .strict
  arrived : b'.native.arrived = b.native.arrived ++ calls
  unhandled : b'.diagnostics.unhandled = b.diagnostics.unhandled ++ reports
  ended : b'.stops = b.stops ++ stops
  outcome : b.native.expectations.Meets b'.native.expectations calls ∨
    ∃ (m : Mismatch) (call : NativeCall), m.call? = some call ∧ call ∈ calls ∧
      m.Noticed ending reports stops

/-- The calls of a strict run meet the expectations, or a mismatch is noticed. -/
def Accounted : Course Stage := fun ending b b' =>
  b.native.expectations.mode = .strict →
    ∃ calls reports stops, Account ending b b' calls reports stops

private theorem Account.append {e e₁ e₂ : Option Panic} {b₁ b₂ b₃ : Bridge Stage}
    {calls calls' : List NativeCall} {reports reports' : List UnhandledFailure}
    {stops stops' : List StopOutcome} (h₁ : Account e₁ b₁ b₂ calls reports stops)
    (h₂ : Account e₂ b₂ b₃ calls' reports' stops') (he₁ : ∀ cause, e₁ = some cause → e = some cause)
    (he₂ : ∀ cause, e₂ = some cause → e = some cause) :
    Account e b₁ b₃ (calls ++ calls') (reports ++ reports') (stops ++ stops') where
  mode := h₂.mode
  arrived := by rw [h₂.arrived, h₁.arrived, List.append_assoc]
  unhandled := by rw [h₂.unhandled, h₁.unhandled, List.append_assoc]
  ended := by rw [h₂.ended, h₁.ended, List.append_assoc]
  outcome := by
    rcases h₁.outcome with hmeets | ⟨m, call, hm, hcall, hnoticed⟩
    · rcases h₂.outcome with hmeets' | ⟨m, call, hm, hcall, hnoticed⟩
      · exact .inl (hmeets.append hmeets')
      · refine .inr ⟨m, call, hm, List.mem_append_right _ hcall, hnoticed.mono he₂ ?_ ?_⟩
        · exact List.subset_append_right _ _
        · exact List.subset_append_right _ _
    · refine .inr ⟨m, call, hm, List.mem_append_left _ hcall, hnoticed.mono he₁ ?_ ?_⟩
      · exact List.subset_append_left _ _
      · exact List.subset_append_left _ _

namespace Accounted

private theorem of_report {e : Option Panic} {b b' : Bridge Stage} {reports : List UnhandledFailure}
    {stops : List StopOutcome} (hexpect : b'.native.expectations = b.native.expectations)
    (harrived : b'.native.arrived = b.native.arrived)
    (hunhandled : b'.diagnostics.unhandled = b.diagnostics.unhandled ++ reports)
    (hstops : b'.stops = b.stops ++ stops) : Accounted e b b' := by
  intro hstrict
  refine ⟨[], reports, stops, ?_, ?_, hunhandled, hstops, ?_⟩
  · rw [hexpect, hstrict]
  · rw [harrived, List.append_nil]
  · left
    rw [hexpect]
    exact b.native.expectations.meets_nil

private theorem of_same {e : Option Panic} {b b' : Bridge Stage}
    (hexpect : b'.native.expectations = b.native.expectations)
    (harrived : b'.native.arrived = b.native.arrived)
    (hunhandled : b'.diagnostics.unhandled = b.diagnostics.unhandled)
    (hstops : b'.stops = b.stops) : Accounted e b b' := by
  have hnoreport : b'.diagnostics.unhandled = b.diagnostics.unhandled ++ [] := by
    rw [hunhandled, List.append_nil]
  have hnostop : b'.stops = b.stops ++ [] := by rw [hstops, List.append_nil]
  exact of_report hexpect harrived hnoreport hnostop

private theorem composes : Course.Composes Accounted where
  alike h := by
    apply of_same _ _ h.unhandled h.stops
    · rw [h.native]
    · rw [h.native]
  raise _ _ := of_same rfl rfl rfl rfl
  before h₁ h₂ hstrict := by
    obtain ⟨_, _, _, h₁⟩ := h₁ hstrict
    obtain ⟨_, _, _, h₂⟩ := h₂ h₁.mode
    exact ⟨_, _, _, h₁.append h₂ (fun _ h => nomatch h) fun _ h => h⟩
  after h₁ h₂ hstrict := by
    obtain ⟨_, _, _, h₁⟩ := h₁ hstrict
    obtain ⟨_, _, _, h₂⟩ := h₂ h₁.mode
    exact ⟨_, _, _, h₁.append h₂ (fun _ h => h) fun _ h => nomatch h⟩

private theorem notes : Course.Notes Accounted where
  deliver _ _ := of_same rfl rfl rfl rfl
  report b context error := by
    have hunhandled : (Course.reported b context error).diagnostics.unhandled =
        b.diagnostics.unhandled ++ [⟨context, error⟩] := rfl
    exact of_report rfl rfl hunhandled (List.append_nil _).symm
  caught {b b' cause} context h hstrict := by
    obtain ⟨calls, reports, stops, h⟩ := h hstrict
    let report : UnhandledFailure :=
      ⟨context, "callback panicked: " ++ cause.text.getD HostOutcome.opaquePanic⟩
    refine ⟨calls, reports ++ [report], stops, h.mode, h.arrived, ?_, h.ended, ?_⟩
    · show b'.diagnostics.unhandled ++ [report] = _
      rw [h.unhandled, List.append_assoc]
    · rcases h.outcome with hmeets | ⟨m, call, hm, hcall, hnoticed⟩
      · exact .inl hmeets
      refine .inr ⟨m, call, hm, hcall, ?_⟩
      cases hnoticed with
      | raised hcause =>
        -- a panic that a callback ends with gives its text to the report
        cases hcause
        exact .reported report (List.mem_append_right _ (List.mem_singleton_self _)) rfl
      | reported r hr htext => exact .reported r (List.mem_append_left _ hr) htext
      | stopped o ho hresult => exact .stopped o ho hresult

private theorem admits : Course.Admits Accounted where
  gate _ _ := of_same rfl rfl rfl rfl
  stopped {b b' result} thread h hstrict := by
    obtain ⟨calls, reports, stops, h⟩ := h hstrict
    refine ⟨calls, reports, stops ++ [⟨thread, result⟩], h.mode, h.arrived, h.unhandled, ?_, ?_⟩
    · show b'.stops ++ [_] = _
      rw [h.ended, List.append_assoc]
    · rcases h.outcome with hmeets | ⟨m, call, hm, hcall, hnoticed⟩
      · exact .inl hmeets
      refine .inr ⟨m, call, hm, hcall, ?_⟩
      cases hnoticed with
      | raised hcause =>
        cases result with
        | ok => cases hcause
        | error cause =>
          cases hcause
          exact .stopped _ (List.mem_append_right _ (List.mem_singleton_self _)) rfl
      | reported r hr htext => exact .reported r hr htext
      | stopped o ho hresult => exact .stopped o (List.mem_append_left _ ho) hresult

private theorem observe (call : NativeCall) : Act.Follows Accounted (Stage.observe call) := by
  apply Stage.follows_observe
  intro b ending hending hstrict
  obtain ⟨hmode, hanswer⟩ := ExpectationQueue.observe_strict hstrict call
  refine ⟨[call], [], [], hmode, rfl, (List.append_nil _).symm, (List.append_nil _).symm, ?_⟩
  cases hr : (b.native.expectations.observe call).1 with
  | ok =>
    rw [hr] at hanswer
    exact .inl hanswer
  | error m =>
    rw [hr] at hanswer
    exact .inr ⟨m, call, hanswer, List.mem_singleton_self _, .raised (hending m hr)⟩

private theorem carriesLifecycle : Stage.CarriesLifecycle Accounted where
  admits := admits
  started _ _ := of_same rfl rfl rfl rfl

private theorem parts : Stage.Parts Accounted where
  composes := composes
  notes := notes
  aside h := of_same h.expectations h.arrived rfl rfl
  update _ := of_same rfl rfl rfl rfl
  observe := observe

end Accounted

namespace Session

open Act

/-- A strict program that comes to its end with no expectation left has made the expected calls,
in callbacks as elsewhere, and no others; or a mismatch about one of its calls is among the
reports and among the outcomes of stops that waited. -/
theorem strict_calls_expected {α : Type} {s : Session Stage} {host : HostCode Stage}
    (hs : s.client = Stage.client host) (hhost : host.Layered true) {program : Act Stage α}
    (hprogram : s.Program host true program) {b b' : Bridge Stage} {x : α}
    (hstrict : b.native.expectations.mode = .strict) (h : program b = .ok x b')
    (hsatisfied : b'.native.expectations.satisfied = .ok ()) :
    ∃ calls reports stops, b'.native.arrived = b.native.arrived ++ calls ∧
      b'.diagnostics.unhandled = b.diagnostics.unhandled ++ reports ∧
      b'.stops = b.stops ++ stops ∧
      ((List.Forall₂ (fun e c => e.agrees c = true) b.native.expectations.pending calls ∧
          b'.native.expectations.history = b.native.expectations.history ++ calls) ∨
        ∃ (m : Mismatch) (call : NativeCall), m.call? = some call ∧ call ∈ calls ∧
          m.Noticed none reports stops) := by
  have hlife : true = true → Stage.CarriesLifecycle Accounted := fun _ => Accounted.carriesLifecycle
  have hcarries := Accounted.parts.carries Accounted.carriesLifecycle
  have hfollows := hprogram.follows_layered hcarries hlife hs hhost
  obtain ⟨calls, reports, stops, haccount⟩ := hfollows.ok h hstrict
  refine ⟨calls, reports, stops, haccount.arrived, haccount.unhandled, haccount.ended, ?_⟩
  rcases haccount.outcome with ⟨expected, hpending, hagree, hhistory⟩ | hnoticed
  · -- none is left, so those that were met are all that were declared
    have hnone : b'.native.expectations.pending = [] := by
      unfold ExpectationQueue.satisfied at hsatisfied
      split at hsatisfied
      · next hempty => exact List.isEmpty_iff.mp hempty
      · cases hsatisfied
    rw [hnone, List.append_nil] at hpending
    rw [hpending]
    exact .inl ⟨hagree, hhistory⟩
  · exact .inr hnoticed

def openBriefly (s : Session Stage) : Act Stage Unit := do
  let _ ← (s.start none).run
  let _ ← (s.openQueue "bmq://d/q" true false {} none).run
  let _ ← (s.stop false).run
  return

def confirming (s : Session Stage) (guid : Guid) : HostCode Stage
  | .messages _ => do
      let _ ← (s.confirm "bmq://d/q" guid.bytes).run
      return .ok
  | _ => return .ok

def calling (guid : Guid) : HostCode Stage := confirming (plainSession (.ending fun _ => .ok)) guid

private theorem openBriefly_program (s : Session Stage) (host : HostCode Stage) :
    s.Program host true s.openBriefly := by
  apply Program.andThen (.start none rfl)
  intro _
  apply Program.andThen (.operation (.openQueue ..))
  intro _
  exact .andThen (.stop false rfl) fun _ => .done ()

private theorem calling_layered (guid : Guid) : (calling guid).Layered true := by
  refine .above (HostCode.layered_ending fun _ => .ok) (s := plainSession _) rfl ?_
  intro d
  cases d with
  | messages batch => exact .andThen (.operation (.confirm ..)) fun _ => .done HostOutcome.ok
  | notification | acks => exact .done HostOutcome.ok

/-- One message is delivered to a queue that is opened, and confirming it is expected. -/
def expectingConfirm (guid : Guid) : Bridge Stage where
  native :=
    { expectations :=
        { mode := .strict
          pending := [.start (.ofSeconds 60),
            .openQueue "bmq://d/q" (.ofAccess true false) {} (.ofSeconds 300),
            .confirm "bmq://d/q" guid, .stop] }
      script := { push := [[{ payload := ⟨#[1]⟩, guid, queueUri := "bmq://d/q" }]] } }

theorem strict_calls_expected_nested : ∃ b' calls,
    (plainSession (calling .zero)).openBriefly (expectingConfirm .zero) = .ok () b' ∧
    b'.native.expectations.satisfied = .ok () ∧ b'.native.arrived = calls ∧
    List.Forall₂ (fun e c => e.agrees c = true)
      (expectingConfirm .zero).native.expectations.pending calls := by
  have hrun : (match (plainSession (calling .zero)).openBriefly (expectingConfirm .zero) with
      | .ok () b' => b'.native.expectations.pending.isEmpty && b'.diagnostics.unhandled.isEmpty &&
          b'.stops.isEmpty
      | _ => false) = true := by decide +kernel
  split at hrun
  · next b' h =>
    simp only [Bool.and_eq_true, List.isEmpty_iff] at hrun
    obtain ⟨⟨hpending, hunhandled⟩, hstops⟩ := hrun
    have hsatisfied : b'.native.expectations.satisfied = .ok () := by
      rw [ExpectationQueue.satisfied, hpending]
      rfl
    obtain ⟨calls, reports, stops, harrived, hreports, hended, hcalls⟩ :=
      strict_calls_expected rfl (calling_layered .zero) (openBriefly_program ..) rfl h hsatisfied
    rw [hunhandled] at hreports
    rw [hstops] at hended
    obtain ⟨_, rfl⟩ := List.append_eq_nil_iff.mp hreports.symm
    obtain ⟨_, rfl⟩ := List.append_eq_nil_iff.mp hended.symm
    refine ⟨b', calls, h, hsatisfied, harrived, ?_⟩
    rcases hcalls with ⟨hagree, _⟩ | ⟨m, call, _, _, hnoticed⟩
    · exact hagree
    · cases hnoticed with
      | raised hnone => cases hnone
      | reported r hr => cases hr
      | stopped o ho => cases ho
  · cases hrun

/-- A callback that makes another call than the expected one does not keep the program from its
end: the expectation is used up, the panic ends in a report, and nothing is left to be met. -/
theorem nested_mismatch_returns : ∃ guid b',
    (calling guid).Layered true ∧
    (plainSession (calling guid)).Program (calling guid) true
      (plainSession (calling guid)).openBriefly ∧
    (plainSession (calling guid)).openBriefly (expectingConfirm .zero) = .ok () b' ∧
    b'.native.expectations.satisfied = .ok () ∧
    ¬ List.Forall₂ (fun e c => e.agrees c = true)
      (expectingConfirm .zero).native.expectations.pending b'.native.arrived ∧
    b'.diagnostics.unhandled =
      [⟨"message callback", "callback panicked: unexpected confirmMessage call"⟩] := by
  let guid : Guid := ⟨⟨Array.replicate 16 1⟩, rfl⟩
  have hrun : (match (plainSession (calling guid)).openBriefly (expectingConfirm .zero) with
      | .ok () b' => b'.native.expectations.pending.isEmpty &&
          !((expectingConfirm .zero).native.expectations.pending.zip b'.native.arrived).all
            (fun e => e.1.agrees e.2) &&
          b'.diagnostics.unhandled ==
            [⟨"message callback", "callback panicked: unexpected confirmMessage call"⟩]
      | _ => false) = true := by decide +kernel
  split at hrun
  · next b' h =>
    simp only [Bool.and_eq_true, List.isEmpty_iff, beq_iff_eq, Bool.not_eq_true'] at hrun
    obtain ⟨⟨hpending, hdiffer⟩, hunhandled⟩ := hrun
    refine ⟨guid, b', calling_layered guid, openBriefly_program .., h, ?_, ?_, hunhandled⟩
    · rw [ExpectationQueue.satisfied, hpending]
      rfl
    · intro hagree
      have hall := List.all_eq_true.mpr fun e he => (List.forall₂_iff_zip.mp hagree).2 he
      rw [hall] at hdiffer
      cases hdiffer
  · cases hrun

end Session

end BrokerBridge
