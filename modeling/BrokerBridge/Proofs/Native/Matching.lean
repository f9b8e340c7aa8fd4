import Mathlib.Data.List.Forall2
import Mathlib.Data.List.Perm.Subperm
import BrokerBridge.Native.Expectation
import BrokerBridge.Proofs.Property.Inferred

/-!
# Expectations met in turn

A strict queue compares the calls that find it waiting with the calls that were declared, the first
with the first and so on, and uses up one expectation for each, whether they agree or not. The calls
that agree make its history. A call that finds nothing waiting fails and changes nothing.
-/

namespace BrokerBridge

namespace OrderedMap

variable {κ α : Type} [DecidableEq κ] {m n : OrderedMap κ α}

theorem get?_eq_some_iff {k : κ} {v : α} : m.get? k = some v ↔ (k, v) ∈ m.entries :=
  ⟨mem_of_lookup, get?_of_mem⟩

private theorem nodup_entries (m : OrderedMap κ α) : m.entries.Nodup := m.nodup_keys.of_map

/-- Maps of one size are the same, up to the order of their keys, if one has what the other has. -/
theorem get?_eq_of_subset (hsize : m.size = n.size) (h : m.entries ⊆ n.entries) (k : κ) :
    m.get? k = n.get? k := by
  have hperm : m.entries.Perm n.entries :=
    (List.subperm_of_subset m.nodup_entries h).perm_of_length_le (Nat.le_of_eq hsize.symm)
  refine Option.ext fun v => ?_
  rw [get?_eq_some_iff, get?_eq_some_iff, hperm.mem_iff]

private theorem perm_entries_of_get?_eq (h : ∀ k, m.get? k = n.get? k) :
    m.entries.Perm n.entries := by
  refine (List.perm_ext_iff_of_nodup m.nodup_entries n.nodup_entries).mpr fun ⟨k, v⟩ => ?_
  rw [← get?_eq_some_iff, ← get?_eq_some_iff, h k]

end OrderedMap

namespace NativeCall

/-- One call with the same arguments. Property sets are the same if each key has the same value and
tag in both. -/
inductive Same : NativeCall → NativeCall → Prop
  | start (timeout) : Same (.start timeout) (.start timeout)
  | stop : Same .stop .stop
  | openQueue (uri flags options timeout) :
      Same (.openQueue uri flags options timeout) (.openQueue uri flags options timeout)
  | configureQueue (uri options timeout) :
      Same (.configureQueue uri options timeout) (.configureQueue uri options timeout)
  | closeQueue (uri timeout) : Same (.closeQueue uri timeout) (.closeQueue uri timeout)
  | closeOnGet (uri) : Same (.closeOnGet uri) (.closeOnGet uri)
  | post (uri payload compression) {s t : PropertySet}
      (hproperties : ∀ key, s.get? key = t.get? key) :
      Same (.post uri payload s compression) (.post uri payload t compression)
  | confirm (uri guid) : Same (.confirm uri guid) (.confirm uri guid)

theorem sameProperties_iff {s t : PropertySet} :
    sameProperties s t = true ↔ ∀ key, s.get? key = t.get? key := by
  rw [sameProperties, Bool.and_eq_true, beq_iff_eq, List.all_eq_true]
  constructor
  · rintro ⟨hsize, hall⟩
    exact OrderedMap.get?_eq_of_subset hsize fun e he =>
      OrderedMap.get?_eq_some_iff.mp (beq_iff_eq.mp (hall e he))
  · intro h
    refine ⟨(OrderedMap.perm_entries_of_get?_eq h).length_eq, fun e he => beq_iff_eq.mpr ?_⟩
    rw [← h, OrderedMap.get?_of_mem he]

theorem agrees_iff {expected call : NativeCall} :
    expected.agrees call = true ↔ expected.Same call := by
  constructor
  · intro h
    cases expected <;> cases call <;> simp [agrees, sameProperties_iff] at h
    case start.start => exact h ▸ .start _
    case stop.stop => exact .stop
    case openQueue.openQueue =>
      obtain ⟨⟨⟨rfl, rfl⟩, rfl⟩, rfl⟩ := h
      exact .openQueue ..
    case configureQueue.configureQueue =>
      obtain ⟨⟨rfl, rfl⟩, rfl⟩ := h
      exact .configureQueue ..
    case closeQueue.closeQueue =>
      obtain ⟨rfl, rfl⟩ := h
      exact .closeQueue ..
    case closeOnGet.closeOnGet => exact h ▸ .closeOnGet _
    case post.post =>
      obtain ⟨⟨⟨rfl, rfl⟩, hproperties⟩, rfl⟩ := h
      exact .post _ _ _ hproperties
    case confirm.confirm =>
      obtain ⟨rfl, rfl⟩ := h
      exact .confirm ..
  · intro h
    cases h <;> simp [agrees, sameProperties_iff, *]

end NativeCall

inductive ExpectationUse where
  | expect (call : NativeCall)
  | observe (call : NativeCall)

def ExpectationUse.declared? : ExpectationUse → Option NativeCall
  | expect call => some call
  | observe _ => none

def ExpectationUse.arriving? : ExpectationUse → Option NativeCall
  | expect _ => none
  | observe call => some call

/-- A call that was checked: how many calls were expected then, and what came of it. -/
structure Observation where
  call : NativeCall
  awaited : Nat
  result : Except Mismatch Unit

namespace Observation

def served (o : Observation) : Bool := o.awaited != 0

def passed (o : Observation) : Bool := o.result.isOk

/-- The check of a call against an expectation, which fails exactly if they differ in an
argument. -/
inductive Compares (o : Observation) (expected : NativeCall) : Prop
  | agreeing (hsame : expected.Same o.call) (hresult : o.result = .ok ())
  | differing (hsame : ¬expected.Same o.call)
      (hresult : o.result = .error (.unexpected expected o.call))

end Observation

structure ExpectationRun where
  queue : ExpectationQueue
  observed : List Observation := []

namespace ExpectationRun

/-- A failed check is caught, and the run goes on. -/
def use (r : ExpectationRun) : ExpectationUse → ExpectationRun
  | .expect call => { r with queue := r.queue.expect call }
  | .observe call =>
      { queue := (r.queue.observe call).2
        observed := r.observed ++ [⟨call, r.queue.remaining, (r.queue.observe call).1⟩] }

def begin : ExpectationRun := { queue := .strict }

def play (uses : List ExpectationUse) : ExpectationRun := uses.foldl use begin

def served (r : ExpectationRun) : List Observation := r.observed.filter (·.served)

theorem play_concat (uses : List ExpectationUse) (u : ExpectationUse) :
    play (uses ++ [u]) = (play uses).use u := by
  rw [play, List.foldl_concat]
  rfl

variable {r : ExpectationRun} {declared : List NativeCall}

theorem use_of_empty (hq : r.queue.mode = .strict) (hempty : r.queue.pending = [])
    (call : NativeCall) : r.use (.observe call) =
      ⟨r.queue, r.observed ++ [⟨call, 0, .error (.exhausted call)⟩]⟩ := by
  obtain ⟨⟨mode, pending, history⟩, observed⟩ := r
  obtain rfl : mode = .strict := hq
  obtain rfl : pending = [] := hempty
  rfl

/-- A check that finds an expectation uses it up, and is noted if the two agree. -/
theorem use_of_waiting (hq : r.queue.mode = .strict) {expected : NativeCall}
    {rest : List NativeCall} (hwaiting : r.queue.pending = expected :: rest) (call : NativeCall) :
    ∃ o : Observation, o.call = call ∧ o.served = true ∧ o.Compares expected ∧
      r.use (.observe call) = ⟨⟨.strict, rest, r.queue.history ++ if o.passed then [call] else []⟩,
        r.observed ++ [o]⟩ := by
  obtain ⟨⟨mode, pending, history⟩, observed⟩ := r
  obtain rfl : mode = .strict := hq
  obtain rfl : pending = expected :: rest := hwaiting
  by_cases hsame : expected.agrees call = true
  · refine ⟨⟨call, rest.length + 1, .ok ()⟩, rfl, rfl,
      .agreeing (NativeCall.agrees_iff.mp hsame) rfl, ?_⟩
    have hobserve : ExpectationQueue.observe ⟨.strict, expected :: rest, history⟩ call =
        (.ok (), ⟨.strict, rest, history ++ [call]⟩) := if_pos hsame
    rw [use, hobserve]
    rfl
  · refine ⟨⟨call, rest.length + 1, .error (.unexpected expected call)⟩, rfl, rfl,
      .differing (fun h => hsame (NativeCall.agrees_iff.mpr h)) rfl, ?_⟩
    have hobserve : ExpectationQueue.observe ⟨.strict, expected :: rest, history⟩ call =
        (.error (.unexpected expected call), ⟨.strict, rest, history⟩) := if_neg hsame
    have hhistory : history ++ [] = history := List.append_nil history
    rw [use, hobserve]
    show _ = ExpectationRun.mk ⟨.strict, rest, history ++ []⟩ _
    rw [hhistory]
    rfl

/-- The checks of a run took the expectations in turn: those used up and those that wait are the
ones that were declared, each one used up was compared with the check in its place, and the checks
that passed make the history. -/
structure InTurn (r : ExpectationRun) (declared : List NativeCall) : Prop where
  strict : r.queue.mode = .strict
  turns : ∃ used, declared = used ++ r.queue.pending ∧
    List.Forall₂ (fun expected o => o.Compares expected) used r.served
  missed : ∀ o ∈ r.observed, o.served = false → o.result = .error (.exhausted o.call)
  history : r.queue.history = (r.observed.filter (·.passed)).map (·.call)

private theorem inTurn_begin : begin.InTurn [] where
  strict := rfl
  turns := ⟨[], rfl, .nil⟩
  missed := fun _ h => absurd h List.not_mem_nil
  history := rfl

private theorem InTurn.expect (h : r.InTurn declared) (call : NativeCall) :
    (r.use (.expect call)).InTurn (declared ++ [call]) := by
  obtain ⟨used, hdeclared, hturns⟩ := h.turns
  refine ⟨h.strict, ⟨used, ?_, hturns⟩, h.missed, h.history⟩
  rw [hdeclared]
  exact List.append_assoc ..

private theorem InTurn.observe (h : r.InTurn declared) (call : NativeCall) :
    (r.use (.observe call)).InTurn declared := by
  obtain ⟨used, hdeclared, hturns⟩ := h.turns
  cases hwaiting : r.queue.pending with
  | nil =>
    rw [use_of_empty h.strict hwaiting]
    refine ⟨h.strict, ⟨used, hdeclared, ?_⟩, ?_, ?_⟩
    · rw [served, List.filter_append]
      exact (List.append_nil r.served).symm ▸ hturns
    · exact List.forall_mem_append.mpr ⟨h.missed, List.forall_mem_singleton.mpr fun _ => rfl⟩
    · rw [h.history, List.filter_append]
      exact congrArg _ (List.append_nil _).symm
  | cons expected rest =>
    obtain ⟨o, rfl, hserved, hcompares, huse⟩ := use_of_waiting h.strict hwaiting call
    rw [huse]
    refine ⟨rfl, ⟨used ++ [expected], ?_, ?_⟩, ?_, ?_⟩
    · rw [hdeclared, hwaiting, List.append_assoc]
      rfl
    · rw [served, List.filter_append, List.filter_singleton, hserved]
      exact List.rel_append hturns (.cons hcompares .nil)
    · refine List.forall_mem_append.mpr ⟨h.missed, List.forall_mem_singleton.mpr fun hnot => ?_⟩
      cases hserved.symm.trans hnot
    · rw [h.history, List.filter_append, List.map_append, List.filter_singleton]
      cases o.passed <;> rfl

private theorem inTurn_play (uses : List ExpectationUse) :
    (play uses).InTurn (uses.filterMap (·.declared?)) := by
  induction uses using List.reverseRecOn with
  | nil => exact inTurn_begin
  | append_singleton uses u ih =>
    rw [play_concat, List.filterMap_append]
    cases u with
    | expect call => exact ih.expect call
    | observe call => exact (List.append_nil _).symm ▸ ih.observe call

private theorem map_call_observed (uses : List ExpectationUse) :
    (play uses).observed.map (·.call) = uses.filterMap (·.arriving?) := by
  induction uses using List.reverseRecOn with
  | nil => rfl
  | append_singleton uses u ih =>
    rw [play_concat, List.filterMap_append, ← ih]
    cases u with
    | expect call => exact (List.append_nil _).symm
    | observe call => exact List.map_append ..

/-- On a strict queue, whatever is declared and checked in whatever order, with failed checks
caught: every call that arrives is checked once. The checks that find the queue waiting are compared
with the calls that were declared, the first with the first and so on; each uses up its expectation,
and fails exactly if the two differ in an argument. A check that finds nothing fails and leaves the
queue as it is. The calls that agree are the history, the expectations left are those declared and
not used up, and the queue is satisfied exactly if there are none. -/
theorem strict_checks_match_in_turn (uses : List ExpectationUse) :
    let r := play uses
    let declared := uses.filterMap (·.declared?)
    r.observed.map (·.call) = uses.filterMap (·.arriving?) ∧
    r.served.length ≤ declared.length ∧
    List.Forall₂ (fun expected o => o.Compares expected) (declared.take r.served.length) r.served ∧
    (∀ o ∈ r.observed, o.served = false → o.result = .error (.exhausted o.call)) ∧
    r.queue.history = (r.observed.filter (·.passed)).map (·.call) ∧
    r.queue.remaining = declared.length - r.served.length ∧
    (r.queue.satisfied = .ok () ↔ r.queue.remaining = 0) ∧
    ∀ call, (play (uses ++ [.observe call])).observed =
        r.observed ++ [⟨call, r.queue.remaining, (r.queue.observe call).1⟩] ∧
      (r.queue.remaining = 0 → (play (uses ++ [.observe call])).queue = r.queue) := by
  intro r declared
  have hturn : r.InTurn declared := inTurn_play uses
  obtain ⟨used, hdeclared, hturns⟩ := hturn.turns
  have hused : used = declared.take r.served.length := by
    rw [hdeclared, ← hturns.length_eq, List.take_left]
  have hcount : declared.length = r.served.length + r.queue.remaining := by
    rw [hdeclared, List.length_append, hturns.length_eq]
    rfl
  have hempty : r.queue.pending = [] ↔ r.queue.remaining = 0 := List.length_eq_zero_iff.symm
  refine ⟨map_call_observed uses, by omega, hused ▸ hturns, hturn.missed, hturn.history, by omega,
    ?_, fun call => ?_⟩
  · rw [ExpectationQueue.satisfied, ← hempty, ← List.isEmpty_iff]
    cases r.queue.pending.isEmpty <;> simp
  · rw [play_concat]
    refine ⟨rfl, fun hnone => ?_⟩
    rw [use_of_empty hturn.strict (hempty.mpr hnone)]

/-- A mismatch uses its expectation up, and what comes too late is compared with nothing. -/
example : (play [.observe .stop, .expect (.closeOnGet "u"), .expect .stop,
      .observe (.closeOnGet "v"), .observe .stop, .observe .stop]).observed.map
        (fun o => (o.served, o.passed)) =
      [(false, false), (true, false), (true, true), (false, false)] := by
  decide

end ExpectationRun

end BrokerBridge
