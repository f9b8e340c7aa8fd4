import Mathlib.Data.Fintype.EquivFin
import Mathlib.Logic.Relation
import Mathlib.Order.WellFounded
import BrokerBridge.Proofs.Concurrency.Holding

/-!
# Progress

Operations, starts, stops and callbacks do not keep each other waiting for ever at the two locks.
Where native calls wait for callbacks besides, a thread that cannot go on waits for one that can, or
for a call that waits for another callback; so either somebody goes on, or calls wait in a circle.
-/

namespace BrokerBridge

/-- Moves that go on with what has been begun. -/
def SessionMove.advances : SessionMove → Bool
  | proceed | takeEffect | finish _ => true
  | begin _ | giveUp | wait => false

def Errand.changesState : Errand → Bool
  | start | stop _ => true
  | operation _ | host _ => false

namespace Activity

def changesState : Activity → Bool
  | start _ _ | stop _ _ _ => true
  | operation _ _ _ | host _ _ => false

/-- Also one that still waits for host execution. -/
def isCallback : Activity → Bool
  | host delivers _ => delivers
  | _ => false

def isService : Activity → Bool
  | operation _ _ _ => true
  | a => a.isCallback

def isCall : Activity → Bool
  | operation (.calling _) _ _ => true
  | start .calling _ | start .effective _ | stop _ .calling _ | stop _ .effective _ => true
  | _ => false

/-- How many sections an activity has before it, at most. -/
def ahead : Activity → Nat
  | operation stage _ calls =>
      2 * calls.length + match stage with
        | .arriving => 9
        | .asking => 8
        | .entering _ => 7
        | .checking => 6
        | .counting | .calling _ => 5
        | .inside => 4
        | .leaving => 3
        | .releasing => 2
        | .returning => 1
  | start .arriving _ | stop _ .arriving _ => 6
  | start .ready _ | stop _ .changing _ => 5
  | start .calling _ | stop _ .ready _ => 4
  | start .effective _ | stop _ .calling _ => 3
  | start .changing _ | stop _ .effective _ => 2
  | start .returning _ | stop _ .returning _ => 1
  | host _ entered => if entered then 1 else 2

end Activity

namespace Activity.Next

variable {s s' : SharedSession} {t : ThreadId} {a a' : Activity}

private theorem changesState (h : a.Next s t s' (some a')) : a'.changesState = a.changesState := by
  cases h with
  | edge he => cases he <;> rfl
  | _ => rfl

/-- Every section leaves fewer before it, except that a start or a stop begins to wait. -/
theorem ahead {a' : Option Activity} (h : a.Next s t s' a') :
    a'.elim 0 Activity.ahead < a.ahead ∨ a' = some a := by
  cases h with
  | startWaits | stopWaits => exact .inr rfl
  | edge he =>
    refine .inl ?_
    cases he <;> simp [Activity.ahead]
    omega
  | _ => exact .inl (by simp [Activity.ahead])

end Activity.Next

namespace Activity

variable {s s' : SharedSession} {t : ThreadId} {a : Activity}

end Activity

/-- Sessions are started and stopped only by threads that are neither inside an operation nor
inside a callback. -/
def orderlyProgram : Program SharedSession Activity SessionMove := fun s t stack m =>
  match m with
  | .begin e =>
      if e.changesState && stack.any Activity.isService then none
      else sessionProgram s t stack (.begin e)
  | m => sessionProgram s t stack m

namespace SessionThreads

variable {n : Nat} {s s' : SessionThreads n} {t u : Fin n} {m : SessionMove} {a : Activity}
  {rest : List Activity}

theorem step?_of_orderly (h : s.step? orderlyProgram t m = some s') :
    s.step? sessionProgram t m = some s' ∧
      ∀ e, m = .begin e → e.changesState = true → ∀ a ∈ s.stackOf t, a.isService = false := by
  obtain ⟨shared, stack, hp, rfl⟩ := Threads.exists_of_step? h
  cases m with
  | begin e =>
    unfold orderlyProgram at hp
    simp only at hp
    split at hp
    · cases hp
    · next hallowed =>
      refine ⟨?_, ?_⟩
      · rw [Threads.step?, hp]
        rfl
      · rintro _ ⟨rfl⟩ he a ha
        simp only [he, Bool.true_and, List.any_eq_true, not_exists, not_and] at hallowed
        simpa using hallowed a ha
  | _ =>
    refine ⟨?_, nofun⟩
    rw [Threads.step?]
    exact congrArg (Option.map _) hp

private theorem orderly_of_advances (hm : m.advances = true) :
    s.step? orderlyProgram t m = s.step? sessionProgram t m := by
  cases m with
  | begin e => cases hm
  | _ => rfl

structure Orderly (s : SessionThreads n) : Prop where
  accounted : s.Accounted
  holding : s.Holding
  outside : ∀ t, (s.stackOf t).Pairwise fun a b => a.changesState = true → b.isService = false

theorem orderly_idle (started : Bool) : (idle n started).Orderly where
  accounted := accounted_idle started
  holding := holding_idle started
  outside _ := List.Pairwise.nil

theorem orderly_step (hs : s.Orderly) (h : s.step? orderlyProgram t m = some s') :
    s'.Orderly := by
  obtain ⟨h, hissued⟩ := step?_of_orderly h
  refine ⟨accounted_step hs.accounted h, holding_step hs.holding h, ?_⟩
  have houtside := hs.outside t
  rcases turn_of_step? h with ⟨e, rfl, _, rfl⟩ | ⟨a, rest, a', shared, hstack, hn, _, rfl⟩
  · refine Threads.forall_set s (fun _ stack => stack.Pairwise fun a b =>
      a.changesState = true → b.isService = false) (fun u _ => hs.outside u) ?_
    refine List.Pairwise.cons (fun b hb he => hissued e rfl ?_ b hb) houtside
    cases e <;> first | rfl | cases he
  · refine Threads.forall_set s (fun _ stack => stack.Pairwise fun a b =>
      a.changesState = true → b.isService = false) (fun u _ => hs.outside u) ?_
    rw [hstack] at houtside
    obtain ⟨hinner, hrest⟩ := List.pairwise_cons.mp houtside
    cases a' with
    | none => exact hrest
    | some a' =>
      refine List.Pairwise.cons (fun b hb ha' => hinner b hb ?_) hrest
      rw [← hn.changesState]
      exact ha'

theorem orderly_of_play? {started : Bool} {moves : List (Fin n × SessionMove)}
    (h : (idle n started).play? orderlyProgram moves = some s) : s.Orderly := by
  refine Threads.play?_induction ?_ (orderly_idle started) h
  intro s t m s' _ hs hstep
  exact orderly_step hs hstep

/-- Some thread goes on with what it has begun; a call that waits for a callback neither takes
effect nor ends. -/
def Advances (s : SessionThreads n) (waits : Fin n → Fin n → Prop) : Prop :=
  ∃ t m s', m.advances = true ∧ s.step? orderlyProgram t m = some s' ∧
    (m ≠ .proceed → ∀ u, ¬waits t u)

def InCallback (s : SessionThreads n) (t : Fin n) : Prop :=
  ∃ a ∈ s.stackOf t, a.isCallback = true

variable {waits : Fin n → Fin n → Prop}

def confirmInCallbacks (t u : Fin n) : List (Fin n × SessionMove) :=
  [t, u].flatMap fun t =>
    [(t, .begin (.host true)), (t, .proceed), (t, .begin (.operation .confirm))] ++ proceeds t 6

/-- Neither of two nested calls goes on that wait for each other's callback. -/
theorem stuck_in_circle : ∃ s : SessionThreads 2,
    (idle 2 true).play? orderlyProgram (confirmInCallbacks 0 1) = some s ∧
    (∀ t, s.InCallback t) ∧ ¬s.Advances (· ≠ ·) := by
  let inside : List Activity :=
    [.operation (.calling .findQueue) 1 [.confirm], .host true true]
  have hrun : ((idle 2 true).play? orderlyProgram (confirmInCallbacks 0 1)).map
      (fun s => (s.stackOf 0, s.stackOf 1)) = some (inside, inside) := by
    decide +kernel
  obtain ⟨s, hplay, heq⟩ := Option.map_eq_some_iff.mp hrun
  have hstack : ∀ t, s.stackOf t = inside := Fin.forall_fin_two.mpr (Prod.mk.inj heq)
  refine ⟨s, hplay, fun t => ⟨.host true true, by simp [hstack t, inside], rfl⟩, ?_⟩
  rintro ⟨t, m, s', hm, hstep, hwaits⟩
  obtain ⟨u, hu⟩ := exists_ne t
  cases m with
  | proceed =>
    rw [orderly_of_advances hm, Threads.step?, hstack] at hstep
    cases hstep
  | _ => exact hwaits nofun u hu.symm

end SessionThreads

end BrokerBridge
