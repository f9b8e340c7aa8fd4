import BrokerBridge.Proofs.Concurrency.Threads
import BrokerBridge.Session.Operations

/-!
# A session shared by threads

Queue operations, starts, stops and host code on any number of threads, cut at the session's lock
sections and at both ends of its native calls. A native call and host code may issue further work
on the thread they run on.
-/

namespace BrokerBridge

inductive QueueCall where
  | openQueue | configureQueue | closeQueue | findQueue | post | confirm
deriving DecidableEq, Repr

inductive ClientCall where
  | start
  | stop
  | queue (c : QueueCall)
deriving DecidableEq, Repr

inductive QueueOperation where
  | openQueue | configureQueue | closeQueue | queueOptions | post | confirm
deriving DecidableEq, Repr

def QueueOperation.calls : QueueOperation → List QueueCall
  | openQueue => [.openQueue]
  | configureQueue => [.findQueue, .configureQueue]
  | closeQueue => [.findQueue, .closeQueue]
  | queueOptions => [.findQueue]
  | post => [.findQueue, .post]
  | confirm => [.findQueue, .confirm]

inductive CallEdge where
  | began (t : ThreadId) (c : ClientCall)
  /-- The client runs from now on, or no longer does. -/
  | took (t : ThreadId) (running : Bool)
  | ended (t : ThreadId) (c : ClientCall) (code : Int)
deriving DecidableEq, Repr

/-- What threads share: the two locks, and a log of the native calls. -/
structure SharedSession where
  gate : Gate := {}
  host : HostLock := .free
  waitingStarts : List ThreadId := []
  log : List CallEdge := []

namespace SharedSession

def record (s : SharedSession) (e : CallEdge) : SharedSession := { s with log := s.log ++ [e] }

def onGate (s : SharedSession) (f : Gate → Gate) : SharedSession := { s with gate := f s.gate }

def stepOut (s : SharedSession) (t : ThreadId) : SharedSession :=
  { s with host := (s.host.leaveAll t).2 }

def stepBack? (s : SharedSession) (t : ThreadId) (saved : Nat) : Option SharedSession :=
  (s.host.restore? t saved).map fun host => { s with host }

/-- Whether a reader may take hold now: a start that waits keeps readers out as a stop does. -/
def admits (s : SharedSession) (nested : Bool) : Bool :=
  s.gate.admits nested && (s.waitingStarts.isEmpty || (nested && s.gate.holds != 0))

def change (s : SharedSession) (t : ThreadId) (started : Bool) : SharedSession :=
  { s with
    gate := { s.gate.setStarted started with
      waiting := s.gate.waiting.filter (·.thread != t) }
    waitingStarts := s.waitingStarts.filter (· != t) }

end SharedSession

/-- How far a queue operation has come: it steps out of host execution, asks whether it is nested,
takes hold of the gate, checks the started state and counts itself in; between its native calls it
is inside. The way out is the same way back. -/
inductive OperationStage where
  | arriving
  | asking
  | entering (nested : Bool)
  | checking
  | counting
  | inside
  | calling (c : QueueCall)
  | leaving
  | releasing
  | returning
deriving DecidableEq, Repr

/-- How far a start or a stop has come. A start calls the client before it changes the started
state, a stop afterwards; the call takes effect at some moment before it ends. -/
inductive ChangeStage where
  | arriving | changing | ready | calling | effective | returning
deriving DecidableEq, Repr

/-- What a thread can be inside of; `saved` is the host execution it gave up. -/
inductive Activity where
  | operation (stage : OperationStage) (saved : Nat) (calls : List QueueCall)
  | start (stage : ChangeStage) (saved : Nat)
  | stop (warn : Bool) (stage : ChangeStage) (saved : Nat)
  /-- Host code: a callback, which delivers, or other code. -/
  | host (delivers entered : Bool)
deriving DecidableEq, Repr

inductive Errand where
  | operation (o : QueueOperation)
  | start
  | stop (warn : Bool)
  | host (delivers : Bool)
deriving DecidableEq, Repr

def Errand.activity : Errand → Activity
  | operation o => .operation .arriving 0 o.calls
  | start => .start .arriving 0
  | stop warn => .stop warn .arriving 0
  | host delivers => .host delivers false

namespace Activity

/-- A native call in progress and host code may issue further work. -/
def isOpen : Activity → Bool
  | operation (.calling _) _ _ => true
  | start .calling _ | start .effective _ | stop _ .calling _ | stop _ .effective _ => true
  | host _ entered => entered
  | _ => false

def delivers : Activity → Bool
  | host d entered => d && entered
  | _ => false

/-- The next section, which may end the activity; none where it has to wait. -/
def proceed? (s : SharedSession) (t : ThreadId) (delivering : Bool) :
    Activity → Option (SharedSession × Option Activity)
  | operation .arriving _ calls =>
      some (s.stepOut t, some (.operation .asking (s.host.leaveAll t).1 calls))
  | operation .asking saved calls =>
      some (s, some (.operation (.entering (delivering || s.gate.isReader t)) saved calls))
  | operation (.entering nested) saved calls =>
      if s.admits nested then some (s.onGate .hold, some (.operation .checking saved calls))
      else none
  | operation .checking saved calls =>
      some (s, some (.operation (if s.gate.started then .counting else .releasing) saved calls))
  | operation .counting saved calls =>
      some (s.onGate (·.count t), some (.operation .inside saved calls))
  | operation .inside saved [] => some (s, some (.operation .leaving saved []))
  | operation .inside saved (c :: calls) =>
      some (s.record (.began t (.queue c)), some (.operation (.calling c) saved calls))
  | operation (.calling _) _ _ => none
  | operation .leaving saved calls =>
      some (s.onGate (·.uncount t), some (.operation .releasing saved calls))
  | operation .releasing saved calls =>
      some (s.onGate .release, some (.operation .returning saved calls))
  | operation .returning saved _ => (s.stepBack? t saved).map fun s => (s, none)
  | start .arriving _ => some (s.stepOut t, some (.start .ready (s.host.leaveAll t).1))
  | start .ready saved => some (s.record (.began t .start), some (.start .calling saved))
  | start .calling _ | start .effective _ => none
  | start .changing saved =>
      if s.gate.isClear then some (s.change t true, some (.start .returning saved)) else none
  | start .returning saved => (s.stepBack? t saved).map fun s => (s, none)
  | stop warn .arriving _ =>
      some (s.stepOut t, some (.stop warn .changing (s.host.leaveAll t).1))
  | stop warn .changing saved =>
      if s.gate.isClear then
        some (s.change t false,
          some (.stop warn (if s.gate.started then .ready else .returning) saved))
      else none
  | stop warn .ready saved => some (s.record (.began t .stop), some (.stop warn .calling saved))
  | stop _ .calling _ | stop _ .effective _ => none
  | stop _ .returning saved => (s.stepBack? t saved).map fun s => (s, none)
  | host delivers false =>
      (s.host.enter? t 1).map fun host => ({ s with host := host }, some (.host delivers true))
  | host _ true => some ({ s with host := s.host.leave }, none)

def takeEffect? (s : SharedSession) (t : ThreadId) : Activity → Option (SharedSession × Activity)
  | start .calling saved => some (s.record (.took t true), .start .effective saved)
  | stop warn .calling saved => some (s.record (.took t false), .stop warn .effective saved)
  | _ => none

/-- The native call in progress answers with a code. A start answers with success exactly where it
took effect, and a stop cannot fail. -/
def finish? (s : SharedSession) (t : ThreadId) (code : Int) :
    Activity → Option (SharedSession × Activity)
  | operation (.calling c) saved calls =>
      some (s.record (.ended t (.queue c) code), .operation .inside saved calls)
  | start .calling saved =>
      if code = Code.success then none
      else some (s.record (.ended t .start code), .start .returning saved)
  | start .effective saved =>
      if code = Code.success then some (s.record (.ended t .start code), .start .changing saved)
      else none
  | stop warn .effective saved =>
      some (s.record (.ended t .stop code), .stop warn .returning saved)
  | _ => none

/-- A check fails, or a panic unwinds: the remaining native calls are not made. -/
def giveUp? : Activity → Option Activity
  | operation .inside saved calls => some (.operation .leaving saved calls)
  | _ => none

/-- Wait to change the started state; new readers stay out from then on. -/
def wait? (s : SharedSession) (t : ThreadId) : Activity → Option SharedSession
  | start .changing _ => some { s with waitingStarts := s.waitingStarts ++ [t] }
  | stop warn .changing _ => some { s with gate := s.gate.request ⟨t, warn⟩ }
  | _ => none

end Activity

inductive SessionMove where
  | begin (e : Errand)
  | proceed
  | takeEffect
  | finish (code : Int)
  | giveUp
  | wait
deriving DecidableEq, Repr

/-- What threads do with a session. Only the innermost activity of a thread moves. -/
def sessionProgram : Program SharedSession Activity SessionMove := fun s t stack m =>
  match m, stack with
  | .begin e, stack =>
      if stack.head?.all Activity.isOpen then some (s, e.activity :: stack) else none
  | .proceed, a :: rest =>
      (a.proceed? s t (rest.any Activity.delivers)).map fun (s, a) => (s, a.toList ++ rest)
  | .takeEffect, a :: rest => (a.takeEffect? s t).map fun (s, a) => (s, a :: rest)
  | .finish code, a :: rest => (a.finish? s t code).map fun (s, a) => (s, a :: rest)
  | .giveUp, a :: rest => a.giveUp?.map fun a => (s, a :: rest)
  | .wait, a :: rest => (a.wait? s t).map fun s => (s, a :: rest)
  | _, [] => none

abbrev SessionThreads (n : Nat) := Threads n SharedSession Activity

def SessionThreads.idle (n : Nat) (started : Bool) : SessionThreads n :=
  .atRest { gate := { started } }

/-! ## What a move can do -/

inductive Activity.Edge (t : ThreadId) : Activity → CallEdge → Activity → Prop
  | call (c saved calls) : Edge t (.operation .inside saved (c :: calls))
      (.began t (.queue c)) (.operation (.calling c) saved calls)
  | answer (c code saved calls) : Edge t (.operation (.calling c) saved calls)
      (.ended t (.queue c) code) (.operation .inside saved calls)
  | startCall (saved) : Edge t (.start .ready saved) (.began t .start) (.start .calling saved)
  | startTakes (saved) : Edge t (.start .calling saved) (.took t true) (.start .effective saved)
  | startAccepted (saved) : Edge t (.start .effective saved)
      (.ended t .start Code.success) (.start .changing saved)
  | startRefused (code saved) (refused : code ≠ Code.success) : Edge t (.start .calling saved)
      (.ended t .start code) (.start .returning saved)
  | stopCall (warn saved) : Edge t (.stop warn .ready saved)
      (.began t .stop) (.stop warn .calling saved)
  | stopTakes (warn saved) : Edge t (.stop warn .calling saved)
      (.took t false) (.stop warn .effective saved)
  | stopDone (warn code saved) : Edge t (.stop warn .effective saved)
      (.ended t .stop code) (.stop warn .returning saved)

inductive Activity.Next (s : SharedSession) (t : ThreadId) :
    Activity → SharedSession → Option Activity → Prop
  | edge {a e a'} (h : a.Edge t e a') : Next s t a (s.record e) (some a')
  | operationOut (saved₀ saved calls) : Next s t (.operation .arriving saved₀ calls)
      (s.stepOut t) (some (.operation .asking saved calls))
  | ask (nested saved calls) : Next s t (.operation .asking saved calls)
      s (some (.operation (.entering nested) saved calls))
  | hold (nested saved calls) (admitted : s.admits nested) :
      Next s t (.operation (.entering nested) saved calls)
        (s.onGate .hold) (some (.operation .checking saved calls))
  | pass (saved calls) (started : s.gate.started = true) :
      Next s t (.operation .checking saved calls) s (some (.operation .counting saved calls))
  | refuse (saved calls) (started : s.gate.started = false) :
      Next s t (.operation .checking saved calls) s (some (.operation .releasing saved calls))
  | count (saved calls) : Next s t (.operation .counting saved calls)
      (s.onGate (·.count t)) (some (.operation .inside saved calls))
  | done (saved calls) : Next s t (.operation .inside saved calls)
      s (some (.operation .leaving saved calls))
  | uncount (saved calls) : Next s t (.operation .leaving saved calls)
      (s.onGate (·.uncount t)) (some (.operation .releasing saved calls))
  | release (saved calls) : Next s t (.operation .releasing saved calls)
      (s.onGate .release) (some (.operation .returning saved calls))
  | operationBack (saved calls s') (back : s.stepBack? t saved = some s') :
      Next s t (.operation .returning saved calls) s' none
  | startOut (saved₀ saved) : Next s t (.start .arriving saved₀)
      (s.stepOut t) (some (.start .ready saved))
  | startWaits (saved) : Next s t (.start .changing saved)
      { s with waitingStarts := s.waitingStarts ++ [t] } (some (.start .changing saved))
  | startChange (saved) (clear : s.gate.isClear) : Next s t (.start .changing saved)
      (s.change t true) (some (.start .returning saved))
  | startBack (saved s') (back : s.stepBack? t saved = some s') :
      Next s t (.start .returning saved) s' none
  | stopOut (warn saved₀ saved) : Next s t (.stop warn .arriving saved₀)
      (s.stepOut t) (some (.stop warn .changing saved))
  | stopWaits (warn saved) : Next s t (.stop warn .changing saved)
      (s.onGate (·.request ⟨t, warn⟩)) (some (.stop warn .changing saved))
  | stopChange (warn saved) (clear : s.gate.isClear) (started : s.gate.started = true) :
      Next s t (.stop warn .changing saved)
        (s.change t false) (some (.stop warn .ready saved))
  | stopIdle (warn saved) (clear : s.gate.isClear) (started : s.gate.started = false) :
      Next s t (.stop warn .changing saved)
        (s.change t false) (some (.stop warn .returning saved))
  | stopBack (warn saved s') (back : s.stepBack? t saved = some s') :
      Next s t (.stop warn .returning saved) s' none
  | hostIn (delivers host) (entered : s.host.enter? t 1 = some host) :
      Next s t (.host delivers false) { s with host } (some (.host delivers true))
  | hostOut (delivers) : Next s t (.host delivers true) { s with host := s.host.leave } none

namespace Activity

variable {s s' : SharedSession} {t : ThreadId} {a : Activity}

private theorem stepBack_of_map {saved : Nat} {a' : Option Activity}
    (h : (s.stepBack? t saved).map (fun s => (s, none)) = some (s', a')) :
    s.stepBack? t saved = some s' ∧ a' = none := by
  obtain ⟨s₁, hs, heq⟩ := Option.map_eq_some_iff.mp h
  cases heq
  exact ⟨hs, rfl⟩

private theorem next_of_proceed?_operation {stage : OperationStage} {saved : Nat}
    {calls : List QueueCall} {delivering : Bool} {a' : Option Activity}
    (h : (operation stage saved calls).proceed? s t delivering = some (s', a')) :
    (operation stage saved calls).Next s t s' a' := by
  cases stage with
  | arriving =>
    cases h
    exact .operationOut ..
  | asking =>
    cases h
    exact .ask ..
  | entering nested =>
    simp only [proceed?] at h
    split at h
    · next admitted =>
      cases h
      exact .hold nested saved calls admitted
    · cases h
  | checking =>
    cases h
    cases hs : s.gate.started
    · exact .refuse saved calls hs
    · exact .pass saved calls hs
  | counting =>
    cases h
    exact .count ..
  | inside =>
    cases calls with
    | nil =>
      cases h
      exact .done ..
    | cons c calls =>
      cases h
      exact .edge (.call ..)
  | calling c => cases h
  | leaving =>
    cases h
    exact .uncount ..
  | releasing =>
    cases h
    exact .release ..
  | returning =>
    obtain ⟨back, rfl⟩ := stepBack_of_map h
    exact .operationBack saved calls s' back

private theorem next_of_proceed?_start {stage : ChangeStage} {saved : Nat} {delivering : Bool}
    {a' : Option Activity} (h : (start stage saved).proceed? s t delivering = some (s', a')) :
    (start stage saved).Next s t s' a' := by
  cases stage with
  | arriving =>
    cases h
    exact .startOut ..
  | ready =>
    cases h
    exact .edge (.startCall ..)
  | calling | effective => cases h
  | changing =>
    simp only [proceed?] at h
    split at h
    · next clear =>
      cases h
      exact .startChange saved clear
    · cases h
  | returning =>
    obtain ⟨back, rfl⟩ := stepBack_of_map h
    exact .startBack saved s' back

private theorem next_of_proceed?_stop {warn : Bool} {stage : ChangeStage} {saved : Nat}
    {delivering : Bool} {a' : Option Activity}
    (h : (stop warn stage saved).proceed? s t delivering = some (s', a')) :
    (stop warn stage saved).Next s t s' a' := by
  cases stage with
  | arriving =>
    cases h
    exact .stopOut ..
  | changing =>
    simp only [proceed?] at h
    split at h
    · next clear =>
      cases h
      cases hs : s.gate.started
      · exact .stopIdle warn saved clear hs
      · exact .stopChange warn saved clear hs
    · cases h
  | ready =>
    cases h
    exact .edge (.stopCall ..)
  | calling | effective => cases h
  | returning =>
    obtain ⟨back, rfl⟩ := stepBack_of_map h
    exact .stopBack warn saved s' back

theorem next_of_proceed? {delivering : Bool} {a' : Option Activity}
    (h : a.proceed? s t delivering = some (s', a')) : a.Next s t s' a' := by
  cases a with
  | operation stage saved calls => exact next_of_proceed?_operation h
  | start stage saved => exact next_of_proceed?_start h
  | stop warn stage saved => exact next_of_proceed?_stop h
  | host delivers entered =>
    cases entered with
    | false =>
      obtain ⟨lock, entered, heq⟩ := Option.map_eq_some_iff.mp h
      cases heq
      exact .hostIn delivers lock entered
    | true =>
      cases h
      exact .hostOut delivers

theorem next_of_takeEffect? {a' : Activity} (h : a.takeEffect? s t = some (s', a')) :
    a.Next s t s' (some a') := by
  unfold takeEffect? at h
  split at h
  · cases h
    exact .edge (.startTakes _)
  · cases h
    exact .edge (.stopTakes ..)
  · cases h

theorem next_of_finish? {code : Int} {a' : Activity} (h : a.finish? s t code = some (s', a')) :
    a.Next s t s' (some a') := by
  unfold finish? at h
  split at h
  · cases h
    exact .edge (.answer ..)
  · split at h
    · cases h
    · next hc =>
      cases h
      exact .edge (.startRefused _ _ hc)
  · split at h
    · next hc =>
      cases h
      subst hc
      exact .edge (.startAccepted _)
    · cases h
  · cases h
    exact .edge (.stopDone ..)
  · cases h

theorem next_of_giveUp? {a' : Activity} (h : a.giveUp? = some a') : a.Next s t s (some a') := by
  unfold giveUp? at h
  split at h
  · cases h
    exact .done ..
  · cases h

theorem next_of_wait? (h : a.wait? s t = some s') : a.Next s t s' (some a) := by
  unfold wait? at h
  split at h
  · cases h
    exact .startWaits _
  · cases h
    exact .stopWaits ..
  · cases h

end Activity

private theorem next_of_sessionProgram {s s' : SharedSession} {t : ThreadId}
    {stack stack' : List Activity}
    {m : SessionMove} (h : sessionProgram s t stack m = some (s', stack')) :
    (∃ e, m = .begin e ∧ s' = s ∧ stack' = e.activity :: stack) ∨
      ∃ a rest a', stack = a :: rest ∧ stack' = a'.toList ++ rest ∧ a.Next s t s' a' := by
  unfold sessionProgram at h
  split at h
  · next e =>
    split at h
    · cases h
      exact .inl ⟨e, rfl, rfl, rfl⟩
    · cases h
  · next a rest =>
    obtain ⟨⟨s₁, a'⟩, ha, heq⟩ := Option.map_eq_some_iff.mp h
    cases heq
    exact .inr ⟨a, rest, a', rfl, rfl, Activity.next_of_proceed? ha⟩
  · next a rest =>
    obtain ⟨⟨s₁, a'⟩, ha, heq⟩ := Option.map_eq_some_iff.mp h
    cases heq
    exact .inr ⟨a, rest, some a', rfl, rfl, Activity.next_of_takeEffect? ha⟩
  · next a rest =>
    obtain ⟨⟨s₁, a'⟩, ha, heq⟩ := Option.map_eq_some_iff.mp h
    cases heq
    exact .inr ⟨a, rest, some a', rfl, rfl, Activity.next_of_finish? ha⟩
  · next a rest =>
    obtain ⟨a', ha, heq⟩ := Option.map_eq_some_iff.mp h
    cases heq
    exact .inr ⟨a, rest, some a', rfl, rfl, Activity.next_of_giveUp? ha⟩
  · next a rest =>
    obtain ⟨s₁, ha, heq⟩ := Option.map_eq_some_iff.mp h
    cases heq
    exact .inr ⟨a, rest, some a, rfl, rfl, Activity.next_of_wait? ha⟩
  · cases h

namespace SessionThreads

def proceeds {n : Nat} (t : Fin n) (k : Nat) : List (Fin n × SessionMove) :=
  List.replicate k (t, .proceed)

@[simp] theorem shared_idle (n : Nat) (started : Bool) :
    (idle n started).shared = { gate := { started } } := rfl

@[simp] theorem weight_idle (w : Activity → Nat) (n : Nat) (started : Bool) :
    (idle n started).weight w = 0 := Threads.weight_atRest ..

variable {n : Nat} {s s' : SessionThreads n} {t : Fin n} {m : SessionMove}

/-- What a move makes of the shared state and of every weight. -/
theorem cases_of_step? (h : s.step? sessionProgram t m = some s') :
    (∃ e, m = .begin e ∧ s'.shared = s.shared ∧
      ∀ w, s'.weight w = s.weight w + w e.activity) ∨
    ∃ a a', a ∈ s.stackOf t ∧ a.Next s.shared t s'.shared a' ∧
      ∀ w, s'.weight w + w a = s.weight w + a'.elim 0 w := by
  obtain ⟨shared, stack, hp, rfl⟩ := Threads.exists_of_step? h
  rcases next_of_sessionProgram hp with ⟨e, rfl, rfl, rfl⟩ | ⟨a, rest, a', hs, rfl, hn⟩
  · exact .inl ⟨e, rfl, rfl, fun w => s.weight_push w t s.shared e.activity⟩
  · exact .inr ⟨a, a', by simp [hs], hn, fun w => Threads.weight_replace w hs shared a'⟩

end SessionThreads

end BrokerBridge
