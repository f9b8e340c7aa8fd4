import BrokerBridge.Proofs.Concurrency.Posting
import BrokerBridge.Proofs.Replay.Listing
import BrokerBridge.Proofs.Replay.Playing

/-!
# Calls on queues, on threads

Calls of any number of threads that open, configure and close the queues of one scripted client,
cut where each of them takes a lock. The books are changed before a call is decided, and changed
back in a section of their own.
-/

namespace BrokerBridge

open Act

/-- What a call is asked to do, and the code that it will be decided with. -/
structure QueueErrand where
  deed : QueueDeed
  timeout : Duration
  code : Int

namespace QueueDeed

/-- What is done before a call is decided. A queue is not closed yet, only looked for. -/
def prepare (l : Ledger) : QueueDeed → QueueStatus × Ledger
  | closeQueue q =>
      (if l.isCurrent q then ⟨some q, Code.success, ""⟩
        else ⟨some q, Code.unknownQueue, "unknown queue"⟩, l)
  | d => d.perform l

end QueueDeed

abbrev QueueSuccess := { status : QueueStatus // status.code = Code.success }

abbrev QueueRefusal := { status : QueueStatus // status.code ≠ Code.success }

namespace QueueErrand

def native (e : QueueErrand) : NativeCall :=
  match e.deed with
  | .openQueue uri flags options => .openQueue uri flags options e.timeout
  | .configureQueue q options => .configureQueue q.uri options e.timeout
  | .closeQueue q => .closeQueue q.uri e.timeout

/-- The call is decided against, and what it has changed is to be changed back. -/
def isUndone (e : QueueErrand) : Bool := e.code != Code.success && !e.deed.isClose

def stands (e : QueueErrand) : Bool := e.code == Code.success && !e.deed.isClose

def refusal (e : QueueErrand) (queue : Option QueueHandle) (code : Int)
    (h : code ≠ Code.success) : QueueRefusal :=
  match e.deed with
  | .openQueue .. => ⟨⟨queue, code, "mock open rejected with " ++ Code.openQueue.name code⟩, h⟩
  | .configureQueue .. =>
      ⟨⟨queue, code, "mock configure rejected with " ++ Code.configureQueue.name code⟩, h⟩
  | .closeQueue q =>
      ⟨⟨some q, code, "mock close rejected with " ++ Code.closeQueue.name code⟩, h⟩

end QueueErrand

/-- How a call ends: with a status, because it was not expected, or because a panic came out of
telling the host of a batch, when it had been decided. -/
inductive QueueAnswer where
  | returned (status : QueueStatus)
  | unexpected
  | interrupted
deriving DecidableEq

def QueueAnswer.accepts : QueueAnswer → Bool
  | returned status => status.code == Code.success
  | unexpected => false
  | interrupted => true

/-- How far a call has come. `before` is what it will put back if it is undone. -/
inductive QueueStage where
  | arriving
  | observing
  | looking
  | changing (before : Option QueueOptions)
  | entering (before : Option QueueOptions) (status : QueueSuccess)
  | deciding (before : Option QueueOptions) (status : QueueSuccess)
  | undoing (before : Option QueueOptions) (refusal : QueueRefusal)
  | closing
  | playing (status : QueueSuccess)
  | telling (status : QueueSuccess)
  | leaving (answer : QueueAnswer)
  | returning (answer : QueueAnswer)

inductive QueueActivity where
  | call (number : Nat) (e : QueueErrand) (saved : Nat) (stage : QueueStage)
  | host (entered : Bool)

inductive QueueTask where
  | call (e : QueueErrand)
  | host

namespace QueueActivity

/-- Host code and the telling of a batch may make calls in turn. -/
def isOpen : QueueActivity → Bool
  | call _ _ _ (.telling _) => true
  | host entered => entered
  | _ => false

def advance : QueueActivity → Act Stage (Option QueueActivity)
  | call k e _ .arriving => do
      let saved ← stepOut
      return some (call k e saved .observing)
  | call k e saved .observing => do
      Stage.observe e.native
      return some (call k e saved .looking)
  | call k e saved .looking => do
      let before := e.deed.found (← native).ledger
      return some (call k e saved (.changing before))
  | call k e saved (.changing before) => do
      let status ← Stage.ledgerUpdate e.deed.prepare
      if h : status.code = Code.success then
        return some (call k e saved (.entering before ⟨status, h⟩))
      else return some (call k e saved (.returning (.returned status)))
  | call k e saved (.entering before status) => do
      enterHost 1
      return some (call k e saved (.deciding before status))
  | call k e saved (.deciding before status) => do
      let code ← Stage.settle e.native fun _ => e.code
      if h : code ≠ Code.success then
        let refusal := e.refusal status.1.queue code h
        if e.deed.isClose then return some (call k e saved (.leaving (.returned refusal)))
        else return some (call k e saved (.undoing before refusal))
      else
        match e.deed with
        | .openQueue .. => return some (call k e saved (.playing status))
        | .configureQueue .. => return some (call k e saved (.leaving (.returned status)))
        | .closeQueue _ => return some (call k e saved .closing)
  | call k e saved (.undoing before refusal) => do
      Stage.modifyLedger (e.deed.undo before)
      return some (call k e saved (.leaving (.returned refusal)))
  | call k e saved .closing => do
      let status ← Stage.ledgerUpdate e.deed.perform
      return some (call k e saved (.leaving (.returned status)))
  | call k e saved (.playing status) => do
      match ← onNative fun n => let (b, script) := n.script.popPush; (b, { n with script }) with
      | some batch =>
          Stage.playPush .quiet batch
          return some (call k e saved (.telling status))
      | none => return some (call k e saved (.leaving (.returned status)))
  | call k e saved (.telling status) => return some (call k e saved (.leaving (.returned status)))
  | call k e saved (.leaving answer) => do
      leaveHost
      return some (call k e saved (.returning answer))
  | call _ _ saved (.returning _) => do
      stepBack saved
      return none
  | host false => do
      enterHost 1
      return some (host true)
  | host true => do
      leaveHost
      return none

def unwound : QueueActivity → Option QueueActivity
  | call k e saved (.playing _) => some (call k e saved (.leaving .interrupted))
  | call k e saved _ => some (call k e saved (.returning .unexpected))
  | host _ => none

end QueueActivity

/-- What threads share, with the calls begun and the ends they came to, each in order, and the
numbers of the calls that were accepted, in the order in which they took effect. -/
structure QueueRoom where
  bridge : Bridge Stage
  begun : List (ThreadId × QueueErrand) := []
  accepted : List Nat := []
  ended : List (Nat × QueueAnswer) := []

namespace QueueRoom

def ledger (s : QueueRoom) : Ledger := s.bridge.native.ledger

def advanced (s : QueueRoom) (b : Bridge Stage) (a : QueueActivity) (a' : Option QueueActivity) :
    QueueRoom :=
  match a, a' with
  | .call k e _ (.changing _), some (.call _ _ _ (.entering ..)) =>
      { s with bridge := b, accepted := s.accepted ++ if e.stands then [k] else [] }
  | .call k _ _ .closing, some (.call _ _ _ (.leaving answer)) =>
      { s with bridge := b, accepted := s.accepted ++ if answer.accepts then [k] else [] }
  | .call k _ _ (.returning answer), _ =>
      { s with bridge := b, ended := s.ended ++ [(k, answer)] }
  | _, _ => { s with bridge := b }

def start (s : QueueRoom) (t : ThreadId) : QueueTask → QueueRoom × QueueActivity
  | .call e => ({ s with begun := s.begun ++ [(t, e)] }, .call s.begun.length e 0 .arriving)
  | .host => (s, .host false)

def thread? (s : QueueRoom) (k : Nat) : Option ThreadId := s.begun[k]?.map (·.1)

def deed? (s : QueueRoom) (k : Nat) : Option QueueDeed := s.begun[k]?.map (·.2.deed)

end QueueRoom

inductive QueueMove where
  | begin (task : QueueTask)
  | proceed
  | amend (f : Stage → Stage)

/-- What threads do with the client. Only the innermost activity of a thread moves; anything may be
done to the client that leaves its queues and their options as they are. -/
def queueProgram : Program QueueRoom QueueActivity QueueMove := fun s t stack m =>
  match m, stack with
  | .begin task, stack =>
      if stack.head?.all QueueActivity.isOpen then
        some ((s.start t task).1, (s.start t task).2 :: stack)
      else none
  | .proceed, a :: rest =>
      match a.advance { s.bridge with thread := t } with
      | .ok a' b => some (s.advanced b a a', a'.toList ++ rest)
      | .error (.panic _) b => some ({ s with bridge := b }, a.unwound.toList ++ rest)
      | .error _ _ => none
  | .amend f, stack =>
      if s.ledger.KeepsQueues (f s.bridge.native).ledger then
        some ({ s with bridge.native := f s.bridge.native }, stack)
      else none
  | .proceed, [] => none

abbrev QueueThreads (n : Nat) := Threads n QueueRoom QueueActivity

def QueueThreads.idle (n : Nat) (b : Bridge Stage) : QueueThreads n := .atRest { bridge := b }

/-! ## What a move can do -/

namespace QueueActivity

inductive Moves : QueueActivity → QueueActivity → Prop
  | out (k e saved₀ saved) : Moves (call k e saved₀ .arriving) (call k e saved .observing)
  | observed (k e saved) : Moves (call k e saved .observing) (call k e saved .looking)
  | unexpected (k e saved) :
      Moves (call k e saved .observing) (call k e saved (.returning .unexpected))
  | refused (k e saved before) (refusal : QueueRefusal) :
      Moves (call k e saved (.changing before)) (call k e saved (.returning (.returned refusal)))
  | sought (k e saved before status) (close : e.deed.isClose = true) :
      Moves (call k e saved (.changing before)) (call k e saved (.entering before status))
  | entered (k e saved before status) :
      Moves (call k e saved (.entering before status)) (call k e saved (.deciding before status))
  | opposed (k e saved before status refusal) (undone : e.isUndone = true) :
      Moves (call k e saved (.deciding before status)) (call k e saved (.undoing before refusal))
  | barred (k e saved before status) (refusal : QueueRefusal) (close : e.deed.isClose = true) :
      Moves (call k e saved (.deciding before status))
        (call k e saved (.leaving (.returned refusal)))
  | opened (k e saved before status) (stands : e.stands = true) :
      Moves (call k e saved (.deciding before status)) (call k e saved (.playing status))
  | configured (k e saved before) (status : QueueSuccess) (stands : e.stands = true) :
      Moves (call k e saved (.deciding before status))
        (call k e saved (.leaving (.returned status)))
  | allowed (k e saved before status) (close : e.deed.isClose = true) :
      Moves (call k e saved (.deciding before status)) (call k e saved .closing)
  | played (k e saved status) :
      Moves (call k e saved (.playing status)) (call k e saved (.telling status))
  | unscripted (k e saved) (status : QueueSuccess) :
      Moves (call k e saved (.playing status)) (call k e saved (.leaving (.returned status)))
  | interrupted (k e saved status) :
      Moves (call k e saved (.playing status)) (call k e saved (.leaving .interrupted))
  | told (k e saved) (status : QueueSuccess) :
      Moves (call k e saved (.telling status)) (call k e saved (.leaving (.returned status)))
  | missed (k e saved) (refusal : QueueRefusal) :
      Moves (call k e saved .closing) (call k e saved (.leaving (.returned refusal)))
  | left (k e saved answer) :
      Moves (call k e saved (.leaving answer)) (call k e saved (.returning answer))
  | hostIn : Moves (host false) (host true)

inductive Next (s : QueueRoom) : QueueActivity → QueueRoom → Option QueueActivity → Prop
  | move {a a' b} (moves : a.Moves a') (keeps : s.ledger.KeepsQueues b.native.ledger) :
      Next s a { s with bridge := b } (some a')
  | look (k e saved) {b} (keeps : s.ledger.KeepsQueues b.native.ledger) :
      Next s (call k e saved .looking) { s with bridge := b }
        (some (call k e saved (.changing (e.deed.found s.ledger))))
  | change (k e saved before status) {b} (open_ : e.deed.isClose = false)
      (applies : e.deed.Applies s.ledger)
      (performs : b.native.ledger = (e.deed.perform s.ledger).2) :
      Next s (call k e saved (.changing before))
        { s with bridge := b, accepted := s.accepted ++ if e.stands then [k] else [] }
        (some (call k e saved (.entering before status)))
  | undo (k e saved before) (refusal : QueueRefusal) {b}
      (undoes : b.native.ledger = e.deed.undo before s.ledger) :
      Next s (call k e saved (.undoing before refusal)) { s with bridge := b }
        (some (call k e saved (.leaving (.returned refusal))))
  | close (k e saved) (status : QueueSuccess) {b} (applies : e.deed.Applies s.ledger)
      (performs : b.native.ledger = (e.deed.perform s.ledger).2) :
      Next s (call k e saved .closing) { s with bridge := b, accepted := s.accepted ++ [k] }
        (some (call k e saved (.leaving (.returned status))))
  | finish (k e saved answer) {b} (keeps : s.ledger.KeepsQueues b.native.ledger) :
      Next s (call k e saved (.returning answer))
        { s with bridge := b, ended := s.ended ++ [(k, answer)] } none
  | hostOut {b} (keeps : s.ledger.KeepsQueues b.native.ledger) :
      Next s (host true) { s with bridge := b } none

end QueueActivity

def SameQueues (b b' : Bridge Stage) : Prop := b.native.ledger.KeepsQueues b'.native.ledger

private theorem sameQueues_frame : Frame SameQueues where
  same hn _ := .of_eq (by rw [hn]) (by rw [hn])
  trans := Ledger.KeepsQueues.trans

namespace Stage

private theorem sameQueues_observe (call : NativeCall) : Within SameQueues (observe call) :=
  Follows.within (follows_observe fun _ _ _ => .of_eq rfl rfl)

private theorem sameQueues_passOn (e : NativeEvent) : Within SameQueues (passOn .quiet e) := by
  apply within_bind sameQueues_frame (within_modifyNative fun _ => .of_eq rfl rfl)
  intro _
  apply within_bind sameQueues_frame (within_onNative fun _ => .of_eq rfl rfl)
  intro next
  cases next with
  | none => exact within_throw sameQueues_frame _
  | some e =>
    refine within_holding (fun _ _ h => h) ?_
    exact within_tell sameQueues_frame (fun _ _ => .of_eq rfl rfl)
      (fun _ => within_pure sameQueues_frame _) e

private theorem sameQueues_playPush (batch : List ScriptedPush) :
    Within SameQueues (playPush .quiet batch) := by
  apply within_bind sameQueues_frame
  · exact (closed_mapM (g := pushMessage) (closed_follows sameQueues_frame.composes)
      fun p _ => (within_pushMessage sameQueues_frame p).follows).within
  · exact fun _ => sameQueues_passOn _

end Stage

namespace QueueDeed

variable {d : QueueDeed}

private theorem prepare_of_isClose (h : d.isClose = true) (l : Ledger) : (d.prepare l).2 = l := by
  cases d <;> first | rfl | cases h

private theorem prepare_of_not_isClose (h : d.isClose = false) (l : Ledger) :
    d.prepare l = d.perform l := by
  cases d <;> first | rfl | cases h

end QueueDeed

namespace QueueErrand

variable {e : QueueErrand}

theorem isUndone_iff : e.isUndone = true ↔ e.code ≠ Code.success ∧ e.deed.isClose = false := by
  simp [isUndone]

theorem stands_iff : e.stands = true ↔ e.code = Code.success ∧ e.deed.isClose = false := by
  simp [stands]

theorem stands_of_isClose (h : e.deed.isClose = true) : e.stands = false := by
  simp [stands, h]

end QueueErrand

namespace QueueActivity

variable {s : QueueRoom} {t : ThreadId} {b' : Bridge Stage} {k : Nat} {e : QueueErrand}
  {saved : Nat} {before : Option QueueOptions} {a : QueueActivity} {a' : Option QueueActivity}

private theorem next_of_advance_changing
    (h : (call k e saved (.changing before)).advance { s.bridge with thread := t } = .ok a' b') :
    (call k e saved (.changing before)).Next s
      (s.advanced b' (call k e saved (.changing before)) a') a' := by
  obtain ⟨status, b₁, hprepare, h⟩ := bind_eq_ok.mp h
  obtain ⟨hstatus, hledger, -⟩ := Stage.ledgerUpdate_ok hprepare
  have hledger : b₁.native.ledger = (e.deed.prepare s.ledger).2 := hledger
  have hstatus : status = (e.deed.prepare s.ledger).1 := hstatus
  cases hclose : e.deed.isClose with
  | true =>
    rw [QueueDeed.prepare_of_isClose hclose] at hledger
    have hkeeps : s.ledger.KeepsQueues b₁.native.ledger :=
      .of_eq (by rw [hledger]) (by rw [hledger])
    split at h
    · cases h
      rw [QueueRoom.advanced, QueueErrand.stands_of_isClose hclose, if_neg Bool.false_ne_true,
        List.append_nil]
      exact .move (.sought k e saved before _ hclose) hkeeps
    · next hrefused =>
      cases h
      exact .move (.refused k e saved before ⟨status, hrefused⟩) hkeeps
  | false =>
    rw [QueueDeed.prepare_of_not_isClose hclose] at hledger hstatus
    split at h
    · next hsuccess =>
      cases h
      rw [hstatus] at hsuccess
      exact .change k e saved before _ hclose (QueueDeed.success_iff_applies.mp hsuccess) hledger
    · next hrefused =>
      cases h
      have hsame : b'.native.ledger = s.ledger := by
        rw [hledger]
        refine QueueDeed.perform_of_refused fun happlies => hrefused ?_
        rw [hstatus]
        exact QueueDeed.success_iff_applies.mpr happlies
      exact .move (.refused k e saved before ⟨status, hrefused⟩)
        (.of_eq (by rw [hsame]) (by rw [hsame]))

private theorem next_of_advance_deciding {status : QueueSuccess}
    (h : (call k e saved (.deciding before status)).advance { s.bridge with thread := t } =
      .ok a' b') :
    (call k e saved (.deciding before status)).Next s
      (s.advanced b' (call k e saved (.deciding before status)) a') a' := by
  obtain ⟨code, b₁, hsettle, h⟩ := bind_eq_ok.mp h
  obtain ⟨hcode, hledger⟩ := Stage.settle_ok hsettle
  have hkeeps : s.ledger.KeepsQueues b₁.native.ledger := by
    rw [hledger]
    exact .of_eq rfl rfl
  subst hcode
  split at h
  · next hopposed =>
    split at h
    · next hclose =>
      cases h
      exact .move (.barred k e saved before status _ hclose) hkeeps
    · next hclose =>
      cases h
      have hundone := QueueErrand.isUndone_iff.mpr ⟨hopposed, Bool.not_eq_true _ ▸ hclose⟩
      exact .move (.opposed k e saved before status _ hundone) hkeeps
  · next hallowed =>
    have hstands (hclose : e.deed.isClose = false) : e.stands = true :=
      QueueErrand.stands_iff.mpr ⟨Decidable.not_not.mp hallowed, hclose⟩
    cases hdeed : e.deed with
    | openQueue uri flags options =>
      rw [hdeed] at h
      cases h
      exact .move (.opened k e saved before status (hstands (by rw [hdeed]; rfl))) hkeeps
    | configureQueue q options =>
      rw [hdeed] at h
      cases h
      exact .move (.configured k e saved before status (hstands (by rw [hdeed]; rfl))) hkeeps
    | closeQueue q =>
      rw [hdeed] at h
      cases h
      exact .move (.allowed k e saved before status (by rw [hdeed]; rfl)) hkeeps

private theorem next_of_advance_closing
    (h : (call k e saved .closing).advance { s.bridge with thread := t } = .ok a' b') :
    (call k e saved .closing).Next s (s.advanced b' (call k e saved .closing) a') a' := by
  obtain ⟨status, b₁, hperform, h⟩ := bind_eq_ok.mp h
  obtain ⟨hstatus, hledger, -⟩ := Stage.ledgerUpdate_ok hperform
  have hledger : b₁.native.ledger = (e.deed.perform s.ledger).2 := hledger
  have hstatus : status = (e.deed.perform s.ledger).1 := hstatus
  cases h
  by_cases happlies : e.deed.Applies s.ledger
  · have hsuccess : status.code = Code.success := by
      rw [hstatus]
      exact QueueDeed.success_iff_applies.mpr happlies
    rw [QueueRoom.advanced, QueueAnswer.accepts, if_pos (beq_iff_eq.mpr hsuccess)]
    exact .close k e saved ⟨status, hsuccess⟩ happlies hledger
  · have hrefused : status.code ≠ Code.success := by
      rw [hstatus]
      exact fun hsuccess => happlies (QueueDeed.success_iff_applies.mp hsuccess)
    rw [QueueDeed.perform_of_refused happlies] at hledger
    rw [QueueRoom.advanced, QueueAnswer.accepts, if_neg (by simpa using hrefused),
      List.append_nil]
    exact .move (.missed k e saved ⟨status, hrefused⟩) (.of_eq (by rw [hledger]) (by rw [hledger]))

private theorem next_of_advance_playing {status : QueueSuccess}
    (h : (call k e saved (.playing status)).advance { s.bridge with thread := t } = .ok a' b') :
    (call k e saved (.playing status)).Next s
      (s.advanced b' (call k e saved (.playing status)) a') a' := by
  obtain ⟨front, b₁, hpop, h⟩ := bind_eq_ok.mp h
  have hkeeps : s.ledger.KeepsQueues b₁.native.ledger := by
    cases hpop
    exact .of_eq rfl rfl
  cases front with
  | none =>
    cases h
    exact .move (.unscripted k e saved status) hkeeps
  | some batch =>
    obtain ⟨_, b₂, hplay, h⟩ := bind_eq_ok.mp h
    cases h
    exact .move (.played k e saved status)
      (hkeeps.trans ((Stage.sameQueues_playPush batch).ok hplay))

private theorem next_of_advance_ok (h : a.advance { s.bridge with thread := t } = .ok a' b') :
    a.Next s (s.advanced b' a a') a' := by
  have keeps {b : Bridge Stage} (hsame : Same { s.bridge with thread := t } b) :
      s.ledger.KeepsQueues b.native.ledger := .of_eq (by rw [hsame.1]; rfl) (by rw [hsame.1]; rfl)
  cases a with
  | host entered =>
    cases entered with
    | false =>
      obtain ⟨_, b₁, henter, h⟩ := bind_eq_ok.mp h
      cases h
      exact .move .hostIn (keeps ((within_enterHost same_frame 1).ok henter))
    | true =>
      cases h
      exact .hostOut (.of_eq rfl rfl)
  | call k e saved stage =>
    cases stage with
    | arriving =>
      obtain ⟨out, b₁, hout, h⟩ := bind_eq_ok.mp h
      cases h
      exact .move (.out ..) (keeps ((within_stepOut same_frame).ok hout))
    | observing =>
      obtain ⟨_, b₁, hobserve, h⟩ := bind_eq_ok.mp h
      cases h
      have hkeeps : SameQueues { s.bridge with thread := t } b' :=
        (Stage.sameQueues_observe _).ok hobserve
      exact .move (.observed ..) hkeeps
    | looking =>
      obtain ⟨n, b₁, hnative, h⟩ := bind_eq_ok.mp h
      cases hnative
      cases h
      exact .look k e saved (.of_eq rfl rfl)
    | changing before => exact next_of_advance_changing h
    | entering before status =>
      obtain ⟨_, b₁, henter, h⟩ := bind_eq_ok.mp h
      cases h
      exact .move (.entered ..) (keeps ((within_enterHost same_frame 1).ok henter))
    | deciding before status => exact next_of_advance_deciding h
    | undoing before refusal =>
      obtain ⟨_, b₁, hundo, h⟩ := bind_eq_ok.mp h
      cases h
      exact .undo k e saved before refusal (Stage.modifyLedger_ok hundo)
    | closing => exact next_of_advance_closing h
    | playing status => exact next_of_advance_playing h
    | telling status =>
      cases h
      exact .move (.told ..) (.of_eq rfl rfl)
    | leaving answer =>
      cases h
      exact .move (.left ..) (.of_eq rfl rfl)
    | returning answer =>
      obtain ⟨_, b₁, hback, h⟩ := bind_eq_ok.mp h
      cases h
      exact .finish k e saved answer (keeps ((within_stepBack same_frame saved).ok hback))

private theorem next_of_advance_panic {cause : Panic}
    (h : a.advance { s.bridge with thread := t } = .error (.panic cause) b') :
    ∃ a', a.unwound = some a' ∧ a.Moves a' ∧ s.ledger.KeepsQueues b'.native.ledger := by
  cases a with
  | host entered =>
    exfalso
    cases entered with
    | false =>
      rcases bind_eq_error.mp h with h | ⟨_, b₁, _, h⟩
      · exact neverPanics_enterHost _ _ _ _ h
      · cases h
    | true => cases h
  | call k e saved stage =>
    cases stage with
    | observing =>
      rcases bind_eq_error.mp h with h | ⟨_, b₁, _, h⟩
      · have hkeeps : SameQueues { s.bridge with thread := t } b' :=
          (Stage.sameQueues_observe _).panic h
        exact ⟨_, rfl, .unexpected k e saved, hkeeps⟩
      · cases h
    | changing before =>
      rcases bind_eq_error.mp h with h | ⟨status, b₁, _, h⟩
      · cases h
      · split at h <;> cases h
    | entering before status =>
      rcases bind_eq_error.mp h with h | ⟨_, b₁, _, h⟩
      · exact absurd h (neverPanics_enterHost _ _ _ _)
      · cases h
    | deciding before status =>
      rcases bind_eq_error.mp h with h | ⟨code, b₁, _, h⟩
      · cases h
      · split at h
        · split at h <;> cases h
        · cases hdeed : e.deed
          all_goals
            rw [hdeed] at h
            cases h
    | playing status =>
      rcases bind_eq_error.mp h with h | ⟨front, b₁, hpop, h⟩
      · cases h
      · have hkeeps : s.ledger.KeepsQueues b₁.native.ledger := by
          cases hpop
          exact .of_eq rfl rfl
        cases front with
        | none => cases h
        | some batch =>
          rcases bind_eq_error.mp h with h | ⟨_, b₂, _, h⟩
          · exact ⟨_, rfl, .interrupted k e saved status,
              hkeeps.trans ((Stage.sameQueues_playPush batch).panic h)⟩
          · cases h
    | returning answer =>
      rcases bind_eq_error.mp h with h | ⟨_, b₁, _, h⟩
      · exact absurd h (neverPanics_stepBack _ _ _ _)
      · cases h
    | arriving | looking | undoing before refusal | closing | telling status | leaving answer =>
      cases h

end QueueActivity

/-- A move begins something new on a stack of which the innermost is open, it is one of the
innermost activity, or it is made outside of the calls. -/
theorem next_of_queueProgram {s s' : QueueRoom} {t : ThreadId} {stack stack' : List QueueActivity}
    {m : QueueMove} (h : queueProgram s t stack m = some (s', stack')) :
    (∃ task, stack.head?.all QueueActivity.isOpen = true ∧ s' = (s.start t task).1 ∧
        stack' = (s.start t task).2 :: stack) ∨
      (m = .proceed ∧ ∃ a rest a', stack = a :: rest ∧ stack' = a'.toList ++ rest ∧
        a.Next s s' a') ∨
      ∃ b, s.ledger.KeepsQueues b.native.ledger ∧ s' = { s with bridge := b } ∧ stack' = stack := by
  unfold queueProgram at h
  split at h
  · next task =>
    split at h
    · next hopen =>
      cases h
      exact .inl ⟨task, hopen, rfl, rfl⟩
    · cases h
  · next a rest =>
    split at h
    · next a' b hadvance =>
      cases h
      exact .inr (.inl ⟨rfl, a, rest, a', rfl, rfl, QueueActivity.next_of_advance_ok hadvance⟩)
    · next cause b hadvance =>
      cases h
      obtain ⟨a', hunwound, hmoves, hkeeps⟩ := QueueActivity.next_of_advance_panic hadvance
      exact .inr (.inl ⟨rfl, a, rest, some a', rfl, by rw [hunwound], .move hmoves hkeeps⟩)
    · cases h
  · next stack f =>
    split at h
    · next hkeeps =>
      cases h
      exact .inr (.inr ⟨_, hkeeps, rfl, rfl⟩)
    · cases h
  · cases h

end BrokerBridge
