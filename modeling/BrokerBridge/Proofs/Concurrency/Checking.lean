import BrokerBridge.Native.Expectation
import BrokerBridge.Proofs.Concurrency.Threads

/-!
# Checks on threads

Checks of any number of threads against one queue of expected calls, cut where each of them locks
the queue. An automatic queue is told of a call in one section and asked for the next expectation
in another, so a check can be given what another thread has declared.
-/

namespace BrokerBridge

/-- Where a check stands: `turn` calls had been announced before its own, and `place` expectations
had been taken before the one that it took. -/
inductive CheckStage where
  | announcing
  | taking (turn : Nat)
  | recording (turn place : Nat)
deriving DecidableEq

structure CheckActivity where
  call : NativeCall
  stage : CheckStage

structure Check where
  thread : ThreadId
  call : NativeCall
  turn : Nat
  place : Nat
  result : Except Mismatch Unit

namespace Check

def passed (c : Check) : Bool := c.result.isOk

def source (c : Check) : ThreadId × NativeCall := (c.thread, c.call)

/-- The answer of a check to which an expectation is given. -/
def verdict (expected call : NativeCall) : Except Mismatch Unit :=
  if expected.agrees call then .ok () else .error (.unexpected expected call)

/-- A check made its announcement at its turn, and it is judged by the one at its place. -/
def Sound (announced : List NativeCall) (c : Check) : Prop :=
  announced[c.turn]? = some c.call ∧
    ∃ expected, announced[c.place]? = some expected ∧ c.result = verdict expected c.call

end Check

/-- What threads share, with the calls announced, the number of expectations taken, and the checks
begun and ended, each in order. -/
structure CheckRoom where
  queue : ExpectationQueue
  announced : List NativeCall := []
  taken : Nat := 0
  begun : List (ThreadId × NativeCall) := []
  ended : List Check := []

namespace CheckRoom

def start (s : CheckRoom) (t : ThreadId) (call : NativeCall) : CheckRoom :=
  { s with begun := s.begun ++ [(t, call)] }

def announce (s : CheckRoom) (call : NativeCall) : CheckRoom :=
  { s with queue := s.queue.announce call, announced := s.announced ++ [call] }

def take (s : CheckRoom) : CheckRoom :=
  { s with queue := s.queue.take.2, taken := s.taken + 1 }

def record (s : CheckRoom) (call : NativeCall) : CheckRoom :=
  { s with queue := s.queue.record call }

def close (s : CheckRoom) (c : Check) : CheckRoom := { s with ended := s.ended ++ [c] }

def report (s : CheckRoom) : List (ThreadId × String × Bool) :=
  s.ended.map fun c => (c.thread, c.call.name, c.passed)

end CheckRoom

def CheckActivity.proceed (s : CheckRoom) (t : ThreadId) :
    CheckActivity → CheckRoom × Option CheckActivity
  | ⟨call, .announcing⟩ => (s.announce call, some ⟨call, .taking s.announced.length⟩)
  | ⟨call, .taking turn⟩ =>
      match s.queue.take.1 with
      | none => (s.close ⟨t, call, turn, s.taken, .error (.exhausted call)⟩, none)
      | some expected =>
          if expected.agrees call then (s.take, some ⟨call, .recording turn s.taken⟩)
          else (s.take.close ⟨t, call, turn, s.taken, .error (.unexpected expected call)⟩, none)
  | ⟨call, .recording turn place⟩ =>
      ((s.record call).close ⟨t, call, turn, place, .ok ()⟩, none)

inductive CheckMove where
  | begin (call : NativeCall)
  | proceed

/-- What threads do with the queue. A check calls nothing that could begin another. -/
def checkProgram : Program CheckRoom CheckActivity CheckMove := fun s t stack m =>
  match m, stack with
  | .begin call, [] => some (s.start t call, [⟨call, .announcing⟩])
  | .proceed, [a] => some ((a.proceed s t).1, (a.proceed s t).2.toList)
  | _, _ => none

abbrev CheckThreads (n : Nat) := Threads n CheckRoom CheckActivity

def CheckThreads.idle (n : Nat) (q : ExpectationQueue) : CheckThreads n := .atRest { queue := q }

namespace CheckRoom

inductive Next (s : CheckRoom) (t : ThreadId) :
    Option CheckActivity → CheckRoom → Option CheckActivity → Prop
  | start (call) : Next s t none (s.start t call) (some ⟨call, .announcing⟩)
  | announce (call) : Next s t (some ⟨call, .announcing⟩) (s.announce call)
      (some ⟨call, .taking s.announced.length⟩)
  | miss (call turn) (none_left : s.queue.pending = []) : Next s t (some ⟨call, .taking turn⟩)
      (s.close ⟨t, call, turn, s.taken, .error (.exhausted call)⟩) none
  | take (call turn expected) (first : s.queue.pending.head? = some expected)
      (agrees : expected.agrees call = true) :
      Next s t (some ⟨call, .taking turn⟩) s.take (some ⟨call, .recording turn s.taken⟩)
  | refuse (call turn expected) (first : s.queue.pending.head? = some expected)
      (differs : expected.agrees call = false) : Next s t (some ⟨call, .taking turn⟩)
      (s.take.close ⟨t, call, turn, s.taken, .error (.unexpected expected call)⟩) none
  | record (call turn place) : Next s t (some ⟨call, .recording turn place⟩)
      ((s.record call).close ⟨t, call, turn, place, .ok ()⟩) none

private theorem next_of_proceed (s : CheckRoom) (t : ThreadId) (a : CheckActivity) :
    s.Next t (some a) (a.proceed s t).1 (a.proceed s t).2 := by
  obtain ⟨call, stage⟩ := a
  cases stage with
  | announcing => exact .announce call
  | recording turn place => exact .record call turn place
  | taking turn =>
    cases hhead : s.queue.pending.head? with
    | none =>
      simp only [CheckActivity.proceed, ExpectationQueue.take, hhead]
      exact .miss call turn (List.head?_eq_none_iff.mp hhead)
    | some expected =>
      cases hagrees : expected.agrees call with
      | true =>
        simp only [CheckActivity.proceed, ExpectationQueue.take, hhead, hagrees, if_true]
        exact .take call turn expected hhead hagrees
      | false =>
        simp only [CheckActivity.proceed, ExpectationQueue.take, hhead, hagrees]
        exact .refuse call turn expected hhead hagrees

end CheckRoom

/-! ## Expectations and their checks -/

private theorem ExpectationQueue.announce_of_auto {q : ExpectationQueue} (h : q.mode = .auto)
    (call : NativeCall) : q.announce call = q.expect call := by
  rw [announce, h]

theorem NativeCall.sameProperties_self (s : PropertySet) : sameProperties s s = true := by
  have hentries : (s.entries.all fun e => s.get? e.1 == some e.2) = true := by
    rw [List.all_eq_true]
    intro e he
    exact beq_iff_eq.mpr (OrderedMap.get?_of_mem he)
  rw [sameProperties, hentries, beq_self_eq_true, Bool.and_self]

theorem NativeCall.agrees_self (call : NativeCall) : call.agrees call = true := by
  cases call with
  | post uri payload properties compression =>
    simp [agrees, sameProperties_self]
  | _ => simp [agrees]

namespace CheckActivity

def waiting : CheckActivity → Nat
  | ⟨_, .taking _⟩ => 1
  | _ => 0

def turn? : CheckActivity → Option Nat
  | ⟨_, .taking turn⟩ | ⟨_, .recording turn _⟩ => some turn
  | _ => none

def place? : CheckActivity → Option Nat
  | ⟨_, .recording _ place⟩ => some place
  | _ => none

def Backed (announced : List NativeCall) : CheckActivity → Prop
  | ⟨_, .announcing⟩ => True
  | ⟨call, .taking turn⟩ => announced[turn]? = some call
  | ⟨call, .recording turn place⟩ => announced[turn]? = some call ∧
      ∃ expected, announced[place]? = some expected ∧ expected.agrees call = true

def InTurn (taken : Nat) : CheckActivity → Prop
  | ⟨_, .announcing⟩ => True
  | ⟨_, .taking turn⟩ => turn = taken
  | ⟨_, .recording turn place⟩ => turn = place

private theorem InTurn.of_waiting {taken : Nat} {a : CheckActivity} (h : a.InTurn taken)
    (hwaiting : a.waiting = 0) (taken' : Nat) : a.InTurn taken' := by
  obtain ⟨call, stage⟩ := a
  cases stage with
  | taking turn => cases hwaiting
  | announcing | recording turn place => exact h

theorem Backed.mono {announced announced' : List NativeCall} (h : announced <+: announced')
    {a : CheckActivity} (ha : a.Backed announced) : a.Backed announced' := by
  obtain ⟨call, stage⟩ := a
  cases stage with
  | announcing => exact True.intro
  | taking turn => exact getElem?_of_initial h ha
  | recording turn place =>
    obtain ⟨hturn, expected, hplace, hagrees⟩ := ha
    exact ⟨getElem?_of_initial h hturn, expected, getElem?_of_initial h hplace, hagrees⟩

end CheckActivity

theorem Check.Sound.mono {announced announced' : List NativeCall} (h : announced <+: announced')
    {c : Check} (hc : c.Sound announced) : c.Sound announced' := by
  obtain ⟨hturn, expected, hplace, hresult⟩ := hc
  exact ⟨getElem?_of_initial h hturn, expected, getElem?_of_initial h hplace, hresult⟩

namespace CheckThreads

variable {n : Nat} {s s' : CheckThreads n} {q : ExpectationQueue}

private theorem step?_proceed {t : Fin n} {a : CheckActivity} (h : s.stackOf t = [a]) :
    s.step? checkProgram t .proceed =
      some (s.set t (a.proceed s.shared t).1 (a.proceed s.shared t).2.toList) := by
  rw [Threads.step?, h]
  rfl

/-- A move begins a check or is one of the check that its thread is inside of. -/
theorem next_of_step? {t : Fin n} {m : CheckMove} (h : s.step? checkProgram t m = some s') :
    ∃ before shared after, s.stackOf t = before.toList ++ [] ∧ s.shared.Next t before shared after ∧
      s' = s.set t shared (after.toList ++ []) := by
  obtain ⟨shared, stack, hp, rfl⟩ := Threads.exists_of_step? h
  unfold checkProgram at hp
  split at hp
  · next call hstack =>
    cases hp
    exact ⟨none, _, _, hstack, .start call, rfl⟩
  · next a hstack =>
    cases hp
    exact ⟨some a, _, _, hstack, s.shared.next_of_proceed t a, by rw [List.append_nil]⟩
  · cases hp

/-! ## A check on its own -/

/-- Where no other thread comes between, the sections of a check add up to the whole of it. -/
theorem play?_alone (q : ExpectationQueue) (call : NativeCall) :
    ∃ (k : Nat) (s : CheckThreads 1),
      (idle 1 q).play? checkProgram ((0, .begin call) :: List.replicate k (0, .proceed)) = some s ∧
      s.AtRest ∧ s.shared.queue = (q.observe call).2 ∧
      s.shared.ended.map Check.result = [(q.observe call).1] := by
  have hbegin : (idle 1 q).step? checkProgram 0 (.begin call) = some ((idle 1 q).set 0
      (({ queue := q } : CheckRoom).start 0 call) [⟨call, .announcing⟩]) := rfl
  cases hpending : (q.announce call).pending with
  | nil =>
    refine ⟨2, ?_⟩
    simp [Threads.play?, hbegin, step?_proceed, CheckActivity.proceed, CheckRoom.announce,
      CheckRoom.start, CheckRoom.close, ExpectationQueue.take, ExpectationQueue.observe, hpending,
      Threads.AtRest]
    rw [← hpending]
  | cons expected rest =>
    cases hagrees : expected.agrees call with
    | false =>
      refine ⟨2, ?_⟩
      simp [Threads.play?, hbegin, step?_proceed, CheckActivity.proceed, CheckRoom.announce,
        CheckRoom.start, CheckRoom.take, CheckRoom.close, ExpectationQueue.take,
        ExpectationQueue.observe, hpending, hagrees, Threads.AtRest]
    | true =>
      refine ⟨3, ?_⟩
      simp [Threads.play?, hbegin, step?_proceed, CheckActivity.proceed, CheckRoom.announce,
        CheckRoom.start, CheckRoom.take, CheckRoom.record, CheckRoom.close, ExpectationQueue.take,
        ExpectationQueue.observe, hpending, hagrees, Threads.AtRest]

/-! ## The account of a run -/

/-- The expectations that are left are the announcements that no check has taken yet, one for each
check that waits, and each check that has taken one is judged by it. -/
structure Accounted (q : ExpectationQueue) (s : CheckThreads n) : Prop where
  auto : s.shared.queue.mode = .auto
  pending : s.shared.queue.pending = s.shared.announced.drop s.shared.taken
  balance : s.shared.taken + s.weight CheckActivity.waiting = s.shared.announced.length
  history : s.shared.queue.history =
    q.history ++ (s.shared.ended.filter Check.passed).map Check.call
  ended : ∀ c ∈ s.shared.ended, c.Sound s.shared.announced
  backed : ∀ t, ∀ a ∈ s.stackOf t, a.Backed s.shared.announced

private theorem accounted_idle (hauto : q.mode = .auto) (hpending : q.pending = []) :
    (idle n q).Accounted q where
  auto := hauto
  pending := hpending
  balance := by simp [idle, Threads.atRest, Threads.weight]
  history := (List.append_nil _).symm
  ended := by
    intro c hc
    cases hc
  backed := by
    intro t a ha
    cases ha

theorem Accounted.pending_ne_nil (hs : s.Accounted q) {t : Fin n} {call : NativeCall} {turn : Nat}
    (hmem : ⟨call, .taking turn⟩ ∈ s.stackOf t) : s.shared.queue.pending ≠ [] := by
  have hwaits := Threads.le_weight CheckActivity.waiting hmem
  have hone : CheckActivity.waiting ⟨call, .taking turn⟩ = 1 := rfl
  have hbalance := hs.balance
  intro hnil
  rw [hs.pending, List.drop_eq_nil_iff] at hnil
  omega

private theorem Accounted.first (hs : s.Accounted q) {expected : NativeCall}
    (h : s.shared.queue.pending.head? = some expected) :
    s.shared.announced[s.shared.taken]? = some expected := by
  rw [hs.pending, List.head?_drop] at h
  exact h

theorem Accounted.ended_append (hs : s.Accounted q) {c : Check} (hc : c.Sound s.shared.announced) :
    ∀ c' ∈ s.shared.ended ++ [c], c'.Sound s.shared.announced := by
  intro c' hc'
  rcases List.mem_append.mp hc' with hold | hnew
  · exact hs.ended c' hold
  · rw [List.mem_singleton.mp hnew]
    exact hc

theorem Accounted.balance_set (hs : s.Accounted q) {t : Fin n} {before after : Option CheckActivity}
    {shared : CheckRoom} (hstack : s.stackOf t = before.toList ++ [])
    (h : shared.taken + s.shared.announced.length + after.elim 0 CheckActivity.waiting =
      s.shared.taken + shared.announced.length + before.elim 0 CheckActivity.waiting) :
    shared.taken + (s.set t shared (after.toList ++ [])).weight CheckActivity.waiting =
      shared.announced.length := by
  have hbalance := hs.balance
  have hweight := Threads.weight_exchange CheckActivity.waiting hstack shared after
  omega

theorem Accounted.backed_set (hs : s.Accounted q) {t : Fin n} {before after : Option CheckActivity}
    {shared : CheckRoom} (hstack : s.stackOf t = before.toList ++ [])
    (hgrows : s.shared.announced <+: shared.announced)
    (hafter : ∀ a ∈ after, a.Backed shared.announced) :
    ∀ u, ∀ a ∈ (s.set t shared (after.toList ++ [])).stackOf u, a.Backed shared.announced :=
  Threads.forall_mem_exchange (fun u a ha => (hs.backed u a ha).mono hgrows) hstack hafter shared

private theorem Accounted.judged (hs : s.Accounted q) {t : Fin n} {call expected : NativeCall}
    {turn : Nat}
    (hmem : ⟨call, .taking turn⟩ ∈ s.stackOf t)
    (hfirst : s.shared.queue.pending.head? = some expected) :
    Check.Sound s.shared.announced
      ⟨t, call, turn, s.shared.taken, Check.verdict expected call⟩ :=
  ⟨hs.backed t _ hmem, expected, hs.first hfirst, rfl⟩

private theorem Accounted.next (hs : s.Accounted q) {t : Fin n}
    {before after : Option CheckActivity}
    {shared : CheckRoom} (hstack : s.stackOf t = before.toList ++ [])
    (hnext : s.shared.Next t before shared after) :
    Accounted q (s.set t shared (after.toList ++ [])) := by
  have hmem {a : CheckActivity} (ha : a ∈ before) : a ∈ s.stackOf t :=
    Threads.mem_of_exchange hstack ha
  cases hnext with
  | start call =>
    refine ⟨hs.auto, hs.pending, hs.balance_set hstack rfl, hs.history, hs.ended, ?_⟩
    refine hs.backed_set hstack (List.prefix_refl _) ?_
    rintro _ ⟨⟩
    exact True.intro
  | announce call =>
    have hgrows : s.shared.announced <+: s.shared.announced ++ [call] := List.prefix_append ..
    have hqueue := ExpectationQueue.announce_of_auto hs.auto call
    refine ⟨?_, ?_, hs.balance_set hstack ?_, ?_, fun c hc => (hs.ended c hc).mono hgrows, ?_⟩
    · simpa [CheckRoom.announce, hqueue, ExpectationQueue.expect] using hs.auto
    · have hle : s.shared.taken ≤ s.shared.announced.length := Nat.le.intro hs.balance
      simp [CheckRoom.announce, hqueue, ExpectationQueue.expect, hs.pending,
        List.drop_append_of_le_length hle]
    · simp only [Threads.shared_set, CheckRoom.announce, List.length_append, List.length_singleton,
        Option.elim, CheckActivity.waiting]
      omega
    · simpa [CheckRoom.announce, hqueue, ExpectationQueue.expect] using hs.history
    · refine hs.backed_set hstack hgrows ?_
      rintro _ ⟨⟩
      exact List.getElem?_concat_length
  | miss call turn none_left =>
    exact absurd none_left (hs.pending_ne_nil (hmem rfl))
  | take call turn expected first agrees =>
    refine ⟨hs.auto, ?_, hs.balance_set hstack ?_, hs.history, hs.ended, ?_⟩
    · simp [CheckRoom.take, ExpectationQueue.take, hs.pending, List.tail_drop]
    · simp only [Threads.shared_set, CheckRoom.take, Option.elim, CheckActivity.waiting]
      omega
    · refine hs.backed_set hstack (List.prefix_refl _) ?_
      rintro _ ⟨⟩
      exact ⟨hs.backed t _ (hmem rfl), expected, hs.first first, agrees⟩
  | refuse call turn expected first differs =>
    have hjudged := hs.judged (hmem rfl) first
    rw [Check.verdict, differs, if_neg Bool.false_ne_true] at hjudged
    have hfails : Check.passed
        ⟨t, call, turn, s.shared.taken, .error (.unexpected expected call)⟩ = false := rfl
    refine ⟨hs.auto, ?_, hs.balance_set hstack ?_, ?_, hs.ended_append hjudged, ?_⟩
    · simp [CheckRoom.take, CheckRoom.close, ExpectationQueue.take, hs.pending, List.tail_drop]
    · simp only [Threads.shared_set, CheckRoom.close, CheckRoom.take, Option.elim,
        CheckActivity.waiting]
      omega
    · simpa [CheckRoom.take, CheckRoom.close, ExpectationQueue.take, hfails] using hs.history
    · refine hs.backed_set hstack (List.prefix_refl _) ?_
      rintro _ ⟨⟩
  | record call turn place =>
    obtain ⟨hturn, expected, hplace, hagrees⟩ := hs.backed t _ (hmem rfl)
    have hjudged : Check.Sound s.shared.announced ⟨t, call, turn, place, .ok ()⟩ :=
      ⟨hturn, expected, hplace, by rw [Check.verdict, if_pos hagrees]⟩
    have hpasses : Check.passed ⟨t, call, turn, place, .ok ()⟩ = true := rfl
    refine ⟨hs.auto, hs.pending, hs.balance_set hstack rfl, ?_, hs.ended_append hjudged, ?_⟩
    · simp [CheckRoom.record, CheckRoom.close, ExpectationQueue.record, hs.history, hpasses]
    · refine hs.backed_set hstack (List.prefix_refl _) ?_
      rintro _ ⟨⟩

/-! ## Turns and places -/

/-- What a check has of `mark` while it is open and of `final` once it has ended makes up the
numbers below `top`, each of them once. -/
def Tallied (mark : CheckActivity → Option Nat) (final : Check → Nat) (top : Nat)
    (s : CheckThreads n) : Prop :=
  ∀ k, (s.shared.ended.map final).count k + s.weight (fun a => (mark a).toList.count k) =
    (List.range top).count k

private theorem Tallied.set {mark : CheckActivity → Option Nat} {final : Check → Nat}
    {top top' : Nat}
    (hs : s.Tallied mark final top) {t : Fin n} {before after : Option CheckActivity}
    {shared : CheckRoom} {opened closed : List Nat} (hstack : s.stackOf t = before.toList ++ [])
    (hended : shared.ended.map final = s.shared.ended.map final ++ closed)
    (htop : List.range top' = List.range top ++ opened)
    (h : (before.bind mark).toList ++ opened = closed ++ (after.bind mark).toList) :
    Tallied mark final top' (s.set t shared (after.toList ++ [])) := by
  intro k
  have hk := hs k
  have hweight := Threads.weight_exchange (fun a => (mark a).toList.count k) hstack shared after
  have hcount := congrArg (List.count k) h
  have hbind (a : Option CheckActivity) :
      (a.bind mark).toList.count k = a.elim 0 fun a => (mark a).toList.count k := by
    cases a <;> rfl
  rw [List.count_append, List.count_append, hbind, hbind] at hcount
  rw [Threads.shared_set, hended, htop, List.count_append, List.count_append]
  omega

private theorem Tallied.perm {mark : CheckActivity → Option Nat} {final : Check → Nat} {top : Nat}
    (hs : s.Tallied mark final top) (hrest : s.AtRest) :
    (s.shared.ended.map final).Perm (List.range top) := by
  rw [List.perm_iff_count]
  intro k
  have hk := hs k
  rwa [Threads.weight_eq_zero_of_atRest hrest, Nat.add_zero] at hk

/-- Each check has a turn and a place of its own, and each thread's checks end in the order in
which it began them. -/
structure Ordered (s : CheckThreads n) : Prop where
  turns : s.Tallied CheckActivity.turn? Check.turn s.shared.announced.length
  places : s.Tallied CheckActivity.place? Check.place s.shared.taken
  order : ∀ t : Fin n, s.shared.begun.filter (·.1 = t.val) =
    (s.shared.ended.map Check.source).filter (·.1 = t.val) ++
      (s.stackOf t).map fun a => (t.val, a.call)
  known : ∀ x ∈ s.shared.begun ++ s.shared.ended.map Check.source, x.1 < n

private theorem ordered_idle (q : ExpectationQueue) : (idle n q).Ordered where
  turns := by
    intro k
    simp [idle, Threads.atRest, Threads.weight]
  places := by
    intro k
    simp [idle, Threads.atRest, Threads.weight]
  order := fun t => rfl
  known := by
    intro x hx
    cases hx

section

variable {t : Fin n} {before after : Option CheckActivity} {shared : CheckRoom}
  {opened closed : List NativeCall} (hs : s.Ordered) (hstack : s.stackOf t = before.toList ++ [])
  (hbegun : shared.begun = s.shared.begun ++ opened.map (t.val, ·))
  (hended : shared.ended.map Check.source =
    s.shared.ended.map Check.source ++ closed.map (t.val, ·))

include hs hbegun hended

theorem Ordered.known_set : ∀ x ∈ shared.begun ++ shared.ended.map Check.source, x.1 < n := by
  intro x hx
  have hmade (calls : List NativeCall) (hx : x ∈ calls.map (t.val, ·)) : x.1 < n := by
    obtain ⟨call, _, rfl⟩ := List.mem_map.mp hx
    exact t.isLt
  rw [hbegun, hended, List.mem_append, List.mem_append, List.mem_append] at hx
  rcases hx with (hold | hnew) | (hold | hnew)
  · exact hs.known x (List.mem_append_left _ hold)
  · exact hmade opened hnew
  · exact hs.known x (List.mem_append_right _ hold)
  · exact hmade closed hnew

include hstack

theorem Ordered.order_set
    (h : before.toList.map CheckActivity.call ++ opened =
      closed ++ after.toList.map CheckActivity.call) (u : Fin n) :
    shared.begun.filter (·.1 = u.val) =
      (shared.ended.map Check.source).filter (·.1 = u.val) ++
        ((s.set t shared (after.toList ++ [])).stackOf u).map fun a => (u.val, a.call) := by
  have hu := hs.order u
  have hcalls (l : List CheckActivity) :
      (l.map fun a => (t.val, a.call)) = (l.map CheckActivity.call).map (t.val, ·) := by
    rw [List.map_map]
    rfl
  rw [hbegun, hended, List.filter_append, List.filter_append, hu]
  by_cases hut : u = t
  · subst hut
    have hown (calls : List NativeCall) :
        (calls.map (u.val, ·)).filter (·.1 = u.val) = calls.map (u.val, ·) := by
      rw [List.filter_eq_self]
      intro x hx
      obtain ⟨call, _, rfl⟩ := List.mem_map.mp hx
      exact decide_eq_true rfl
    rw [hown, hown, Threads.stackOf_set_self, hstack, List.append_nil, List.append_nil, hcalls,
      hcalls, List.append_assoc, List.append_assoc, ← List.map_append, ← List.map_append, h]
  · have hother (calls : List NativeCall) : (calls.map (t.val, ·)).filter (·.1 = u.val) = [] := by
      rw [List.filter_eq_nil_iff]
      intro x hx
      obtain ⟨call, _, rfl⟩ := List.mem_map.mp hx
      simpa using fun he => hut (Fin.ext he.symm)
    rw [hother, hother, List.append_nil, List.append_nil, Threads.stackOf_set_of_ne s hut]

end

private theorem Ordered.next (hs : s.Ordered) (hq : s.Accounted q) {t : Fin n}
    {before after : Option CheckActivity} {shared : CheckRoom}
    (hstack : s.stackOf t = before.toList ++ []) (hnext : s.shared.Next t before shared after) :
    Ordered (s.set t shared (after.toList ++ [])) := by
  have hsame {α : Type} {l : List α} : l = l ++ [] := (List.append_nil l).symm
  have hnone {l : List (ThreadId × NativeCall)} : l = l ++ [].map (t.val, ·) := hsame
  have hannounced (call : NativeCall) : List.range (s.shared.announced ++ [call]).length =
      List.range s.shared.announced.length ++ [s.shared.announced.length] := by
    rw [List.length_append, List.length_singleton, List.range_succ]
  cases hnext with
  | start call =>
    have hbegun : (s.shared.start t call).begun = s.shared.begun ++ [call].map (t.val, ·) := rfl
    exact ⟨hs.turns.set hstack hsame hsame rfl, hs.places.set hstack hsame hsame rfl,
      hs.order_set hstack hbegun hnone rfl, hs.known_set hbegun hnone⟩
  | announce call =>
    exact ⟨hs.turns.set hstack hsame (hannounced call) rfl,
      hs.places.set hstack hsame hsame rfl,
      hs.order_set hstack hnone hnone rfl, hs.known_set hnone hnone⟩
  | miss call turn none_left =>
    exact absurd none_left (hq.pending_ne_nil (Threads.mem_of_exchange hstack rfl))
  | take call turn expected first agrees =>
    exact ⟨hs.turns.set hstack hsame hsame rfl, hs.places.set hstack hsame List.range_succ rfl,
      hs.order_set hstack hnone hnone rfl, hs.known_set hnone hnone⟩
  | refuse call turn expected first differs =>
    have hended : (s.shared.take.close ⟨t, call, turn, s.shared.taken,
        .error (.unexpected expected call)⟩).ended.map Check.source =
        s.shared.ended.map Check.source ++ [call].map (t.val, ·) := List.map_append
    exact ⟨hs.turns.set hstack List.map_append hsame rfl,
      hs.places.set hstack List.map_append List.range_succ rfl,
      hs.order_set hstack hnone hended rfl, hs.known_set hnone hended⟩
  | record call turn place =>
    have hended : ((s.shared.record call).close
        ⟨t, call, turn, place, .ok ()⟩).ended.map Check.source =
        s.shared.ended.map Check.source ++ [call].map (t.val, ·) := List.map_append
    exact ⟨hs.turns.set hstack List.map_append hsame rfl,
      hs.places.set hstack List.map_append hsame rfl,
      hs.order_set hstack hnone hended rfl, hs.known_set hnone hended⟩

/-! ## One check at a time -/

/-- At most one check has announced its call and has yet to take an expectation. -/
def OneWaits (s : CheckThreads n) : Prop := s.weight CheckActivity.waiting ≤ 1

instance (s : CheckThreads n) : Decidable s.OneWaits := inferInstanceAs (Decidable (_ ≤ _))

structure InTurn (s : CheckThreads n) : Prop where
  held : ∀ t, ∀ a ∈ s.stackOf t, a.InTurn s.shared.taken
  ended : ∀ c ∈ s.shared.ended, c.turn = c.place

private theorem inTurn_idle (q : ExpectationQueue) : (idle n q).InTurn where
  held := by
    intro t a ha
    cases ha
  ended := by
    intro c hc
    cases hc

theorem InTurn.ended_append (hs : s.InTurn) {c : Check} (hc : c.turn = c.place) :
    ∀ c' ∈ s.shared.ended ++ [c], c'.turn = c'.place := by
  intro c' hc'
  rcases List.mem_append.mp hc' with hold | hnew
  · exact hs.ended c' hold
  · rw [List.mem_singleton.mp hnew]
    exact hc

private theorem InTurn.next (hs : s.InTurn) (hq : s.Accounted q) {t : Fin n}
    {before after : Option CheckActivity} {shared : CheckRoom}
    (hstack : s.stackOf t = before.toList ++ []) (hnext : s.shared.Next t before shared after)
    (hone : OneWaits s) (hone' : OneWaits (s.set t shared (after.toList ++ []))) :
    InTurn (s.set t shared (after.toList ++ [])) := by
  have hweight := Threads.weight_exchange CheckActivity.waiting hstack shared after
  have hmem {a : CheckActivity} (ha : a ∈ before) : a ∈ s.stackOf t :=
    Threads.mem_of_exchange hstack ha
  have hheld (hafter : ∀ a ∈ after, a.InTurn s.shared.taken) :=
    Threads.forall_mem_exchange hs.held hstack hafter shared
  -- A check that takes an expectation leaves none behind that waits.
  have htaken (hafter : ∀ a ∈ after, a.InTurn s.shared.taken)
      (hnone : (s.set t shared (after.toList ++ [])).weight CheckActivity.waiting = 0) (k : Nat) :
      ∀ u, ∀ a ∈ (s.set t shared (after.toList ++ [])).stackOf u, a.InTurn k := fun u a ha =>
    (hheld hafter u a ha).of_waiting (Threads.weight_eq_zero_iff.mp hnone u a ha) k
  unfold OneWaits at hone hone'
  cases hnext with
  | start call =>
    refine ⟨hheld ?_, hs.ended⟩
    rintro _ ⟨⟩
    exact True.intro
  | announce call =>
    refine ⟨hheld ?_, hs.ended⟩
    rintro _ ⟨⟩
    have hbalance := hq.balance
    simp only [Option.elim, CheckActivity.waiting] at hweight
    show s.shared.announced.length = s.shared.taken
    omega
  | miss call turn none_left =>
    exact absurd none_left (hq.pending_ne_nil (hmem rfl))
  | take call turn expected first agrees =>
    simp only [Option.elim, CheckActivity.waiting] at hweight
    refine ⟨htaken ?_ (by omega) _, hs.ended⟩
    rintro _ ⟨⟩
    exact hs.held t ⟨call, .taking turn⟩ (hmem rfl)
  | refuse call turn expected first differs =>
    simp only [Option.elim, CheckActivity.waiting] at hweight
    refine ⟨htaken ?_ (by omega) _, hs.ended_append (hs.held t _ (hmem rfl))⟩
    rintro _ ⟨⟩
  | record call turn place =>
    refine ⟨hheld ?_, hs.ended_append (hs.held t _ (hmem rfl))⟩
    rintro _ ⟨⟩

/-! ## Whole runs -/

private theorem accounted_of_play? {moves : List (Fin n × CheckMove)} (hauto : q.mode = .auto)
    (hpending : q.pending = []) (h : (idle n q).play? checkProgram moves = some s) :
    s.Accounted q ∧ s.Ordered := by
  refine Threads.play?_induction (P := fun s => Accounted q s ∧ Ordered s) ?_
    ⟨accounted_idle hauto hpending, ordered_idle q⟩ h
  rintro s t m s' - ⟨hs, hordered⟩ hstep
  obtain ⟨before, shared, after, hstack, hnext, rfl⟩ := next_of_step? hstep
  exact ⟨hs.next hstack hnext, hordered.next hs hstack hnext⟩

private theorem inTurn_of_play? {moves : List (Fin n × CheckMove)} (hauto : q.mode = .auto)
    (hpending : q.pending = []) (hone : (idle n q).Throughout checkProgram OneWaits moves)
    (h : (idle n q).play? checkProgram moves = some s) : s.InTurn := by
  refine (Threads.play?_induction_throughout (P := fun s => Accounted q s ∧ InTurn s) ?_
    ⟨accounted_idle hauto hpending, inTurn_idle q⟩ hone h).2
  rintro s t m s' - ⟨hs, hturn⟩ hone hone' hstep
  obtain ⟨before, shared, after, hstack, hnext, rfl⟩ := next_of_step? hstep
  exact ⟨hs.next hstack hnext, hturn.next hs hstack hnext hone hone'⟩

private theorem perm_of_filter_eq {l l' : List (ThreadId × NativeCall)}
    (h : ∀ t, l.filter (·.1 = t) = l'.filter (·.1 = t)) : l.Perm l' := by
  classical
  rw [List.perm_iff_count]
  intro x
  have hx := congrArg (List.count x) (h x.1)
  rwa [List.count_filter (by simp), List.count_filter (by simp)] at hx

private theorem Ordered.sources (hs : s.Ordered) (hrest : s.AtRest) (t : ThreadId) :
    (s.shared.ended.map Check.source).filter (·.1 = t) = s.shared.begun.filter (·.1 = t) := by
  by_cases ht : t < n
  · have horder := hs.order ⟨t, ht⟩
    rw [hrest, List.map_nil, List.append_nil] at horder
    exact horder.symm
  · have hnone {l : List (ThreadId × NativeCall)}
        (hl : l ⊆ s.shared.begun ++ s.shared.ended.map Check.source) :
        l.filter (·.1 = t) = [] := by
      rw [List.filter_eq_nil_iff]
      intro x hx
      have hlt := hs.known x (hl hx)
      simp only [decide_eq_true_eq]
      rintro rfl
      exact ht hlt
    rw [hnone (List.subset_append_right ..), hnone (List.subset_append_left ..)]

private theorem Accounted.pending_of_atRest (hs : s.Accounted q) (hrest : s.AtRest) :
    s.shared.queue.pending = [] := by
  have hbalance := hs.balance
  rw [Threads.weight_eq_zero_of_atRest hrest, Nat.add_zero] at hbalance
  rw [hs.pending, hbalance, List.drop_length]

private theorem Accounted.ok_of_inTurn (hs : s.Accounted q) {c : Check} (hc : c ∈ s.shared.ended)
    (hturn : c.turn = c.place) : c.result = .ok () := by
  obtain ⟨hown, expected, hplace, hresult⟩ := hs.ended c hc
  rw [← hturn, hown] at hplace
  cases hplace
  rw [hresult, Check.verdict, if_pos c.call.agrees_self]

/-- However checks of an automatic queue interleave, the one that takes the expectation at a place
passes exactly if the call announced there agrees with its own, no check finds nothing to take, and
the history is that of the checks that pass, in the order in which they end. At rest nothing is
pending, and every check that was begun has had one turn and one place. Where each check takes its
own expectation, as it does if no two wait at a time, all pass, and the history keeps every
thread's order. -/
theorem checks_take_expectations_in_turn {moves : List (Fin n × CheckMove)}
    (hauto : q.mode = .auto) (hpending : q.pending = [])
    (h : (idle n q).play? checkProgram moves = some s) :
    (∀ c ∈ s.shared.ended, s.shared.announced[c.turn]? = some c.call ∧
      ∃ expected, s.shared.announced[c.place]? = some expected ∧
        c.result = Check.verdict expected c.call) ∧
    s.shared.queue.history = q.history ++ (s.shared.ended.filter Check.passed).map Check.call ∧
    (s.AtRest →
      s.shared.queue.pending = [] ∧
      (s.shared.ended.map Check.turn).Perm (List.range s.shared.begun.length) ∧
      (s.shared.ended.map Check.place).Perm (List.range s.shared.begun.length) ∧
      (∀ t, (s.shared.ended.map Check.source).filter (·.1 = t) =
        s.shared.begun.filter (·.1 = t))) ∧
    ((∀ c ∈ s.shared.ended, c.turn = c.place) ∨
        (idle n q).Throughout checkProgram OneWaits moves →
      (∀ c ∈ s.shared.ended, c.result = .ok ()) ∧
      (s.AtRest → ∃ order : List (ThreadId × NativeCall),
        s.shared.queue.history = q.history ++ order.map Prod.snd ∧
        order.Perm s.shared.begun ∧
        ∀ t, order.filter (·.1 = t) = s.shared.begun.filter (·.1 = t))) := by
  obtain ⟨hs, hordered⟩ := accounted_of_play? hauto hpending h
  refine ⟨hs.ended, hs.history, fun hrest => ?_, fun hturns => ?_⟩
  · have hsources := hordered.sources hrest
    have hlength := (perm_of_filter_eq hsources).length_eq
    have hturns := hordered.turns.perm hrest
    have hplaces := hordered.places.perm hrest
    have hannounced := hturns.length_eq
    have htaken := hplaces.length_eq
    simp only [List.length_map, List.length_range] at hlength hannounced htaken
    rw [← hannounced, hlength] at hturns
    rw [← htaken, hlength] at hplaces
    exact ⟨hs.pending_of_atRest hrest, hturns, hplaces, hsources⟩
  · have hown : ∀ c ∈ s.shared.ended, c.turn = c.place := by
      rcases hturns with hturns | hone
      · exact hturns
      · exact (inTurn_of_play? hauto hpending hone h).ended
    have hok : ∀ c ∈ s.shared.ended, c.result = .ok () := fun c hc =>
      hs.ok_of_inTurn hc (hown c hc)
    have hpassed : s.shared.ended.filter Check.passed = s.shared.ended := by
      rw [List.filter_eq_self]
      intro c hc
      rw [Check.passed, hok c hc]
      rfl
    refine ⟨hok, fun hrest => ⟨s.shared.ended.map Check.source, ?_, ?_, ?_⟩⟩
    · rw [hs.history, hpassed, List.map_map]
      rfl
    · exact perm_of_filter_eq (hordered.sources hrest)
    · exact hordered.sources hrest

/-- A start on one thread is announced before a stop on the other and recorded after it. -/
def interleaved (t u : Fin 2) : List (Fin 2 × CheckMove) :=
  [(t, .begin (.start ⟨1⟩)), (u, .begin .stop), (t, .proceed), (t, .proceed), (u, .proceed),
    (u, .proceed), (u, .proceed), (t, .proceed)]

theorem checks_take_expectations_in_turn_interleaved : ∃ s : CheckThreads 2,
    (idle 2 .auto).play? checkProgram (interleaved 0 1) = some s ∧ s.AtRest ∧
    s.shared.report = [(1, "stop", true), (0, "start", true)] ∧ s.shared.queue.pending = [] ∧
    ∃ order : List (ThreadId × NativeCall), s.shared.queue.history = order.map Prod.snd ∧
      order.Perm s.shared.begun ∧
      ∀ t, order.filter (·.1 = t) = s.shared.begun.filter (·.1 = t) := by
  have hrun : ((idle 2 .auto).play? checkProgram (interleaved 0 1)).any (fun s =>
      decide s.AtRest && s.shared.report == [(1, "stop", true), (0, "start", true)]) = true := by
    decide +kernel
  have hone : (idle 2 .auto).Throughout checkProgram OneWaits (interleaved 0 1) := by
    decide +kernel
  obtain ⟨s, hplay, hs⟩ := (Option.any_eq_true _ _).mp hrun
  simp only [Bool.and_eq_true, beq_iff_eq, decide_eq_true_eq] at hs
  obtain ⟨_, _, hrest, hturns⟩ := checks_take_expectations_in_turn rfl rfl hplay
  obtain ⟨order, hhistory, hperm, horder⟩ := (hturns (.inr hone)).2 hs.1
  exact ⟨s, hplay, hs.1, hs.2, (hrest hs.1).1, order, hhistory, hperm, horder⟩

/-- Both calls are announced before the later of them is given the earlier one's announcement. -/
def crossing (t u : Fin 2) : List (Fin 2 × CheckMove) :=
  [(t, .begin (.start ⟨1⟩)), (u, .begin .stop), (t, .proceed), (u, .proceed), (u, .proceed),
    (t, .proceed)]

/-- A start and a stop that cross are both unexpected, and neither is recorded. -/
theorem crossing_checks_fail : ∃ s : CheckThreads 2,
    (idle 2 .auto).play? checkProgram (crossing 0 1) = some s ∧ s.AtRest ∧
    s.shared.report = [(1, "stop", false), (0, "start", false)] ∧ s.shared.queue.history = [] := by
  have hrun : ((idle 2 .auto).play? checkProgram (crossing 0 1)).any (fun s =>
      decide s.AtRest && s.shared.report == [(1, "stop", false), (0, "start", false)] &&
        s.shared.queue.history.isEmpty) = true := by
    decide +kernel
  obtain ⟨s, hplay, hs⟩ := (Option.any_eq_true _ _).mp hrun
  simp only [Bool.and_eq_true, beq_iff_eq, decide_eq_true_eq, List.isEmpty_iff] at hs
  exact ⟨s, hplay, hs.1.1, hs.1.2, hs.2⟩

end CheckThreads

end BrokerBridge
