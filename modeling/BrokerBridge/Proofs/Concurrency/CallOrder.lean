import BrokerBridge.Proofs.Concurrency.QueueCalls

/-!
# The order of calls on queues

Every call that is begun ends once, and it is noted if it is accepted. What is noted of the calls of
one thread is noted in the order in which the thread makes them.
-/

namespace BrokerBridge

namespace QueueErrand

variable {e : QueueErrand}

theorem not_isUndone_of_stands (h : e.stands = true) : e.isUndone = false := by
  obtain ⟨hcode, -⟩ := stands_iff.mp h
  simp [isUndone, hcode]

theorem not_isUndone_of_isClose (h : e.deed.isClose = true) : e.isUndone = false := by
  simp [isUndone, h]

theorem isUndone_of_not_stands (hopen : e.deed.isClose = false) (h : e.stands = false) :
    e.isUndone = true := by
  rw [stands, hopen, Bool.not_false, Bool.and_true, beq_eq_false_iff_ne] at h
  exact isUndone_iff.mpr ⟨h, hopen⟩

end QueueErrand

private theorem QueueAnswer.accepts_success (status : QueueSuccess) :
    (returned status).accepts = true :=
  beq_iff_eq.mpr status.2

private theorem QueueAnswer.accepts_refusal (refusal : QueueRefusal) :
    (returned refusal).accepts = false :=
  beq_eq_false_iff_ne.mpr refusal.2

def QueueRoom.acceptedEnds (s : QueueRoom) : List Nat :=
  (s.ended.filter (·.2.accepts)).map Prod.fst

namespace QueueActivity

def number? : QueueActivity → Option Nat
  | call k .. => some k
  | host _ => none

def Registered (begun : List (ThreadId × QueueErrand)) (t : ThreadId) : QueueActivity → Prop
  | call k e _ _ => begun[k]? = some (t, e)
  | host _ => True

private theorem Registered.thread?_eq {s : QueueRoom} {t : ThreadId} {a : QueueActivity}
    (h : a.Registered s.begun t) {k : Nat} (hk : a.number? = some k) : s.thread? k = some t := by
  cases a with
  | host entered => cases hk
  | call i e saved stage =>
    cases hk
    exact Option.map_eq_some_iff.mpr ⟨_, h, rfl⟩

theorem Registered.mono {begun begun' : List (ThreadId × QueueErrand)} {t : ThreadId}
    {a : QueueActivity} (h : a.Registered begun t) (hgrows : begun <+: begun') :
    a.Registered begun' t := by
  cases a with
  | host entered => exact True.intro
  | call k e saved stage => exact getElem?_of_initial hgrows h

def effective : QueueActivity → Bool
  | call _ e _ (.entering ..) | call _ e _ (.deciding ..) => e.stands
  | call _ _ _ (.playing _) | call _ _ _ (.telling _) => true
  | call _ _ _ (.leaving answer) | call _ _ _ (.returning answer) => answer.accepts
  | _ => false

def untold : QueueActivity → Bool
  | call _ _ _ (.telling _) | call _ _ _ (.leaving _) | call _ _ _ (.returning _) => false
  | call .. => true
  | host _ => false

/-- As long as nothing has been told, a thread makes no other call. -/
def Newest (begun : List (ThreadId × QueueErrand)) (t : ThreadId) (a : QueueActivity) : Prop :=
  a.untold = true → ∀ k, a.number? = some k → ∀ i e, begun[i]? = some (t, e) → i ≤ k

def numbered (k : Nat) (a : QueueActivity) : Nat := (a.number? == some k).toNat

def effects (k : Nat) (a : QueueActivity) : Nat := (a.number? == some k && a.effective).toNat

private theorem effects_le_numbered (k : Nat) (a : QueueActivity) : a.effects k ≤ a.numbered k := by
  unfold effects numbered
  cases a.number? == some k <;> cases a.effective <;> decide

/-! ## Moves -/

section

variable {a a' : QueueActivity}

private theorem Moves.number? (h : a.Moves a') : a'.number? = a.number? := by cases h <;> rfl

private theorem Moves.effective (h : a.Moves a') : a'.effective = a.effective := by
  cases h with
  | refused k e saved before refusal => exact QueueAnswer.accepts_refusal refusal
  | sought k e saved before status close => exact QueueErrand.stands_of_isClose close
  | opposed k e saved before status refusal undone =>
    have hcode := (QueueErrand.isUndone_iff.mp undone).1
    simp [QueueActivity.effective, QueueErrand.stands, hcode]
  | barred k e saved before status refusal close =>
    exact (QueueAnswer.accepts_refusal refusal).trans (QueueErrand.stands_of_isClose close).symm
  | opened k e saved before status stands => exact stands.symm
  | configured k e saved before status stands =>
    exact (QueueAnswer.accepts_success status).trans stands.symm
  | allowed k e saved before status close => exact (QueueErrand.stands_of_isClose close).symm
  | unscripted k e saved status | told k e saved status => exact QueueAnswer.accepts_success status
  | missed k e saved refusal => exact QueueAnswer.accepts_refusal refusal
  | out | observed | unexpected | entered | played | interrupted | left | hostIn => rfl

private theorem Moves.untold (h : a.Moves a') (huntold : a'.untold = true) : a.untold = true := by
  cases h <;> first | rfl | exact huntold

private theorem not_untold_of_isOpen (h : a.isOpen = true) : a.untold = false := by
  cases a with
  | host entered => rfl
  | call k e saved stage => cases stage <;> first | rfl | cases h

end

section

variable {s s' : QueueRoom} {a : QueueActivity} {a' : Option QueueActivity}

private theorem Next.begun (h : a.Next s s' a') : s'.begun = s.begun := by cases h <;> rfl

private theorem Next.number? (h : a.Next s s' a') {after : QueueActivity}
    (hafter : a' = some after) :
    after.number? = a.number? := by
  cases h with
  | move moves =>
    cases hafter
    exact moves.number?
  | finish | hostOut => cases hafter
  | look | change | undo | close =>
    cases hafter
    rfl

private theorem Moves.registered {a a' : QueueActivity} (h : a.Moves a')
    {begun : List (ThreadId × QueueErrand)} {t : ThreadId} (ha : a.Registered begun t) :
    a'.Registered begun t := by
  cases h <;> exact ha

private theorem Next.registered (h : a.Next s s' a') {begun : List (ThreadId × QueueErrand)}
    {t : ThreadId} (ha : a.Registered begun t) {after : QueueActivity} (hafter : a' = some after) :
    after.Registered begun t := by
  cases h with
  | move moves =>
    cases hafter
    exact moves.registered ha
  | finish | hostOut => cases hafter
  | look | change | undo | close =>
    cases hafter
    exact ha

private theorem Next.untold (h : a.Next s s' a') {after : QueueActivity} (hafter : a' = some after)
    (huntold : after.untold = true) : a.untold = true := by
  cases h with
  | move moves =>
    cases hafter
    exact moves.untold huntold
  | finish | hostOut => cases hafter
  | undo | close =>
    cases hafter
    cases huntold
  | look | change => rfl

/-- What is noted takes effect now, and before anything is told in its course. -/
theorem Next.accepted (h : a.Next s s' a') : s'.accepted = s.accepted ∨
    ∃ k, a.number? = some k ∧ a.untold = true ∧ a.effective = false ∧
      s'.accepted = s.accepted ++ [k] := by
  cases h with
  | change k e saved before status =>
    cases hstands : e.stands with
    | true => exact .inr ⟨k, rfl, rfl, rfl, by rw [if_pos rfl]⟩
    | false => exact .inl (by rw [if_neg Bool.false_ne_true, List.append_nil])
  | close k => exact .inr ⟨k, rfl, rfl, rfl, rfl⟩
  | move | look | undo | finish | hostOut => exact .inl rfl

private theorem Next.count_ended (h : a.Next s s' a') (k : Nat) :
    (s'.ended.map Prod.fst).count k + a'.elim 0 (numbered k) =
      (s.ended.map Prod.fst).count k + a.numbered k := by
  cases h with
  | move moves => simp [numbered, moves.number?]
  | finish i e saved answer =>
    rw [List.map_append, List.count_append]
    by_cases hi : i = k <;> simp [numbered, QueueActivity.number?, hi]
  | hostOut => rfl
  | look | change | undo | close => rfl

/-- A call is noted as accepted when it takes effect, and ends as such a one. -/
theorem Next.count_accepted (h : a.Next s s' a') (k : Nat) :
    s'.accepted.count k + s.acceptedEnds.count k + a.effects k =
      s.accepted.count k + s'.acceptedEnds.count k + a'.elim 0 (effects k) := by
  have hnoted (i : Nat) (accepts : Bool) :
      (if accepts then [i] else []).count k = (some i == some k && accepts).toNat := by
    cases accepts with
    | false => simp
    | true =>
      rw [if_pos rfl, List.count_singleton, Bool.and_true]
      cases hi : i == k <;> simp [hi]
  cases h with
  | @move a a' b moves =>
    have heffects : a'.effects k = a.effects k := by
      rw [effects, effects, moves.number?, moves.effective]
    rw [Option.elim_some, heffects]
    rfl
  | look i e saved => rfl
  | change i e saved before status =>
    rw [List.count_append, hnoted]
    simp only [Option.elim_some, effects, effective, QueueRoom.acceptedEnds, Bool.and_false,
      QueueActivity.number?, Bool.toNat_false]
    omega
  | undo i e saved before refusal =>
    simp only [Option.elim_some, effects, effective, QueueAnswer.accepts_refusal]
    rfl
  | close i e saved status =>
    have hclosed := hnoted i true
    rw [if_pos rfl] at hclosed
    rw [List.count_append, hclosed]
    simp only [Option.elim_some, effects, effective, QueueRoom.acceptedEnds,
      QueueAnswer.accepts_success, Bool.and_false, QueueActivity.number?, Bool.toNat_false]
    omega
  | @finish i e saved answer b =>
    have hended : ({ s with bridge := b, ended := s.ended ++ [(i, answer)] } :
        QueueRoom).acceptedEnds = s.acceptedEnds ++ if answer.accepts then [i] else [] := by
      rw [QueueRoom.acceptedEnds, List.filter_append, List.map_append, List.filter_cons]
      split <;> rfl
    rw [hended, List.count_append, hnoted]
    exact Nat.add_assoc ..
  | hostOut => rfl

end

end QueueActivity

namespace QueueRoom

variable (s : QueueRoom) (t : ThreadId) (task : QueueTask)

private theorem begun_start : s.begun <+: (s.start t task).1.begun := by
  cases task with
  | call e => exact List.prefix_append ..
  | host => exact List.prefix_refl _

private theorem ended_start : (s.start t task).1.ended = s.ended := by cases task <;> rfl

private theorem acceptedEnds_start : (s.start t task).1.acceptedEnds = s.acceptedEnds := by
  rw [acceptedEnds, ended_start, acceptedEnds]

theorem bridge_start : (s.start t task).1.bridge = s.bridge := by cases task <;> rfl

theorem accepted_start : (s.start t task).1.accepted = s.accepted := by cases task <;> rfl

private theorem registered_start : (s.start t task).2.Registered (s.start t task).1.begun t := by
  cases task with
  | call e => exact List.getElem?_concat_length
  | host => exact True.intro

private theorem numbered_start (k : Nat) :
    (if k < s.begun.length then 1 else 0) + (s.start t task).2.numbered k =
      if k < (s.start t task).1.begun.length then 1 else 0 := by
  cases task with
  | call e =>
    show _ + (some s.begun.length == some k).toNat =
      if k < (s.begun ++ [(t, e)]).length then 1 else 0
    rw [List.length_append, List.length_singleton]
    by_cases hk : k = s.begun.length
    · simp [hk]
    · have hother : (some s.begun.length == some k) = false := by
        simpa using Ne.symm hk
      have hless : k < s.begun.length ↔ k < s.begun.length + 1 := by omega
      rw [hother, if_congr hless rfl rfl]
      rfl
  | host => rfl

private theorem begun_of_ne {s : QueueRoom} {t u : ThreadId} {task : QueueTask} (hu : t ≠ u)
    {i : Nat}
    {e : QueueErrand} (h : (s.start t task).1.begun[i]? = some (u, e)) :
    s.begun[i]? = some (u, e) := by
  cases task with
  | host => exact h
  | call e' =>
    by_cases hi : i < s.begun.length
    · rwa [start, List.getElem?_append_left hi] at h
    · rw [start, List.getElem?_append_right (Nat.le_of_not_lt hi)] at h
      cases List.mem_singleton.mp (List.mem_of_getElem? h)
      exact absurd rfl hu

private theorem newest_start : (s.start t task).2.Newest (s.start t task).1.begun t := by
  cases task with
  | host => exact nofun
  | call e =>
    intro _ k hk i e' hi
    cases hk
    have hlt := (List.getElem?_eq_some_iff.mp hi).1
    rw [start, List.length_append, List.length_singleton] at hlt
    exact Nat.le_of_lt_succ hlt

private theorem getElem?_start {i : Nat} (h : i < s.begun.length) :
    (s.start t task).1.begun[i]? = s.begun[i]? := by
  rw [List.getElem?_eq_getElem h]
  exact getElem?_of_initial (s.begun_start t task) (List.getElem?_eq_getElem h)

private theorem thread?_start {i : Nat} (h : i < s.begun.length) :
    (s.start t task).1.thread? i = s.thread? i := by
  rw [thread?, thread?, s.getElem?_start t task h]

theorem deed?_start {i : Nat} (h : i < s.begun.length) :
    (s.start t task).1.deed? i = s.deed? i := by
  rw [deed?, deed?, s.getElem?_start t task h]

private theorem effects_start (k : Nat) : (s.start t task).2.effects k = 0 := by
  cases task <;> simp [start, QueueActivity.effects, QueueActivity.effective]

end QueueRoom

namespace QueueThreads

open QueueActivity

variable {n : Nat} {s s' : QueueThreads n} {t : Fin n} {m : QueueMove}

theorem next_of_step? (h : s.step? queueProgram t m = some s') :
    (∃ task, (s.stackOf t).head?.all isOpen = true ∧
        s' = s.set t (s.shared.start t task).1 ((s.shared.start t task).2 :: s.stackOf t)) ∨
      (m = .proceed ∧ ∃ a rest room a', s.stackOf t = a :: rest ∧ a.Next s.shared room a' ∧
        s' = s.set t room (a'.toList ++ rest)) ∨
      ∃ b, s.shared.ledger.KeepsQueues b.native.ledger ∧
        s' = ⟨{ s.shared with bridge := b }, s.stackOf⟩ := by
  obtain ⟨room, stack, hmove, rfl⟩ := Threads.exists_of_step? h
  rcases next_of_queueProgram hmove with ⟨task, hopen, rfl, rfl⟩ |
    ⟨rfl, a, rest, a', hstack, rfl, hnext⟩ | ⟨b, hkeeps, rfl, rfl⟩
  · exact .inl ⟨task, hopen, rfl⟩
  · exact .inr (.inl ⟨rfl, a, rest, room, a', hstack, hnext, rfl⟩)
  · exact .inr (.inr ⟨b, hkeeps, Threads.set_stackOf ..⟩)

/-! ## Numbers -/

/-- Every call is in progress or has ended, and has been noted if it was accepted. -/
structure Counted (s : QueueThreads n) : Prop where
  registered : ∀ u, ∀ a ∈ s.stackOf u, a.Registered s.shared.begun u
  ended : ∀ k, (s.shared.ended.map Prod.fst).count k + s.weight (numbered k) =
    if k < s.shared.begun.length then 1 else 0
  accepted : ∀ k, s.shared.accepted.count k =
    s.shared.acceptedEnds.count k + s.weight (effects k)

theorem counted_idle (b : Bridge Stage) : (idle n b).Counted where
  registered _ _ ha := nomatch ha
  ended k := by
    have hnone : (idle n b).weight (numbered k) = 0 := Threads.weight_atRest ..
    rw [hnone]
    rfl
  accepted k := by
    have hnone : (idle n b).weight (effects k) = 0 := Threads.weight_atRest ..
    rw [hnone]
    rfl

theorem Counted.lt_of_accepted (hs : s.Counted) {k : Nat} (h : k ∈ s.shared.accepted) :
    k < s.shared.begun.length := by
  have hcount := List.count_pos_iff.mpr h
  have haccepted := hs.accepted k
  have heffects := s.weight_le_weight (effects_le_numbered k)
  by_contra hnone
  have hended := hs.ended k
  have hless : s.shared.acceptedEnds.count k ≤ (s.shared.ended.map Prod.fst).count k :=
    (List.filter_sublist.map _).count_le k
  rw [if_neg hnone] at hended
  omega

private theorem Counted.start (hs : s.Counted) (t : Fin n) (task : QueueTask) :
    Counted (s.set t (s.shared.start t task).1 ((s.shared.start t task).2 :: s.stackOf t)) where
  registered := Threads.forall_mem_push
    (fun u a ha => (hs.registered u a ha).mono (s.shared.begun_start t task)) t
    (s.shared.registered_start t task) _
  ended k := by
    have hbefore := hs.ended k
    have hstart := s.shared.numbered_start t task k
    rw [Threads.weight_push, Threads.shared_set, s.shared.ended_start]
    omega
  accepted k := by
    rw [Threads.weight_push, Threads.shared_set, s.shared.accepted_start,
      s.shared.acceptedEnds_start, s.shared.effects_start]
    exact hs.accepted k

theorem Counted.step (hs : s.Counted) (h : s.step? queueProgram t m = some s') : s'.Counted := by
  rcases next_of_step? h with ⟨task, -, rfl⟩ | ⟨-, a, rest, room, a', hstack, hnext, rfl⟩ |
    ⟨b, -, rfl⟩
  · exact hs.start t task
  · have hweight (w : QueueActivity → Nat) := Threads.weight_replace w hstack room a'
    have hsome : s.stackOf t = (some a).toList ++ rest := hstack
    have ha : a ∈ s.stackOf t := Threads.mem_of_exchange hsome rfl
    refine ⟨?_, fun k => ?_, fun k => ?_⟩
    · rw [Threads.shared_set, hnext.begun]
      exact Threads.forall_mem_exchange (P := fun u a => a.Registered s.shared.begun u)
        hs.registered hsome
        (fun after hafter => hnext.registered (hs.registered t a ha) hafter) room
    · have hended := hnext.count_ended k
      have hbefore := hs.ended k
      have hafter := hweight (numbered k)
      rw [Threads.shared_set, hnext.begun]
      omega
    · have haccepted := hnext.count_accepted k
      have hbefore := hs.accepted k
      have hafter := hweight (effects k)
      rw [Threads.shared_set]
      omega
  · exact ⟨hs.registered, hs.ended, hs.accepted⟩

private theorem Counted.not_mem_accepted (hs : s.Counted) {a : QueueActivity}
    {rest : List QueueActivity}
    (hstack : s.stackOf t = a :: rest) {k : Nat} (hnumber : a.number? = some k)
    (heffective : a.effective = false) : k ∉ s.shared.accepted := by
  have hnumbered : a.numbered k = 1 := by simp [numbered, hnumber]
  have heffects : a.effects k = 0 := by simp [effects, heffective]
  have hsum := hs.ended k
  have hone : s.weight (numbered k) ≤ a.numbered k := by
    rw [hnumbered]
    split at hsum <;> omega
  have hnone := Threads.weight_eq_of_le hstack (effects_le_numbered k) hone
  have hin := Threads.le_weight (numbered k) (s := s) (t := t) (f := a) (by simp [hstack])
  have hless : s.shared.acceptedEnds.count k ≤ (s.shared.ended.map Prod.fst).count k :=
    (List.filter_sublist.map _).count_le k
  have haccepted := hs.accepted k
  rw [← List.count_eq_zero]
  split at hsum <;> omega

/-- At rest every call has ended, once. -/
theorem Counted.ended_perm (hs : s.Counted) (hrest : s.AtRest) :
    (s.shared.ended.map Prod.fst).Perm (List.range s.shared.begun.length) := by
  rw [List.perm_iff_count]
  intro k
  have hended := hs.ended k
  rw [Threads.weight_eq_zero_of_atRest hrest, Nat.add_zero] at hended
  rw [hended, List.nodup_range.count]
  exact if_congr List.mem_range.symm rfl rfl

theorem Counted.accepted_perm (hs : s.Counted) (hrest : s.AtRest) :
    s.shared.accepted.Perm s.shared.acceptedEnds := by
  rw [List.perm_iff_count]
  intro k
  rw [hs.accepted k, Threads.weight_eq_zero_of_atRest hrest, Nat.add_zero]

/-! ## Order -/

/-- Threads make one call at a time, and calls take effect in the order in which their threads
make them. -/
structure Ordered (s : QueueThreads n) : Prop where
  nested : ∀ u, ∀ a ∈ (s.stackOf u).tail, a.isOpen = true
  newest : ∀ u, ∀ a ∈ s.stackOf u, a.Newest s.shared.begun u
  order : s.shared.accepted.Pairwise fun i j => s.shared.thread? i = s.shared.thread? j → i < j

theorem ordered_idle (b : Bridge Stage) : (idle n b).Ordered where
  nested _ _ ha := nomatch ha
  newest _ _ ha := nomatch ha
  order := .nil

private theorem Ordered.forall_isOpen (hs : s.Ordered)
    (hopen : (s.stackOf t).head?.all isOpen = true) :
    ∀ a ∈ s.stackOf t, a.isOpen = true := by
  have htail := hs.nested t
  cases hstack : s.stackOf t with
  | nil =>
    intro a ha
    cases ha
  | cons a rest =>
    rw [hstack] at hopen htail
    exact List.forall_mem_cons.mpr ⟨hopen, htail⟩

private theorem Ordered.start (hs : s.Ordered) (hcounted : s.Counted)
    (hopen : (s.stackOf t).head?.all isOpen = true) (task : QueueTask) :
    Ordered (s.set t (s.shared.start t task).1 ((s.shared.start t task).2 :: s.stackOf t)) := by
  have hall := hs.forall_isOpen hopen
  refine ⟨fun u a ha => ?_, ?_, ?_⟩
  · by_cases hu : u = t
    · subst hu
      rw [Threads.stackOf_set_self] at ha
      exact hall a ha
    · rw [Threads.stackOf_set_of_ne s hu] at ha
      exact hs.nested u a ha
  · refine Threads.forall_mem_push
      (P := fun u (a : QueueActivity) => a.Newest (s.shared.start t task).1.begun u.val)
      (fun u a ha huntold k hk i e hi => ?_) t ?_ _
    · by_cases hu : u = t
      · subst hu
        rw [not_untold_of_isOpen (hall a ha)] at huntold
        cases huntold
      · exact hs.newest u a ha huntold k hk i e
          (s.shared.begun_of_ne (fun hut => hu (Fin.ext hut.symm)) hi)
    · exact s.shared.newest_start t task
  · rw [Threads.shared_set, s.shared.accepted_start]
    refine hs.order.imp_of_mem fun {i j} hi hj hij => ?_
    rw [s.shared.thread?_start t task (hcounted.lt_of_accepted hi),
      s.shared.thread?_start t task (hcounted.lt_of_accepted hj)]
    exact hij

theorem Ordered.step (hs : s.Ordered) (hcounted : s.Counted)
    (h : s.step? queueProgram t m = some s') : s'.Ordered := by
  rcases next_of_step? h with ⟨task, hopen, rfl⟩ | ⟨-, a, rest, room, a', hstack, hnext, rfl⟩ |
    ⟨b, -, rfl⟩
  · exact hs.start hcounted hopen task
  · have hsome : s.stackOf t = (some a).toList ++ rest := hstack
    have ha : a ∈ s.stackOf t := Threads.mem_of_exchange hsome rfl
    refine ⟨fun u f hf => ?_, ?_, ?_⟩
    · have hrest : ∀ f ∈ rest, f.isOpen = true := by
        have htail := hs.nested t
        rwa [hstack] at htail
      by_cases hu : u = t
      · subst hu
        rw [Threads.stackOf_set_self] at hf
        refine hrest f ?_
        cases a' with
        | none => exact List.mem_of_mem_tail hf
        | some after => exact hf
      · rw [Threads.stackOf_set_of_ne s hu] at hf
        exact hs.nested u f hf
    · rw [Threads.shared_set, hnext.begun]
      refine Threads.forall_mem_exchange
        (P := fun u (a : QueueActivity) => a.Newest s.shared.begun u) hs.newest hsome
        (fun after hafter huntold k hk => ?_) room
      rw [hnext.number? hafter] at hk
      exact hs.newest t a ha (hnext.untold hafter huntold) k hk
    · have hthread : room.thread? = s.shared.thread? := by
        funext k
        rw [QueueRoom.thread?, hnext.begun, QueueRoom.thread?]
      rw [Threads.shared_set, hthread]
      rcases hnext.accepted with hsame | ⟨k, hnumber, huntold, heffective, hnoted⟩
      · rw [hsame]
        exact hs.order
      · rw [hnoted, List.pairwise_append]
        refine ⟨hs.order, List.pairwise_singleton .., fun i hi j hj hij => ?_⟩
        cases List.mem_singleton.mp hj
        have hk : s.shared.thread? k = some t.val :=
          (hcounted.registered t a ha).thread?_eq hnumber
        obtain ⟨⟨_, e⟩, hbegun, rfl⟩ := Option.map_eq_some_iff.mp (hij.trans hk)
        have hle := hs.newest t a ha huntold k hnumber i e hbegun
        have hne : i ≠ k := fun hik =>
          hcounted.not_mem_accepted hstack hnumber heffective (hik ▸ hi)
        omega
  · exact ⟨hs.nested, hs.newest, hs.order⟩

end QueueThreads

end BrokerBridge
