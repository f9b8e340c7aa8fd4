import BrokerBridge.Proofs.Concurrency.Told

/-!
# Rounds of calls

Whoever changes the state of a monitor looks up its listeners and then calls them, one after
another. Such a round is told apart from others by the thread that makes it and by its place, which
is how much that thread is inside of besides.
-/

namespace BrokerBridge

variable {ι α β : Type} {n : Nat}

/-- A call of a listener, with the place of the round that it belongs to. -/
structure ListenerCall (n : Nat) where
  thread : Fin n
  depth : Nat
  id : Nat
  state : HealthState
deriving DecidableEq

def ListenerCall.IsAt (t : Fin n) (depth : Nat) (c : ListenerCall n) : Prop :=
  c.thread = t ∧ c.depth = depth

instance (t : Fin n) (depth : Nat) : DecidablePred (ListenerCall.IsAt t depth) :=
  fun _ => inferInstanceAs (Decidable (_ ∧ _))

/-- The round has looked up its listeners and has these left to call. -/
inductive MonitorWork.Tells (h : HealthState) (ls : List (Nat × ι)) :
    MonitorWork ι → Prop where
  | telling : Tells h ls (.telling h ls)
  | listening : Tells h ls (.listening h ls)

def MonitorWork.nextCall? : MonitorWork ι → Option (Nat × HealthState)
  | telling h (l :: _) => some (l.1, h)
  | _ => none

def MonitorMove.dropped? : MonitorMove ι α → Option Nat
  | drop id => some id
  | _ => none

private theorem HealthMonitor.nextId_transition (m : HealthMonitor ι) (h : HealthState) :
    (m.transition h).2.nextId = m.nextId := by
  unfold transition
  split <;> rfl

/-- Listeners stand in the order of their numbers, which have all been given. -/
structure HealthMonitor.Ranked (m : HealthMonitor ι) : Prop where
  sorted : m.listeners.Pairwise (·.1 < ·.1)
  given : ∀ l ∈ m.listeners, l.1 < m.nextId

theorem HealthMonitor.ranked_new : ({} : HealthMonitor ι).Ranked := ⟨.nil, nofun⟩

namespace HealthMonitor.Ranked

variable {m : HealthMonitor ι}

theorem numbered (h : m.Ranked) : m.Numbered where
  nodup := List.pairwise_map.mpr (h.sorted.imp Nat.ne_of_lt)
  given := h.given

private theorem subscribe (h : m.Ranked) (l : ι) : (m.subscribe l).2.Ranked where
  sorted := by
    rw [HealthMonitor.subscribe, List.pairwise_append]
    exact ⟨h.sorted, List.pairwise_singleton .., by simpa using h.given⟩
  given := by
    intro old hold
    have hgiven := h.given old
    simp only [HealthMonitor.subscribe, List.mem_append, List.mem_singleton] at hold ⊢
    rcases hold with hold | rfl <;> grind

private theorem listeners_unsubscribe (h : m.Ranked) {id : Nat} {l : ι}
    {before after : List (Nat × ι)}
    (hl : m.listeners = before ++ (id, l) :: after) :
    (m.unsubscribe id).listeners = before ++ after := by
  have hsorted := h.sorted
  rw [hl, List.pairwise_append, List.pairwise_cons] at hsorted
  obtain ⟨_, ⟨hafter, _⟩, hbefore⟩ := hsorted
  have hkept : ∀ other ∈ before ++ after, (other.1 != id) = true := by
    intro other hother
    rw [bne_iff_ne]
    rcases List.mem_append.mp hother with hother | hother
    · exact Nat.ne_of_lt (hbefore other hother (id, l) (List.mem_cons_self ..))
    · exact Nat.ne_of_gt (hafter other hother)
  rw [HealthMonitor.unsubscribe, hl, ← List.filter_eq_self.mpr hkept]
  simp

end HealthMonitor.Ranked

namespace MonitorThreads

def callOf (s : MonitorThreads n ι β) (t : Fin n) : MonitorMove ι α → Option (ListenerCall n)
  | .proceed =>
      match s.stackOf t with
      | w :: below => w.nextCall?.map fun c => ⟨t, below.length, c.1, c.2⟩
      | [] => none
  | _ => none

def subscriptionOf (s : MonitorThreads n ι β) (t : Fin n) : MonitorMove ι α → Option (Nat × ι)
  | .proceed =>
      match s.stackOf t with
      | .joining l :: _ => some ((s.shared.monitor.subscribe l).1, l)
      | _ => none
  | _ => none

def calls (aud : Audience ι α β) (s : MonitorThreads n ι β)
    (moves : List (Fin n × MonitorMove ι α)) : List (ListenerCall n) :=
  s.collect (monitorProgram aud) callOf moves

def subscriptions (aud : Audience ι α β) (s : MonitorThreads n ι β)
    (moves : List (Fin n × MonitorMove ι α)) : List (Nat × ι) :=
  s.collect (monitorProgram aud) subscriptionOf moves

def dropped (moves : List (Fin n × MonitorMove ι α)) : List Nat := moves.filterMap (·.2.dropped?)

theorem notMem_dropped_cons {t : Fin n} {m : MonitorMove ι α} {id : Nat}
    {rest : List (Fin n × MonitorMove ι α)} :
    id ∉ dropped ((t, m) :: rest) ↔ m.dropped? ≠ some id ∧ id ∉ dropped rest := by
  cases h : m.dropped? <;> simp [dropped, h, eq_comm]

variable {aud : Audience ι α β} {s s' : MonitorThreads n ι β} {t u : Fin n} {m : MonitorMove ι α}
  {depth : Nat} {moves : List (Fin n × MonitorMove ι α)}

/-- A move is made at a place, where something gives way to what becomes of it, or elsewhere. -/
theorem turn_at_or_elsewhere (h : s.step? (monitorProgram aud) u m = some s') (t : Fin n)
    (depth : Nat) :
    (u = t ∧ s.shared.Turn aud m (s.placed t depth) s'.shared (s'.placed t depth) ∧
      s.callOf u m = ((s.placed t depth).bind MonitorWork.nextCall?).map
        fun c => ⟨t, depth, c.1, c.2⟩) ∨
    (s'.placed t depth = s.placed t depth ∧ ∀ c ∈ s.callOf u m, ¬c.IsAt t depth) := by
  obtain ⟨before, shared, after, rest, turn, hbefore, rfl⟩ := turn_of_step? h
  have hcall : s.callOf u m =
      (before.bind MonitorWork.nextCall?).map fun c => ⟨u, rest.length, c.1, c.2⟩ := by
    cases turn <;> simp [callOf, hbefore, MonitorWork.nextCall?]
  rw [Threads.placed_exchange hbefore]
  by_cases hhere : t = u ∧ depth = rest.length
  · obtain ⟨rfl, rfl⟩ := hhere
    refine .inl ⟨rfl, ?_, ?_⟩
    · rw [if_pos ⟨rfl, rfl⟩, Threads.placed_of_exchange hbefore]
      exact turn
    · rw [hcall, Threads.placed_of_exchange hbefore]
  · refine .inr ⟨if_neg hhere, fun c hc hat => hhere ?_⟩
    rw [hcall, Option.mem_def, Option.map_eq_some_iff] at hc
    obtain ⟨_, _, rfl⟩ := hc
    exact ⟨hat.1.symm, hat.2.symm⟩

theorem calls_cons (h : s.step? (monitorProgram aud) t m = some s')
    (rest : List (Fin n × MonitorMove ι α)) :
    s.calls aud ((t, m) :: rest) = (s.callOf t m).toList ++ s'.calls aud rest :=
  Threads.collect_cons h rest

theorem subscriptions_cons (h : s.step? (monitorProgram aud) t m = some s')
    (rest : List (Fin n × MonitorMove ι α)) :
    s.subscriptions aud ((t, m) :: rest) =
      (s.subscriptionOf t m).toList ++ s'.subscriptions aud rest :=
  Threads.collect_cons h rest

/-! ## Who is registered -/

def DropsMade (s : MonitorThreads n ι β) (_ : Fin n) (m : MonitorMove ι α) : Prop :=
  ∀ id ∈ m.dropped?, id < s.shared.monitor.nextId

instance (t : Fin n) (m : MonitorMove ι α) : Decidable (DropsMade s t m) :=
  inferInstanceAs (Decidable (∀ id ∈ m.dropped?, id < s.shared.monitor.nextId))

/-- A move makes a subscription, or it leaves all listeners but the one that it drops. -/
theorem registers_of_step? (h : s.step? (monitorProgram aud) t m = some s') :
    (s.subscriptionOf t m = none ∧ s'.shared.monitor.nextId = s.shared.monitor.nextId ∧
      s'.shared.monitor.listeners =
        s.shared.monitor.listeners.filter (m.dropped? ≠ some ·.1)) ∨
    ∃ l, s.subscriptionOf t m = some (s.shared.monitor.nextId, l) ∧ m = .proceed ∧
      s'.shared.monitor = (s.shared.monitor.subscribe l).2 := by
  obtain ⟨before, shared, after, rest, turn, hbefore, rfl⟩ := turn_of_step? h
  cases turn with
  | keep => exact .inl ⟨rfl, rfl, by simp [MonitorMove.dropped?]⟩
  | change next _ =>
    refine .inl ⟨rfl, HealthMonitor.nextId_transition _ next, ?_⟩
    simp [MonitorMove.dropped?, HealthMonitor.listeners_transition]
  | drop id =>
    refine .inl ⟨rfl, rfl, List.filter_congr fun l _ => ?_⟩
    rw [Bool.eq_iff_iff]
    simpa [MonitorMove.dropped?] using ne_comm
  | subscribe l => exact .inr ⟨l, by simp [subscriptionOf, hbefore]; rfl, rfl, rfl⟩
  | join _ | act _ => exact .inl ⟨rfl, rfl, by simp [MonitorMove.dropped?]⟩
  | lookUp _ | done _ | call _ _ _ | back _ _ =>
    exact .inl ⟨by simp [subscriptionOf, hbefore], rfl, by simp [MonitorMove.dropped?]⟩

theorem ranked_of_step? (hs : s.shared.monitor.Ranked)
    (h : s.step? (monitorProgram aud) t m = some s') : s'.shared.monitor.Ranked := by
  rcases registers_of_step? h with ⟨_, hnext, hlisteners⟩ | ⟨l, _, _, hmonitor⟩
  · exact
      { sorted := hlisteners ▸ hs.sorted.filter _
        given := by
          rw [hlisteners, hnext]
          exact fun l hl => hs.given l (List.mem_filter.mp hl).1 }
  · exact hmonitor ▸ hs.subscribe l

private theorem ranked_of_play? (hs : s.shared.monitor.Ranked)
    (h : s.play? (monitorProgram aud) moves = some s') : s'.shared.monitor.Ranked :=
  Threads.play?_induction (P := fun s => s.shared.monitor.Ranked)
    (fun _ _ _ _ _ hs hstep => ranked_of_step? hs hstep) hs h

private theorem numbers_of_play? (h : s.play? (monitorProgram aud) moves = some s') :
    (s.subscriptions aud moves).map Prod.fst =
        List.range' s.shared.monitor.nextId (s.subscriptions aud moves).length ∧
      s'.shared.monitor.nextId =
        s.shared.monitor.nextId + (s.subscriptions aud moves).length := by
  induction moves generalizing s with
  | nil =>
    cases h
    simp [subscriptions, Threads.collect]
  | cons move rest ih =>
    obtain ⟨t, m⟩ := move
    obtain ⟨s₁, hstep, hrest⟩ := Option.bind_eq_some_iff.mp h
    obtain ⟨hnumbers, hnext⟩ := ih hrest
    rw [subscriptions_cons hstep]
    rcases registers_of_step? hstep with ⟨hnone, hsame, _⟩ | ⟨l, hsome, _, hmonitor⟩
    · rw [hsame] at hnumbers hnext
      simpa [hnone] using ⟨hnumbers, hnext⟩
    · have hone : s₁.shared.monitor.nextId = s.shared.monitor.nextId + 1 := by
        simp [hmonitor, HealthMonitor.subscribe]
      rw [hone] at hnumbers hnext
      refine ⟨?_, ?_⟩
      · simp [hsome, hnumbers, List.range'_succ]
      · simp [hsome, hnext]
        omega

/-- The listeners are those of the subscriptions that have been made, in their order, without those
that have been dropped. -/
theorem listeners_of_play? (hmade : s.Along (monitorProgram aud) DropsMade moves)
    (h : s.play? (monitorProgram aud) moves = some s') :
    s'.shared.monitor.listeners =
      (s.shared.monitor.listeners ++ s.subscriptions aud moves).filter
        (·.1 ∉ dropped moves) := by
  induction moves generalizing s with
  | nil =>
    cases h
    simp [subscriptions, Threads.collect, dropped]
  | cons move rest ih =>
    obtain ⟨t, m⟩ := move
    obtain ⟨s₁, hstep, hrest⟩ := Option.bind_eq_some_iff.mp h
    obtain ⟨hfirst, hmade⟩ := hmade
    rw [ih (hmade s₁ hstep) hrest, subscriptions_cons hstep]
    rcases registers_of_step? hstep with ⟨hnone, hsame, hlisteners⟩ | ⟨l, hsome, rfl, hmonitor⟩
    · -- what is dropped now is no subscription that is made later
      have hlater : ∀ l ∈ subscriptions aud s₁ rest, m.dropped? ≠ some l.1 := by
        intro l hl hdrop
        have hnumber := List.mem_map_of_mem (f := Prod.fst) hl
        rw [(numbers_of_play? hrest).1, List.mem_range'_1, hsame] at hnumber
        have hid : l.1 < s.shared.monitor.nextId := hfirst l.1 hdrop
        omega
      rw [hlisteners, hnone, List.filter_append, List.filter_append, List.filter_filter]
      refine congrArg₂ (· ++ ·) (List.filter_congr fun l _ => ?_) (List.filter_congr fun l hl => ?_)
      · rw [Bool.eq_iff_iff]
        simp [notMem_dropped_cons, and_comm]
      · simp [notMem_dropped_cons, hlater l hl]
    · simp [hsome, hmonitor, HealthMonitor.subscribe, notMem_dropped_cons, MonitorMove.dropped?]

/-! ## One round -/

def IsInside (t : Fin n) (depth : Nat) (s : MonitorThreads n ι β) : Prop :=
  (s.placed t depth).isSome

instance (t : Fin n) (depth : Nat) : DecidablePred (@IsInside ι β n t depth) :=
  fun s => inferInstanceAs (Decidable ((s.placed t depth).isSome = true))

def callsAt (aud : Audience ι α β) (t : Fin n) (depth : Nat) (s : MonitorThreads n ι β)
    (moves : List (Fin n × MonitorMove ι α)) : List (ListenerCall n) :=
  (s.calls aud moves).filter (·.IsAt t depth)

theorem callsAt_cons (h : s.step? (monitorProgram aud) u m = some s')
    (rest : List (Fin n × MonitorMove ι α)) :
    s.callsAt aud t depth ((u, m) :: rest) =
      (s.callOf u m).toList.filter (·.IsAt t depth) ++ s'.callsAt aud t depth rest := by
  rw [callsAt, calls_cons h, List.filter_append]
  rfl

private theorem callsAt_cons_elsewhere (h : s.step? (monitorProgram aud) u m = some s')
    (helsewhere : ∀ c ∈ s.callOf u m, ¬c.IsAt t depth) (rest : List (Fin n × MonitorMove ι α)) :
    s.callsAt aud t depth ((u, m) :: rest) = s'.callsAt aud t depth rest := by
  rw [callsAt_cons h, List.filter_eq_nil_iff.mpr (by simpa using helsewhere), List.nil_append]

private theorem told_of_tells {h : HealthState} {ls : List (Nat × ι)} {w : MonitorWork ι}
    (hw : w.Tells h ls) (hplaced : s.placed t depth = some w)
    (hinside : s.Throughout (monitorProgram aud) (IsInside t depth) moves)
    (hplay : s.play? (monitorProgram aud) moves = some s') :
    ∃ left w', MonitorWork.Tells h left w' ∧ s'.placed t depth = some w' ∧
      s.callsAt aud t depth moves ++ left.map (fun l => ⟨t, depth, l.1, h⟩) =
        ls.map fun l => ⟨t, depth, l.1, h⟩ := by
  induction moves generalizing s w ls with
  | nil =>
    cases hplay
    exact ⟨ls, w, hw, hplaced, rfl⟩
  | cons move rest ih =>
    obtain ⟨u, m⟩ := move
    obtain ⟨s₁, hstep, hrest⟩ := Option.bind_eq_some_iff.mp hplay
    have hinside₁ := hinside.2 s₁ hstep
    rcases turn_at_or_elsewhere hstep t depth with ⟨rfl, turn, hcall⟩ | ⟨hsame, helsewhere⟩
    · rw [callsAt_cons hstep, hcall]
      have hstays : (s₁.placed u depth).isSome := hinside₁.first
      rw [hplaced] at turn ⊢
      generalize hafter : s₁.placed u depth = after at turn hstays
      generalize s₁.shared = shared at turn
      cases hw with
      | telling =>
        cases turn with
        | done => cases hstays
        | call _ l ls =>
          obtain ⟨left, w', hw', hplaced', hcalls⟩ := ih .listening hafter hinside₁ hrest
          refine ⟨left, w', hw', hplaced', ?_⟩
          simp [MonitorWork.nextCall?, ListenerCall.IsAt, hcalls]
      | listening =>
        cases turn with
        | back =>
          obtain ⟨left, w', hw', hplaced', hcalls⟩ := ih .telling hafter hinside₁ hrest
          refine ⟨left, w', hw', hplaced', ?_⟩
          simp [MonitorWork.nextCall?, hcalls]
    · rw [callsAt_cons_elsewhere hstep helsewhere]
      exact ih hw (hsame.trans hplaced) hinside₁ hrest

def Finds (aud : Audience ι α β) (t : Fin n) (depth : Nat) (h : HealthState)
    (s : MonitorThreads n ι β) (moves : List (Fin n × MonitorMove ι α)) (ls : List (Nat × ι)) :
    Prop :=
  ∃ early m late now next, moves = early ++ (t, m) :: late ∧
    s.play? (monitorProgram aud) early = some now ∧ now.placed t depth = some (.changed h) ∧
    now.step? (monitorProgram aud) t m = some next ∧ next.placed t depth = some (.telling h ls) ∧
    now.shared.monitor.listeners = ls

/-- A round calls nobody before it has looked up the listeners, and then these one after another. -/
theorem told_of_changed {h : HealthState} (hplaced : s.placed t depth = some (.changed h))
    (hinside : s.Throughout (monitorProgram aud) (IsInside t depth) moves)
    (hplay : s.play? (monitorProgram aud) moves = some s') :
    s'.placed t depth = some (.changed h) ∨
      ∃ ls left w', Finds aud t depth h s moves ls ∧ MonitorWork.Tells h left w' ∧
        s'.placed t depth = some w' ∧
        s.callsAt aud t depth moves ++ left.map (fun l => ⟨t, depth, l.1, h⟩) =
          ls.map fun l => ⟨t, depth, l.1, h⟩ := by
  induction moves generalizing s with
  | nil =>
    cases hplay
    exact .inl hplaced
  | cons move rest ih =>
    obtain ⟨u, m⟩ := move
    obtain ⟨s₁, hstep, hrest⟩ := Option.bind_eq_some_iff.mp hplay
    have hinside₁ := hinside.2 s₁ hstep
    rcases turn_at_or_elsewhere hstep t depth with ⟨rfl, turn, hcall⟩ | ⟨hsame, helsewhere⟩
    · rw [callsAt_cons hstep, hcall]
      rw [hplaced] at turn ⊢
      generalize hafter : s₁.placed u depth = after at turn
      generalize s₁.shared = shared at turn
      cases turn with
      | lookUp =>
        obtain ⟨left, w', hw', hplaced', hcalls⟩ := told_of_tells .telling hafter hinside₁ hrest
        refine .inr ⟨s.shared.monitor.listeners, left, w', ?_, hw', hplaced', ?_⟩
        · exact ⟨[], .proceed, rest, s, s₁, rfl, rfl, hplaced, hstep, hafter, rfl⟩
        · simp [MonitorWork.nextCall?, hcalls]
    · rw [callsAt_cons_elsewhere hstep helsewhere]
      rcases ih (hsame.trans hplaced) hinside₁ hrest with
        hchanged | ⟨ls, left, w', hfinds, htold⟩
      · exact .inl hchanged
      · refine .inr ⟨ls, left, w', ?_, htold⟩
        obtain ⟨early, m', late, now, next, rfl, hearly, hlook⟩ := hfinds
        refine ⟨(u, m) :: early, m', late, now, next, rfl, ?_, hlook⟩
        simp [Threads.play?, hstep, hearly]

/-- A thread changes the state and comes back from that after the moves `during` and one more. -/
structure ChangesState (aud : Audience ι α β) (s : MonitorThreads n ι β) (t : Fin n)
    (h : HealthState) (s₁ : MonitorThreads n ι β) (during : List (Fin n × MonitorMove ι α)) :
    Prop where
  new : s.shared.monitor.state ≠ h
  begins : s.step? (monitorProgram aud) t (.set h) = some s₁
  inside : s₁.Throughout (monitorProgram aud) (IsInside t (s.stackOf t).length) during
  ends : ∃ s₂ u m s₃, s₁.play? (monitorProgram aud) during = some s₂ ∧
    s₂.step? (monitorProgram aud) u m = some s₃ ∧ ¬IsInside t (s.stackOf t).length s₃

/-- What is left at a place when a thread comes back from it is a round without calls to make. -/
theorem left_of_back {w : MonitorWork ι} (hplaced : s.placed t depth = some w)
    (hstep : s.step? (monitorProgram aud) u m = some s') (hback : ¬IsInside t depth s') :
    (∀ h, w ≠ .changed h) ∧ ∀ h left, w.Tells h left → left = [] := by
  rcases turn_at_or_elsewhere hstep t depth with ⟨rfl, turn, _⟩ | ⟨hsame, _⟩
  · have hnone : s'.placed u depth = none := by simpa [IsInside] using hback
    rw [hplaced, hnone] at turn
    generalize s'.shared = shared at turn
    cases turn with
    | done => exact ⟨nofun, fun h left htells => by cases htells; rfl⟩
    | subscribe => exact ⟨nofun, nofun⟩
  · exact absurd (by simp [IsInside, hsame, hplaced]) hback

private theorem ChangesState.placed {h : HealthState} {s₁ : MonitorThreads n ι β}
    {during : List (Fin n × MonitorMove ι α)} (hchange : ChangesState aud s t h s₁ during) :
    s₁.placed t (s.stackOf t).length = some (.changed h) := by
  obtain ⟨before, shared, after, rest, turn, hbefore, rfl⟩ := turn_of_step? hchange.begins
  cases turn with
  | keep => exact absurd rfl hchange.new
  | change =>
    rw [Threads.placed_exchange hbefore]
    simp [hbefore]

/-- A change calls the listeners that it finds registered, each once, in their order. -/
theorem ChangesState.told {h : HealthState} {s₁ : MonitorThreads n ι β}
    {during : List (Fin n × MonitorMove ι α)} (hchange : ChangesState aud s t h s₁ during) :
    ∃ ls, Finds aud t (s.stackOf t).length h s₁ during ls ∧
      s₁.callsAt aud t (s.stackOf t).length during =
        ls.map fun l => ⟨t, (s.stackOf t).length, l.1, h⟩ := by
  obtain ⟨s₂, u, m, s₃, hplay, hlast, hback⟩ := hchange.ends
  rcases told_of_changed hchange.placed hchange.inside hplay with
    hchanged | ⟨ls, left, w', hfinds, hw', hplaced, hcalls⟩
  · exact absurd rfl ((left_of_back hchanged hlast hback).1 h)
  · refine ⟨ls, hfinds, ?_⟩
    rw [← hcalls, (left_of_back hplaced hlast hback).2 h left hw']
    simp

/-! ## Every round -/

/-- What listeners put down is what they have been told, by some round each time. -/
theorem log_of_play? {s s' : MonitorThreads n ι HealthLog}
    {moves : List (Fin n × MonitorMove ι Empty)}
    (h : s.play? (monitorProgram recorder) moves = some s') :
    s'.shared.books =
      s.shared.books ++ (s.calls recorder moves).map fun c => (c.id, c.state) := by
  induction moves generalizing s with
  | nil =>
    cases h
    simp [calls, Threads.collect]
  | cons move rest ih =>
    obtain ⟨t, m⟩ := move
    obtain ⟨s₁, hstep, hrest⟩ := Option.bind_eq_some_iff.mp h
    have hlog : s₁.shared.books =
        s.shared.books ++ (s.callOf t m).toList.map fun c => (c.id, c.state) := by
      obtain ⟨before, shared, after, rest, turn, hbefore, rfl⟩ := turn_of_step? hstep
      cases turn with
      | act a => exact a.elim
      | _ => simp [callOf, hbefore, MonitorWork.nextCall?, recorder]
    rw [ih hrest, hlog, calls_cons hstep]
    simp

/-- The subscriptions that have been made and not dropped. -/
def standing (aud : Audience ι α β) (s : MonitorThreads n ι β)
    (moves : List (Fin n × MonitorMove ι α)) : List (Nat × ι) :=
  (s.subscriptions aud moves).filter (·.1 ∉ dropped moves)

/-- Whatever threads and listeners do with a new monitor, its listeners are those of the
subscriptions that have been made and not dropped, in their order. A change of the state calls those
that it finds registered, each once and in their order, with the new state, and nobody else is ever
called; dropping a subscription takes its own listener away and no other. -/
theorem each_round_calls_registered {s : MonitorThreads n ι HealthLog}
    {moves : List (Fin n × MonitorMove ι Empty)}
    (hmade : (idle n {} []).Along (monitorProgram recorder) DropsMade moves)
    (h : (idle n {} []).play? (monitorProgram recorder) moves = some s) :
    s.shared.monitor.listeners = (idle n {} []).standing recorder moves ∧
    s.shared.monitor.listenerCount = ((idle n {} []).standing recorder moves).length ∧
    ((idle n {} []).subscriptions recorder moves).Pairwise (·.1 < ·.1) ∧
    s.shared.books = ((idle n {} []).calls recorder moves).map (fun c => (c.id, c.state)) ∧
    (∀ t s', s.step? (monitorProgram recorder) t (.set s.shared.monitor.state) = some s' →
      s' = s) ∧
    (∀ t s' before id l after, s.shared.monitor.listeners = before ++ (id, l) :: after →
      s.step? (monitorProgram recorder) t (.drop id) = some s' →
      s'.shared.monitor.listeners = before ++ after) ∧
    ∀ t h s₁ during, ChangesState recorder s t h s₁ during →
      ∃ ls, Finds recorder t (s.stackOf t).length h s₁ during ls ∧ ls.Pairwise (·.1 < ·.1) ∧
        s₁.callsAt recorder t (s.stackOf t).length during =
          ls.map fun l => ⟨t, (s.stackOf t).length, l.1, h⟩ := by
  have hranked : s.shared.monitor.Ranked := ranked_of_play? HealthMonitor.ranked_new h
  have hlisteners : s.shared.monitor.listeners = (idle n {} []).standing recorder moves :=
    listeners_of_play? hmade h
  have hnumbers := (numbers_of_play? h).1
  refine ⟨hlisteners, congrArg List.length hlisteners, ?_, log_of_play? h, ?_, ?_, ?_⟩
  · rw [← List.pairwise_map, hnumbers]
    exact List.pairwise_lt_range'
  · intro t s' hstep
    obtain ⟨before, shared, after, rest, turn, hbefore, rfl⟩ := turn_of_step? hstep
    cases turn with
    | keep => rw [← hbefore, Threads.set_stackOf]
    | change _ hnew => exact absurd rfl hnew
  · intro t s' before id l after hl hstep
    obtain ⟨_, shared, _, rest, turn, hbefore, rfl⟩ := turn_of_step? hstep
    cases turn
    exact hranked.listeners_unsubscribe hl
  · intro t h s₁ during hchange
    obtain ⟨ls, hfinds, hcalls⟩ := hchange.told
    refine ⟨ls, hfinds, ?_, hcalls⟩
    obtain ⟨early, _, _, now, _, _, hearly, _, _, _, rfl⟩ := hfinds
    exact (ranked_of_play? (ranked_of_step? hranked hchange.begins) hearly).sorted

/-- A listener sets the state back from inside its own call, and meanwhile another thread drops the
listener behind it. Only the outer round calls that one. -/
theorem each_round_calls_registered_nested :
    let made : List (Fin 2 × MonitorMove Unit Empty) :=
      [(0, .join ()), (0, .proceed), (1, .join ()), (1, .proceed)]
    let proceeds (k : Nat) := List.replicate k ((0 : Fin 2), (.proceed : MonitorMove Unit Empty))
    let during := proceeds 2 ++ (0, .set .healthy) :: (1, .drop 1) :: proceeds 7
    ∃ s s₁ : MonitorThreads 2 Unit HealthLog,
      (idle 2 {} []).play? (monitorProgram recorder) made = some s ∧
      s.shared.monitor.listeners = [(0, ()), (1, ())] ∧
      ChangesState recorder s 0 .unhealthy s₁ during ∧
      (∃ ls, Finds recorder 0 0 .unhealthy s₁ during ls ∧
        s₁.callsAt recorder 0 0 during = ls.map fun l => ⟨0, 0, l.1, .unhealthy⟩) ∧
      s₁.callsAt recorder 0 0 during = [⟨0, 0, 0, .unhealthy⟩, ⟨0, 0, 1, .unhealthy⟩] ∧
      s₁.callsAt recorder 0 1 during = [⟨0, 1, 0, .healthy⟩] := by
  intro made proceeds during
  have hmade : (idle 2 {} []).Along (monitorProgram recorder) DropsMade made := by decide +kernel
  obtain ⟨s, s₁, hs, hstack, hchange, houter, hnested⟩ :
      ∃ s s₁ : MonitorThreads 2 Unit HealthLog,
        (idle 2 {} []).play? (monitorProgram recorder) made = some s ∧ s.stackOf 0 = [] ∧
        ChangesState recorder s 0 .unhealthy s₁ during ∧
        s₁.callsAt recorder 0 0 during = [⟨0, 0, 0, .unhealthy⟩, ⟨0, 0, 1, .unhealthy⟩] ∧
        s₁.callsAt recorder 0 1 during = [⟨0, 1, 0, .healthy⟩] :=
    ⟨_, _, rfl, rfl, ⟨by decide, rfl, by decide +kernel, _, 0, .proceed, _, rfl, rfl,
      by decide +kernel⟩, by decide +kernel, by decide +kernel⟩
  obtain ⟨hlisteners, _, _, _, _, _, hrounds⟩ := each_round_calls_registered hmade hs
  obtain ⟨ls, hfinds, _, hcalls⟩ := hrounds 0 .unhealthy s₁ during hchange
  rw [hstack] at hfinds hcalls
  exact ⟨s, s₁, hs, hlisteners.trans (by decide +kernel), hchange, ⟨ls, hfinds, hcalls⟩, houter,
    hnested⟩

end MonitorThreads

end BrokerBridge
