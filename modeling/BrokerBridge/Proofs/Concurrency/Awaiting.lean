import BrokerBridge.Proofs.Concurrency.Progress

/-!
# Calls that wait for callbacks

While a native call is in flight the client may invoke callbacks on any thread, and the call may
wait until callbacks have returned. One outside of callbacks may wait for any of them. One inside a
callback waits for those that the client has invoked since, never for one that is older than what
it is inside of (two that did could stop each other, as in `SessionThreads.stuck_in_circle`). So
along a chain of calls that wait the callbacks began later and later, and no such chain is a circle.
-/

namespace BrokerBridge

/-- An activity with its number, in the order in which activities are begun, and the numbers of the
callbacks that its native call waits for. -/
structure TrackedActivity where
  activity : Activity
  number : Nat
  awaits : List Nat := []

def TrackedActivity.become (f : TrackedActivity) (a : Activity) : TrackedActivity :=
  { f with activity := a }

/-- What threads share, with the next number and the numbers of the callbacks that have not
returned. -/
structure AwaitingRoom where
  session : SharedSession
  next : Nat := 0
  callbacks : List Nat := []

namespace AwaitingRoom

def begin (s : AwaitingRoom) (a : Activity) : AwaitingRoom :=
  { s with
    next := s.next + 1
    callbacks := if a.isCallback then s.next :: s.callbacks else s.callbacks }

/-- Something has become of an activity; where nothing is left of a callback, it has returned. -/
def follow (s : AwaitingRoom) (f : TrackedActivity) (session : SharedSession) :
    Option Activity → AwaitingRoom
  | some _ => { s with session }
  | none => { s with session, callbacks := s.callbacks.filter (· != f.number) }

def detains (s : AwaitingRoom) (f : TrackedActivity) : Bool := f.awaits.any s.callbacks.contains

end AwaitingRoom

def SessionMove.isAnswer : SessionMove → Bool
  | takeEffect | finish _ => true
  | begin _ | proceed | giveUp | wait => false

def Activity.move? (s : SharedSession) (t : ThreadId) (delivering : Bool) (a : Activity) :
    SessionMove → Option (SharedSession × Option Activity)
  | .begin _ => none
  | .proceed => a.proceed? s t delivering
  | .takeEffect => (a.takeEffect? s t).map fun (s, a) => (s, some a)
  | .finish code => (a.finish? s t code).map fun (s, a) => (s, some a)
  | .giveUp => a.giveUp?.map fun a => (s, some a)
  | .wait => (a.wait? s t).map fun s => (s, some a)

/-- A move of the session, or a native call begins to wait for a callback. -/
inductive AwaitingMove where
  | session (m : SessionMove)
  | await (callback : Nat)
deriving DecidableEq, Repr

/-- What threads do with a session whose client lets calls wait for callbacks. -/
def awaitingProgram : Program AwaitingRoom TrackedActivity AwaitingMove := fun s t stack m =>
  match m, stack with
  | .session (.begin e), stack =>
      (orderlyProgram s.session t (stack.map TrackedActivity.activity) (.begin e)).map fun _ =>
        (s.begin e.activity, ⟨e.activity, s.next, []⟩ :: stack)
  | .session m, f :: rest =>
      if m.isAnswer && s.detains f then none
      else (f.activity.move? s.session t (rest.any (·.activity.delivers)) m).map
        fun (session, a) => (s.follow f session a, (a.map f.become).toList ++ rest)
  | .await k, f :: rest =>
      if f.activity.isCall && s.callbacks.contains k &&
          rest.all fun g => !g.activity.isCallback || g.number < k then
        some (s, { f with awaits := k :: f.awaits } :: rest)
      else none
  | _, [] => none

abbrev AwaitingThreads (n : Nat) := Threads n AwaitingRoom TrackedActivity

def AwaitingThreads.idle (n : Nat) (started : Bool) : AwaitingThreads n :=
  .atRest { session := { gate := { started } } }

/-! ## What a move can do -/

namespace Activity

variable {s s' : SharedSession} {t : ThreadId} {a : Activity}

private theorem Next.isCallback {a' : Activity} (h : a.Next s t s' (some a')) :
    a'.isCallback = a.isCallback := by
  cases h with
  | edge he => cases he <;> rfl
  | _ => rfl

private theorem next_of_move? {delivering : Bool} {m : SessionMove} {a' : Option Activity}
    (h : a.move? s t delivering m = some (s', a')) : a.Next s t s' a' := by
  cases m with
  | begin e => cases h
  | proceed => exact next_of_proceed? h
  | takeEffect =>
    obtain ⟨_, ha, ⟨⟩⟩ := Option.map_eq_some_iff.mp h
    exact next_of_takeEffect? ha
  | finish code =>
    obtain ⟨_, ha, ⟨⟩⟩ := Option.map_eq_some_iff.mp h
    exact next_of_finish? ha
  | giveUp =>
    obtain ⟨_, ha, ⟨⟩⟩ := Option.map_eq_some_iff.mp h
    exact next_of_giveUp? ha
  | wait =>
    obtain ⟨_, ha, ⟨⟩⟩ := Option.map_eq_some_iff.mp h
    exact next_of_wait? ha

private theorem not_isCallback_of_isCall (h : a.isCall = true) : a.isCallback = false := by
  cases a with
  | host => cases h
  | _ => rfl

end Activity

theorem orderlyProgram_cons (s : SharedSession) (t : ThreadId) (a : Activity)
    (rest : List Activity) {m : SessionMove} (hm : ∀ e, m ≠ .begin e) :
    orderlyProgram s t (a :: rest) m =
      (a.move? s t (rest.any Activity.delivers) m).map fun (s, a) => (s, a.toList ++ rest) := by
  cases m with
  | begin e => exact absurd rfl (hm e)
  | proceed => rfl
  | _ =>
    simp only [orderlyProgram, sessionProgram, Activity.move?, Option.map_map]
    rfl

inductive AwaitingRoom.Turn (s : AwaitingRoom) (rest : List TrackedActivity) :
    Option TrackedActivity → AwaitingRoom → Option TrackedActivity → Prop
  | begin (e : Errand) : Turn s rest none (s.begin e.activity) (some ⟨e.activity, s.next, []⟩)
  | become (f session a) (same : a.isCallback = f.activity.isCallback) :
      Turn s rest (some f) { s with session } (some (f.become a))
  | finish (f session) : Turn s rest (some f) (s.follow f session none) none
  | await (f k) (call : f.activity.isCall = true)
      (later : ∀ g ∈ rest, g.activity.isCallback = true → g.number < k) :
      Turn s rest (some f) s (some { f with awaits := k :: f.awaits })

private theorem turn_of_awaitingProgram {s s' : AwaitingRoom} {t : ThreadId}
    {stack stack' : List TrackedActivity} {m : AwaitingMove}
    (h : awaitingProgram s t stack m = some (s', stack')) :
    ∃ f f' rest, stack = f.toList ++ rest ∧ stack' = f'.toList ++ rest ∧ s.Turn rest f s' f' := by
  unfold awaitingProgram at h
  split at h
  · next e =>
    obtain ⟨_, _, ⟨⟩⟩ := Option.map_eq_some_iff.mp h
    exact ⟨none, _, stack, rfl, rfl, .begin e⟩
  · next f rest _ =>
    split at h
    · cases h
    · obtain ⟨⟨session, a⟩, ha, ⟨⟩⟩ := Option.map_eq_some_iff.mp h
      cases a with
      | none => exact ⟨some f, none, rest, rfl, rfl, .finish f session⟩
      | some a =>
        have hsame := (Activity.next_of_move? ha).isCallback
        exact ⟨some f, _, rest, rfl, rfl, .become f session a hsame⟩
  · next k f rest =>
    split at h
    · next hawaits =>
      cases h
      simp only [Bool.and_eq_true, List.all_eq_true, Bool.or_eq_true, Bool.not_eq_true',
        decide_eq_true_eq] at hawaits
      obtain ⟨⟨hcall, _⟩, hlater⟩ := hawaits
      refine ⟨some f, _, rest, rfl, rfl, .await f k hcall fun g hg hcallback => ?_⟩
      exact (hlater g hg).resolve_left (by simp [hcallback])
    · cases h
  · cases h

private theorem eq_of_orderlyProgram_begin {s s' : SharedSession} {t : ThreadId}
    {stack stack' : List Activity} {e : Errand}
    (h : orderlyProgram s t stack (.begin e) = some (s', stack')) :
    s' = s ∧ stack' = e.activity :: stack := by
  simp only [orderlyProgram, sessionProgram] at h
  split at h
  · cases h
  · split at h
    · cases h
      exact ⟨rfl, rfl⟩
    · cases h

private theorem session_of_awaitingProgram {s s' : AwaitingRoom} {t : ThreadId}
    {stack stack' : List TrackedActivity} {m : AwaitingMove}
    (h : awaitingProgram s t stack m = some (s', stack')) :
    (∃ m', orderlyProgram s.session t (stack.map TrackedActivity.activity) m' =
      some (s'.session, stack'.map TrackedActivity.activity)) ∨
    s'.session = s.session ∧
      stack'.map TrackedActivity.activity = stack.map TrackedActivity.activity := by
  unfold awaitingProgram at h
  split at h
  · next e =>
    obtain ⟨⟨session, stack₁⟩, hp, ⟨⟩⟩ := Option.map_eq_some_iff.mp h
    obtain ⟨rfl, rfl⟩ := eq_of_orderlyProgram_begin hp
    exact .inl ⟨_, hp⟩
  · next m f rest hm =>
    split at h
    · cases h
    · obtain ⟨⟨session, a⟩, ha, ⟨⟩⟩ := Option.map_eq_some_iff.mp h
      have hrest : (rest.map TrackedActivity.activity).any Activity.delivers =
          rest.any (·.activity.delivers) := List.any_map
      refine .inl ⟨m, ?_⟩
      rw [List.map_cons, orderlyProgram_cons _ _ _ _ hm, hrest, ha]
      cases a <;> rfl
  · split at h
    · cases h
      exact .inr ⟨rfl, rfl⟩
    · cases h
  · cases h

namespace AwaitingThreads

variable {n : Nat} {s s' : AwaitingThreads n} {t u : Fin n} {m : AwaitingMove}

def session (s : AwaitingThreads n) : SessionThreads n :=
  ⟨s.shared.session, fun t => (s.stackOf t).map TrackedActivity.activity⟩

theorem session_set (s : AwaitingThreads n) (t : Fin n) (shared : AwaitingRoom)
    (stack : List TrackedActivity) :
    session (s.set t shared stack) =
      s.session.set t shared.session (stack.map TrackedActivity.activity) := by
  unfold session Threads.set
  congr 1
  funext u
  by_cases hu : u = t
  · simp [hu]
  · simp [Function.update_of_ne hu]

/-! ## What holds of every interleaving -/

/-- The numbers of callbacks that have not returned are numbers of callbacks, and a call waits for
callbacks that began later than all that it is inside of. -/
structure Numbered (s : AwaitingThreads n) : Prop where
  orderly : s.session.Orderly
  counted : ∀ t, ∀ f ∈ s.stackOf t, f.number < s.shared.next
  nested : ∀ t, (s.stackOf t).Pairwise fun f g => g.number < f.number
  live : ∀ k ∈ s.shared.callbacks,
    ∃ t, ∃ g ∈ s.stackOf t, g.activity.isCallback = true ∧ g.number = k
  calls : ∀ t, ∀ f ∈ s.stackOf t, f.activity.isCallback = true → f.awaits = []
  later : ∀ t, (s.stackOf t).Pairwise fun f g =>
    g.activity.isCallback = true → ∀ k ∈ f.awaits, g.number < k

private theorem orderly_session_step (hs : s.session.Orderly)
    (h : s.step? awaitingProgram t m = some s') :
    s'.session.Orderly := by
  obtain ⟨shared, stack, hp, rfl⟩ := Threads.exists_of_step? h
  rw [session_set]
  rcases session_of_awaitingProgram hp with ⟨m', hm⟩ | ⟨hshared, hstack⟩
  · refine SessionThreads.orderly_step (t := t) (m := m') hs ?_
    rw [Threads.step?]
    exact Option.map_eq_some_iff.mpr ⟨_, hm, rfl⟩
  · rw [hshared, hstack]
    exact (Threads.set_stackOf s.session t s.shared.session).symm ▸ hs

/-- Whatever a thread is inside of stays, but for the innermost of the thread that moves. -/
theorem mem_exchange {before : Option TrackedActivity} {rest : List TrackedActivity}
    {g : TrackedActivity} (hstack : s.stackOf t = before.toList ++ rest) (shared : AwaitingRoom)
    (after : Option TrackedActivity) (hg : g ∈ s.stackOf u) :
    g ∈ (s.set t shared (after.toList ++ rest)).stackOf u ∨ u = t ∧ before = some g := by
  by_cases hu : u = t
  · subst hu
    rw [hstack] at hg
    rw [Threads.stackOf_set_self]
    rcases List.mem_append.mp hg with hbefore | hrest
    · exact .inr ⟨rfl, Option.mem_toList.mp hbefore⟩
    · exact .inl (List.mem_append_right _ hrest)
  · rw [Threads.stackOf_set_of_ne s hu]
    exact .inl hg

variable {f f' : Option TrackedActivity} {rest : List TrackedActivity} {shared : AwaitingRoom}

private theorem Numbered.counted_turn (hs : s.Numbered) (hstack : s.stackOf t = f.toList ++ rest)
    (h : s.shared.Turn rest f shared f') :
    ∀ u, ∀ g ∈ (s.set t shared (f'.toList ++ rest)).stackOf u, g.number < shared.next := by
  have hnext : s.shared.next ≤ shared.next := by
    cases h with
    | begin => exact Nat.le_succ _
    | _ => exact le_refl _
  refine Threads.forall_mem_exchange (P := fun _ g => g.number < shared.next)
    (fun u g hg => (hs.counted u g hg).trans_le hnext) hstack ?_ shared
  cases h with
  | begin e =>
    rintro _ ⟨⟩
    exact Nat.lt_succ_self _
  | become f | await f =>
    rintro _ ⟨⟩
    exact hs.counted t f (Threads.mem_of_exchange hstack rfl)
  | finish => nofun

private theorem Numbered.nested_turn (hs : s.Numbered) (hstack : s.stackOf t = f.toList ++ rest)
    (h : s.shared.Turn rest f shared f') :
    ∀ u, ((s.set t shared (f'.toList ++ rest)).stackOf u).Pairwise fun f g =>
      g.number < f.number := by
  refine Threads.forall_set s (fun _ stack => stack.Pairwise fun f g => g.number < f.number)
    (fun u _ => hs.nested u) ?_
  have hnested := hs.nested t
  rw [hstack] at hnested
  cases h with
  | begin e => exact hnested.cons fun g hg => hs.counted t g (hstack ▸ hg)
  | become f | await f =>
    obtain ⟨hinner, hrest⟩ := List.pairwise_cons.mp hnested
    exact hrest.cons hinner
  | finish => exact (List.pairwise_cons.mp hnested).2

private theorem Numbered.live_turn (hs : s.Numbered) (hstack : s.stackOf t = f.toList ++ rest)
    (h : s.shared.Turn rest f shared f') :
    ∀ k ∈ shared.callbacks, ∃ u, ∃ g ∈ (s.set t shared (f'.toList ++ rest)).stackOf u,
      g.activity.isCallback = true ∧ g.number = k := by
  have hkept {k : Nat} (hk : k ∈ s.shared.callbacks)
      (hnew : ∀ g ∈ f, g.activity.isCallback = true → g.number = k →
        ∃ g' ∈ f', g'.activity.isCallback = true ∧ g'.number = k) :
      ∃ u, ∃ g ∈ (s.set t shared (f'.toList ++ rest)).stackOf u,
        g.activity.isCallback = true ∧ g.number = k := by
    obtain ⟨u, g, hg, hcallback, hnumber⟩ := hs.live k hk
    rcases mem_exchange hstack shared f' hg with hg | ⟨_, rfl⟩
    · exact ⟨u, g, hg, hcallback, hnumber⟩
    · obtain ⟨g', hg', hcallback', hnumber'⟩ := hnew g rfl hcallback hnumber
      refine ⟨t, g', ?_, hcallback', hnumber'⟩
      rw [Threads.stackOf_set_self]
      exact List.mem_append_left _ (Option.mem_toList.mpr hg')
  intro k hk
  cases h with
  | begin e =>
    by_cases hcallback : e.activity.isCallback = true
    · rw [AwaitingRoom.begin, if_pos hcallback] at hk
      rcases List.mem_cons.mp hk with rfl | hk
      · exact ⟨t, _, by rw [Threads.stackOf_set_self]; exact List.mem_cons_self .., hcallback, rfl⟩
      · exact hkept hk nofun
    · rw [AwaitingRoom.begin, if_neg hcallback] at hk
      exact hkept hk nofun
  | become f session a same =>
    refine hkept hk ?_
    rintro _ ⟨⟩ hcallback hnumber
    exact ⟨_, rfl, same.trans hcallback, hnumber⟩
  | finish f session =>
    obtain ⟨hk, hne⟩ := List.mem_filter.mp hk
    refine hkept hk ?_
    rintro _ ⟨⟩ _ rfl
    simp at hne
  | await f k' call later =>
    refine hkept hk ?_
    rintro _ ⟨⟩ hcallback hnumber
    exact ⟨_, rfl, hcallback, hnumber⟩

private theorem Numbered.calls_turn (hs : s.Numbered) (hstack : s.stackOf t = f.toList ++ rest)
    (h : s.shared.Turn rest f shared f') :
    ∀ u, ∀ g ∈ (s.set t shared (f'.toList ++ rest)).stackOf u,
      g.activity.isCallback = true → g.awaits = [] := by
  refine Threads.forall_mem_exchange
    (P := fun _ g => g.activity.isCallback = true → g.awaits = []) hs.calls hstack ?_ shared
  cases h with
  | begin e =>
    rintro _ ⟨⟩ _
    rfl
  | become f session a same =>
    rintro _ ⟨⟩ hcallback
    exact hs.calls t f (Threads.mem_of_exchange hstack rfl) (same.symm.trans hcallback)
  | finish => nofun
  | await f k call later =>
    rintro _ ⟨⟩ hcallback
    rw [Activity.not_isCallback_of_isCall call] at hcallback
    cases hcallback

private theorem Numbered.later_turn (hs : s.Numbered) (hstack : s.stackOf t = f.toList ++ rest)
    (h : s.shared.Turn rest f shared f') :
    ∀ u, ((s.set t shared (f'.toList ++ rest)).stackOf u).Pairwise fun f g =>
      g.activity.isCallback = true → ∀ k ∈ f.awaits, g.number < k := by
  refine Threads.forall_set s (fun _ stack => stack.Pairwise fun f g =>
    g.activity.isCallback = true → ∀ k ∈ f.awaits, g.number < k) (fun u _ => hs.later u) ?_
  have hlater := hs.later t
  rw [hstack] at hlater
  cases h with
  | begin e => exact hlater.cons fun _ _ _ _ hk => absurd hk List.not_mem_nil
  | become f session a same =>
    obtain ⟨hinner, hrest⟩ := List.pairwise_cons.mp hlater
    exact hrest.cons hinner
  | finish f session => exact (List.pairwise_cons.mp hlater).2
  | await f k call later =>
    obtain ⟨hinner, hrest⟩ := List.pairwise_cons.mp hlater
    refine hrest.cons fun g hg hcallback k' hk' => ?_
    rcases List.mem_cons.mp hk' with rfl | hk'
    · exact later g hg hcallback
    · exact hinner g hg hcallback k' hk'

private theorem Numbered.step (hs : s.Numbered) (h : s.step? awaitingProgram t m = some s') :
    s'.Numbered := by
  have horderly := orderly_session_step hs.orderly h
  obtain ⟨shared, stack, hp, rfl⟩ := Threads.exists_of_step? h
  obtain ⟨f, f', rest, hstack, rfl, hturn⟩ := turn_of_awaitingProgram hp
  exact ⟨horderly, hs.counted_turn hstack hturn, hs.nested_turn hstack hturn,
    hs.live_turn hstack hturn, hs.calls_turn hstack hturn,
    hs.later_turn hstack hturn⟩

/-- A call in progress may wait for every callback that began after it; one outside of callbacks
may wait for any. -/
theorem Numbered.step?_await (hs : s.Numbered) {f : TrackedActivity}
    (hstack : s.stackOf t = f :: rest) (hcall : f.activity.isCall = true) {k : Nat}
    (hk : k ∈ s.shared.callbacks)
    (hlater : f.number < k ∨ ∀ g ∈ rest, g.activity.isCallback = false) :
    (s.step? awaitingProgram t (.await k)).isSome = true := by
  have hnested := hs.nested t
  rw [hstack] at hnested
  have hbelow : rest.all (fun g => !g.activity.isCallback || g.number < k) = true := by
    rw [List.all_eq_true]
    intro g hg
    rcases hlater with hk | houtside
    · have hless := ((List.pairwise_cons.mp hnested).1 g hg).trans hk
      simp [hless]
    · simp [houtside g hg]
  rw [Threads.step?, hstack]
  simp [awaitingProgram, hcall, hk, hbelow]

/-! ## Waiting -/

/-- The innermost call of one thread waits for a callback on another, or for one on its own. -/
def Waits (s : AwaitingThreads n) (t u : Fin n) : Prop :=
  ∃ f rest, s.stackOf t = f :: rest ∧ ∃ k ∈ f.awaits,
    ∃ g ∈ s.stackOf u, g.activity.isCallback = true ∧ g.number = k

/-- One thread is inside a callback that began after all those that another is inside of. -/
def Later (s : AwaitingThreads n) (t u : Fin n) : Prop :=
  ∃ g ∈ s.stackOf u, g.activity.isCallback = true ∧
    ∀ f ∈ s.stackOf t, f.activity.isCallback = true → f.number < g.number

theorem Later.trans {v : Fin n} (h : s.Later t u) (h' : s.Later u v) : s.Later t v := by
  obtain ⟨g, hg, hcallback, hless⟩ := h
  obtain ⟨g', hg', hcallback', hless'⟩ := h'
  exact ⟨g', hg', hcallback', fun f hf hf' =>
    (hless f hf hf').trans (hless' g hg hcallback)⟩

end AwaitingThreads

end BrokerBridge
