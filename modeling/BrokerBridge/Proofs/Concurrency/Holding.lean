import BrokerBridge.Proofs.Concurrency.Readers

/-!
# What threads hold

In every interleaving each thread is as deep in host execution as the host code that it runs, and
counts as a reader once for every operation it is inside of. An operation that asks to be let in is
nested exactly where its thread is inside another one or in a callback, and only starts and stops
that are about to change the started state wait for it.
-/

namespace BrokerBridge

namespace Activity

/-! ## Host execution -/

/-- The host execution that an activity has given up, once it has stepped out. -/
def saved? : Activity → Option Nat
  | operation .arriving _ _ | start .arriving _ | stop _ .arriving _ | host _ _ => none
  | operation _ saved _ | start _ saved | stop _ _ saved => some saved

def levels : List Activity → Nat
  | [] => 0
  | host _ true :: rest => levels rest + 1
  | a :: rest => if a.saved?.isSome then 0 else levels rest

/-- What has been given up is what the thread was in before. -/
def Restores : List Activity → Prop
  | [] => True
  | a :: rest => (∀ k, a.saved? = some k → k = levels rest) ∧ Restores rest

theorem levels_of_saved? {a : Activity} {k : Nat} (h : a.saved? = some k) (rest : List Activity) :
    levels (a :: rest) = 0 := by
  cases a with
  | host => cases h
  | _ => simp [levels, h]

inductive HostTurn (lock : HostLock) (t : ThreadId) :
    Activity → HostLock → Option Activity → Prop
  | stepOut {a a'} (before : a.saved? = none) (outside : ∀ rest, levels (a :: rest) = levels rest)
      (saved : a'.saved? = some (lock.depthOf t)) :
      HostTurn lock t a (lock.leaveAll t).2 (some a')
  | stay {a a' k} (before : a.saved? = some k) (after : a'.saved? = some k) :
      HostTurn lock t a lock (some a')
  | stepBack {a k lock'} (saved : a.saved? = some k) (back : lock.restore? t k = some lock') :
      HostTurn lock t a lock' none
  | enter {d lock'} (entered : lock.enter? t 1 = some lock') :
      HostTurn lock t (host d false) lock' (some (host d true))
  | leave (d) : HostTurn lock t (host d true) lock.leave none

namespace HostTurn

variable {lock lock' : HostLock} {t : ThreadId} {a : Activity} {a' : Option Activity}
  {rest : List Activity}

private theorem depthOf (h : HostTurn lock t a lock' a')
    (hdepth : lock.depthOf t = levels (a :: rest))
    (hsaved : Restores (a :: rest)) (u : ThreadId) :
    lock'.depthOf u = if u = t then levels (a'.toList ++ rest) else lock.depthOf u := by
  cases h with
  | stepOut before outside saved =>
    rw [HostLock.depthOf_leaveAll, Option.toList_some, List.singleton_append,
      levels_of_saved? saved]
  | stay before after =>
    split
    · next hu =>
      rw [hu, hdepth, levels_of_saved? before]
      exact (levels_of_saved? after rest).symm
    · rfl
  | stepBack saved back =>
    rw [HostLock.depthOf_restore? back, hdepth, levels_of_saved? saved, hsaved.1 _ saved,
      Nat.zero_add]
    rfl
  | enter entered =>
    rw [HostLock.depthOf_enter? entered, hdepth]
    rfl
  | leave d =>
    have howner := HostLock.owner_of_depthOf (l := lock) (t := t) (by rw [hdepth, levels]; omega)
    rw [HostLock.depthOf_leave howner, hdepth]
    rfl

private theorem restores (h : HostTurn lock t a lock' a')
    (hdepth : lock.depthOf t = levels (a :: rest))
    (hsaved : Restores (a :: rest)) : Restores (a'.toList ++ rest) := by
  obtain ⟨hinner, hrest⟩ := hsaved
  cases h with
  | stepOut before outside saved =>
    refine ⟨fun k hk => ?_, hrest⟩
    rw [saved] at hk
    cases hk
    exact hdepth.trans (outside rest)
  | stay before after =>
    refine ⟨fun k hk => hinner k ?_, hrest⟩
    rw [before, ← hk, after]
  | stepBack | leave => exact hrest
  | enter => exact ⟨nofun, hrest⟩

private theorem wellFormed (h : HostTurn lock t a lock' a') (hlock : lock.WellFormed) :
    lock'.WellFormed := by
  cases h with
  | stepOut => exact HostLock.wellFormed_leaveAll hlock
  | stay => exact hlock
  | @stepBack _ k _ saved back =>
    unfold HostLock.restore? at back
    split at back
    · cases back
      exact hlock
    · next hk => exact HostLock.wellFormed_enter? (Nat.pos_of_ne_zero hk) back
  | enter entered => exact HostLock.wellFormed_enter? Nat.one_pos entered
  | leave => exact HostLock.wellFormed_leave hlock

end HostTurn

/-! ## Readers -/

def isCounted : Activity → Bool
  | operation .inside _ _ | operation (.calling _) _ _ | operation .leaving _ _ => true
  | _ => false

/-- What the gate notes of a thread: nothing, where it is not inside any operation. -/
def readerEntry (stack : List Activity) : Option Nat :=
  if stack.any isCounted then some (stack.countP isCounted) else none

theorem readerEntry_cons (a : Activity) (rest : List Activity) :
    readerEntry (a :: rest) =
      if a.isCounted then some ((readerEntry rest).getD 0 + 1) else readerEntry rest := by
  unfold readerEntry
  rw [List.any_cons, List.countP_cons]
  cases ha : a.isCounted with
  | false => simp
  | true =>
    cases hrest : rest.any isCounted with
    | true => simp
    | false =>
      have hnone : rest.countP isCounted = 0 := by
        rw [List.countP_eq_zero]
        simpa using hrest
      simp [hnone]

private theorem readerEntry_pos {stack : List Activity} {k : Nat} (h : readerEntry stack = some k) :
    0 < k := by
  unfold readerEntry at h
  split at h
  · next hany =>
    cases h
    rw [List.countP_pos_iff]
    simpa using hany
  · cases h

inductive ReaderTurn (g : Gate) (t : ThreadId) (a : Activity) : Gate → Option Activity → Prop
  | stay {g' a'} (readers : g'.readers = g.readers)
      (same : a'.any isCounted = a.isCounted) : ReaderTurn g t a g' a'
  | count {a'} (before : a.isCounted = false) (after : a'.isCounted = true) :
      ReaderTurn g t a (g.count t) (some a')
  | uncount {a'} (before : a.isCounted = true) (after : a'.isCounted = false) :
      ReaderTurn g t a (g.uncount t) (some a')

theorem ReaderTurn.lookup {g g' : Gate} {t : ThreadId} {a : Activity} {a' : Option Activity}
    {rest : List Activity} (h : ReaderTurn g t a g' a')
    (hentry : g.readers.lookup t = readerEntry (a :: rest)) (u : ThreadId) :
    g'.readers.lookup u =
      if u = t then readerEntry (a'.toList ++ rest) else g.readers.lookup u := by
  rw [readerEntry_cons] at hentry
  cases h with
  | stay readers same =>
    rw [readers]
    split
    · next hu =>
      rw [hu, hentry, ← same]
      cases a' with
      | none => rfl
      | some a' => exact (readerEntry_cons a' rest).symm
    · rfl
  | @count a' before after =>
    rw [before] at hentry
    rw [Gate.lookup_count, Gate.depthOf, hentry]
    simp [readerEntry_cons, after]
  | @uncount a' before after =>
    rw [before] at hentry
    have hback : readerEntry ((some a').toList ++ rest) = readerEntry rest := by
      simp [readerEntry_cons, after]
    rw [Gate.lookup_uncount, Gate.depthOf, hentry, hback]
    split
    · cases hrest : readerEntry rest with
      | none => simp
      | some k =>
        have hk := readerEntry_pos hrest
        simp
        omega
    · rfl

/-! ## What a move can do -/

/-- What a move leaves for later: what has been given up, and whether an operation is nested. -/
structure Notes (s : SharedSession) (t : ThreadId) (delivering : Bool) (a : Activity)
    (a' : Option Activity) : Prop where
  saved : a.saved? = none → ∀ k, a'.bind saved? = some k → k = s.host.depthOf t
  nested : ∀ nested saved calls, a' = some (.operation (.entering nested) saved calls) →
    nested = (delivering || s.gate.isReader t)

variable {s s' : SharedSession} {t : ThreadId} {a : Activity}

private theorem notes_of_proceed? {delivering : Bool} {a' : Option Activity}
    (h : a.proceed? s t delivering = some (s', a')) : a.Notes s t delivering a' := by
  constructor
  · intro hnone k hk
    have hout := s.host.leaveAll_fst t
    cases a with
    | operation stage saved calls =>
      cases stage with
      | arriving =>
        cases h
        cases hk
        exact hout
      | _ => cases hnone
    | start stage saved =>
      cases stage with
      | arriving =>
        cases h
        cases hk
        exact hout
      | _ => cases hnone
    | stop warn stage saved =>
      cases stage with
      | arriving =>
        cases h
        cases hk
        exact hout
      | _ => cases hnone
    | host delivers entered =>
      cases entered with
      | false =>
        obtain ⟨lock, _, heq⟩ := Option.map_eq_some_iff.mp h
        cases heq
        cases hk
      | true =>
        cases h
        cases hk
  · rintro nested saved calls rfl
    cases next_of_proceed? h with
    | ask =>
      cases h
      rfl
    | edge he => cases he

private theorem notes_of_saved? {delivering : Bool} {a' : Activity} {k : Nat}
    (ha : a.saved? = some k)
    (h : a.Next s t s' (some a')) (hask : ∀ saved calls, a ≠ .operation .asking saved calls) :
    a.Notes s t delivering (some a') := by
  constructor
  · intro hnone
    rw [ha] at hnone
    cases hnone
  · rintro nested saved calls heq
    cases heq
    cases h with
    | ask => exact (hask _ _ rfl).elim
    | edge he => cases he

namespace Next

variable {a' : Option Activity} {delivering : Bool}

private theorem hostTurn (h : a.Next s t s' a') (hnotes : a.Notes s t delivering a') :
    HostTurn s.host t a s'.host a' := by
  cases h with
  | edge he => cases he <;> exact .stay rfl rfl
  | operationOut | startOut | stopOut =>
    have hsaved := hnotes.saved rfl _ rfl
    refine .stepOut rfl (fun rest => rfl) ?_
    rw [← hsaved]
    rfl
  | operationBack _ _ _ back | startBack _ _ back | stopBack _ _ _ back =>
    obtain ⟨host, hback, rfl⟩ := Option.map_eq_some_iff.mp back
    exact .stepBack rfl hback
  | hostIn _ _ entered => exact .enter entered
  | hostOut => exact .leave _
  | _ => exact .stay rfl rfl

theorem readerTurn (h : a.Next s t s' a') : ReaderTurn s.gate t a s'.gate a' := by
  cases h with
  | edge he => cases he <;> exact .stay rfl rfl
  | count => exact .count rfl rfl
  | uncount => exact .uncount rfl rfl
  | operationBack _ _ _ back | startBack _ _ back | stopBack _ _ _ back =>
    exact .stay (by rw [(SharedSession.eq_of_stepBack? back).1]) rfl
  | _ => exact .stay rfl rfl

private theorem stops (h : a.Next s t s' a') {r : StopRequest} (hr : r ∈ s'.gate.waiting) :
    (r ∈ s.gate.waiting ∧ (r.thread = t → ∀ warn saved, a ≠ .stop warn .changing saved)) ∨
      (r.thread = t ∧ ∃ warn saved, a' = some (.stop warn .changing saved)) := by
  cases h with
  | edge he => exact .inl ⟨hr, fun _ _ _ => by cases he <;> nofun⟩
  | stopWaits warn saved =>
    by_cases ht : r.thread = t
    · exact .inr ⟨ht, warn, saved, rfl⟩
    · rcases List.mem_append.mp hr with hold | hnew
      · exact .inl ⟨hold, fun heq => absurd heq ht⟩
      · rw [List.mem_singleton.mp hnew] at ht
        exact absurd rfl ht
  | startChange | stopChange | stopIdle =>
    obtain ⟨hold, hne⟩ := List.mem_filter.mp hr
    exact .inl ⟨hold, fun heq => absurd heq (by simpa using hne)⟩
  | count | uncount =>
    simp only [SharedSession.gate_onGate, Gate.waiting_count, Gate.waiting_uncount] at hr
    exact .inl ⟨hr, nofun⟩
  | operationBack _ _ _ back | startBack _ _ back | stopBack _ _ _ back =>
    rw [(SharedSession.eq_of_stepBack? back).1] at hr
    exact .inl ⟨hr, nofun⟩
  | _ => exact .inl ⟨hr, nofun⟩

private theorem starts_waiting (h : a.Next s t s' a') {u : ThreadId} (hu : u ∈ s'.waitingStarts) :
    (u ∈ s.waitingStarts ∧ (u = t → ∀ saved, a ≠ .start .changing saved)) ∨
      (u = t ∧ ∃ saved, a' = some (.start .changing saved)) := by
  cases h with
  | edge he => exact .inl ⟨hu, fun _ _ => by cases he <;> nofun⟩
  | startWaits saved =>
    by_cases ht : u = t
    · exact .inr ⟨ht, saved, rfl⟩
    · rcases List.mem_append.mp hu with hold | hnew
      · exact .inl ⟨hold, fun heq => absurd heq ht⟩
      · exact absurd (List.mem_singleton.mp hnew) ht
  | startChange | stopChange | stopIdle =>
    obtain ⟨hold, hne⟩ := List.mem_filter.mp hu
    exact .inl ⟨hold, fun heq => absurd heq (by simpa using hne)⟩
  | operationBack _ _ _ back | startBack _ _ back | stopBack _ _ _ back =>
    obtain ⟨host, _, rfl⟩ := Option.map_eq_some_iff.mp back
    exact .inl ⟨hu, nofun⟩
  | _ => exact .inl ⟨hu, nofun⟩

end Next

end Activity

private theorem notes_of_sessionProgram {s s' : SharedSession} {t : ThreadId} {a : Activity}
    {rest stack' : List Activity} {m : SessionMove} (hm : ∀ e, m ≠ .begin e)
    (h : sessionProgram s t (a :: rest) m = some (s', stack')) :
    ∃ a', stack' = a'.toList ++ rest ∧ a.Next s t s' a' ∧
      a.Notes s t (rest.any Activity.delivers) a' := by
  cases m with
  | begin e => exact absurd rfl (hm e)
  | proceed =>
    obtain ⟨⟨s₁, a'⟩, ha, heq⟩ := Option.map_eq_some_iff.mp h
    cases heq
    exact ⟨a', rfl, Activity.next_of_proceed? ha, Activity.notes_of_proceed? ha⟩
  | takeEffect =>
    obtain ⟨⟨s₁, a'⟩, ha, heq⟩ := Option.map_eq_some_iff.mp h
    cases heq
    have hn := Activity.next_of_takeEffect? ha
    unfold Activity.takeEffect? at ha
    split at ha
    · exact ⟨_, rfl, hn, Activity.notes_of_saved? rfl hn nofun⟩
    · exact ⟨_, rfl, hn, Activity.notes_of_saved? rfl hn nofun⟩
    · cases ha
  | finish code =>
    obtain ⟨⟨s₁, a'⟩, ha, heq⟩ := Option.map_eq_some_iff.mp h
    cases heq
    have hn := Activity.next_of_finish? ha
    unfold Activity.finish? at ha
    split at ha
    · exact ⟨_, rfl, hn, Activity.notes_of_saved? rfl hn nofun⟩
    · exact ⟨_, rfl, hn, Activity.notes_of_saved? rfl hn nofun⟩
    · exact ⟨_, rfl, hn, Activity.notes_of_saved? rfl hn nofun⟩
    · exact ⟨_, rfl, hn, Activity.notes_of_saved? rfl hn nofun⟩
    · cases ha
  | giveUp =>
    obtain ⟨a', ha, heq⟩ := Option.map_eq_some_iff.mp h
    cases heq
    have hn := Activity.next_of_giveUp? (s := s) (t := t) ha
    unfold Activity.giveUp? at ha
    split at ha
    · exact ⟨_, rfl, hn, Activity.notes_of_saved? rfl hn nofun⟩
    · cases ha
  | wait =>
    obtain ⟨s₁, ha, heq⟩ := Option.map_eq_some_iff.mp h
    cases heq
    have hn := Activity.next_of_wait? ha
    unfold Activity.wait? at ha
    split at ha
    · exact ⟨_, rfl, hn, Activity.notes_of_saved? rfl hn nofun⟩
    · exact ⟨_, rfl, hn, Activity.notes_of_saved? rfl hn nofun⟩
    · cases ha

/-- An operation at the gate is nested exactly where its thread is inside another or delivers. -/
def Activity.AsksRightly : List Activity → Prop
  | operation (.entering nested) _ _ :: rest =>
      nested = (rest.any Activity.delivers || rest.any Activity.isCounted)
  | _ => True

private theorem Activity.asksRightly_of_ne {a : Activity}
    (ha : ∀ nested saved calls, a ≠ .operation (.entering nested) saved calls)
    (rest : List Activity) : AsksRightly (a :: rest) := by
  unfold AsksRightly
  split
  · next heq =>
    cases heq
    exact (ha _ _ _ rfl).elim
  · trivial

private theorem Activity.asksRightly_of_open {stack : List Activity}
    (h : ∀ a ∈ stack, a.isOpen = true) : AsksRightly stack := by
  cases stack with
  | nil => trivial
  | cons a rest =>
    refine asksRightly_of_ne ?_ rest
    rintro nested saved calls rfl
    cases h _ (List.mem_cons_self ..)

namespace SessionThreads

variable {n : Nat} {s s' : SessionThreads n} {t : Fin n} {m : SessionMove}

/-- What a move makes of the shared state and of the stack of its thread. -/
theorem turn_of_step? (h : s.step? sessionProgram t m = some s') :
    (∃ e, m = .begin e ∧ (s.stackOf t).head?.all Activity.isOpen = true ∧
      s' = s.set t s.shared (e.activity :: s.stackOf t)) ∨
    ∃ a rest a' shared, s.stackOf t = a :: rest ∧ a.Next s.shared t shared a' ∧
      a.Notes s.shared t (rest.any Activity.delivers) a' ∧
      s' = s.set t shared (a'.toList ++ rest) := by
  obtain ⟨shared, stack, hp, rfl⟩ := Threads.exists_of_step? h
  by_cases hm : ∃ e, m = .begin e
  · obtain ⟨e, rfl⟩ := hm
    unfold sessionProgram at hp
    simp only at hp
    split at hp
    · next hopen =>
      cases hp
      exact .inl ⟨e, rfl, hopen, rfl⟩
    · cases hp
  · cases hstack : s.stackOf t with
    | nil =>
      rw [hstack] at hp
      cases m with
      | begin e => exact absurd ⟨e, rfl⟩ hm
      | _ => cases hp
    | cons a rest =>
      rw [hstack] at hp
      obtain ⟨a', rfl, hn, hnotes⟩ := notes_of_sessionProgram (fun e he => hm ⟨e, he⟩) hp
      exact .inr ⟨a, rest, a', shared, rfl, hn, hnotes, rfl⟩

/-- Who holds what: host execution, the gate and the places in front of it. -/
structure Holding (s : SessionThreads n) : Prop where
  wellFormed : s.shared.host.WellFormed
  depth : ∀ u, s.shared.host.depthOf u ≠ 0 → ∃ t : Fin n, u = t
  levels : ∀ t : Fin n, s.shared.host.depthOf t = Activity.levels (s.stackOf t)
  restores : ∀ t, Activity.Restores (s.stackOf t)
  readers : ∀ t : Fin n,
    s.shared.gate.readers.lookup (t : ThreadId) = Activity.readerEntry (s.stackOf t)
  asks : ∀ t, Activity.AsksRightly (s.stackOf t)
  opened : ∀ t, ∀ a ∈ (s.stackOf t).tail, a.isOpen = true
  stops : ∀ r ∈ s.shared.gate.waiting, ∃ t : Fin n, r.thread = t ∧
    ∃ warn saved rest, s.stackOf t = .stop warn .changing saved :: rest
  starts : ∀ u ∈ s.shared.waitingStarts, ∃ t : Fin n, u = t ∧
    ∃ saved rest, s.stackOf t = .start .changing saved :: rest

theorem holding_idle (started : Bool) : (idle n started).Holding where
  wellFormed := HostLock.wellFormed_free
  depth _ hu := absurd rfl hu
  levels _ := rfl
  restores _ := trivial
  readers _ := rfl
  asks _ := trivial
  opened _ := nofun
  stops := nofun
  starts := nofun

theorem Holding.isReader (hs : s.Holding) (t : Fin n) :
    s.shared.gate.isReader t = (s.stackOf t).any Activity.isCounted := by
  rw [Gate.isReader, hs.readers, Activity.readerEntry]
  split
  · next h => simp [h]
  · next h => simpa using h

private theorem stackOf_set_kept {u : Fin n} {shared : SharedSession} {a : Activity}
    {stack below : List Activity} (hu : s.stackOf u = a :: below)
    (ht : u = t → (s.stackOf t).head? ≠ some a) :
    (s.set t shared stack).stackOf u = a :: below := by
  have hne : u ≠ t := by
    rintro rfl
    exact ht rfl (by rw [hu]; rfl)
  rw [Threads.stackOf_set_of_ne s hne, hu]

private theorem holding_begin (hs : s.Holding) {e : Errand}
    (hopen : (s.stackOf t).head?.all Activity.isOpen = true) :
    Holding (s.set t s.shared (e.activity :: s.stackOf t)) where
  wellFormed := hs.wellFormed
  depth := hs.depth
  levels := by
    refine Threads.forall_set s (fun u stack => s.shared.host.depthOf u = Activity.levels stack)
      (fun u _ => hs.levels u) ?_
    rw [hs.levels]
    cases e <;> rfl
  restores := by
    refine Threads.forall_set s (fun _ => Activity.Restores) (fun u _ => hs.restores u)
      ⟨?_, hs.restores t⟩
    cases e <;> exact nofun
  readers := by
    refine Threads.forall_set s
      (fun u stack => s.shared.gate.readers.lookup (u : ThreadId) = Activity.readerEntry stack)
      (fun u _ => hs.readers u) ?_
    rw [hs.readers, Activity.readerEntry_cons]
    cases e <;> rfl
  asks := by
    refine Threads.forall_set s (fun _ => Activity.AsksRightly) (fun u _ => hs.asks u)
      (Activity.asksRightly_of_ne ?_ _)
    cases e <;> exact nofun
  opened := by
    refine Threads.forall_set s (fun _ stack => ∀ a ∈ stack.tail, a.isOpen = true)
      (fun u _ => hs.opened u)
      fun a ha => ?_
    have hrest := hs.opened t
    rw [List.tail_cons] at ha
    cases hstack : s.stackOf t with
    | nil =>
      rw [hstack] at ha
      cases ha
    | cons b rest =>
      rw [hstack] at ha hopen hrest
      rcases List.mem_cons.mp ha with rfl | hmem
      · simpa using hopen
      · exact hrest a hmem
  stops := by
    intro r hr
    obtain ⟨u, hu, warn, saved, rest, hstack⟩ := hs.stops r hr
    refine ⟨u, hu, warn, saved, rest, stackOf_set_kept hstack fun _ hhead => ?_⟩
    rw [hhead] at hopen
    cases hopen
  starts := by
    intro v hv
    obtain ⟨u, hu, saved, rest, hstack⟩ := hs.starts v hv
    refine ⟨u, hu, saved, rest, stackOf_set_kept hstack fun _ hhead => ?_⟩
    rw [hhead] at hopen
    cases hopen

private theorem holding_turn (hs : s.Holding) {a : Activity} {rest : List Activity}
    {a' : Option Activity} {shared : SharedSession} (hstack : s.stackOf t = a :: rest)
    (hn : a.Next s.shared t shared a')
    (hnotes : a.Notes s.shared t (rest.any Activity.delivers) a') :
    Holding (s.set t shared (a'.toList ++ rest)) := by
  have hlevels := hs.levels t
  have hrestores := hs.restores t
  have hreaders := hs.readers t
  have hopened := hs.opened t
  have hask := hs.isReader t
  rw [hstack] at hlevels hrestores hreaders hopened hask
  have hhost := hn.hostTurn hnotes
  have hdepth := hhost.depthOf hlevels hrestores
  have hentry := hn.readerTurn.lookup hreaders
  refine ⟨hhost.wellFormed hs.wellFormed, ?_, ?_, ?_, ?_, ?_, ?_, ?_, ?_⟩
  · intro u hu
    by_cases hut : u = t
    · exact ⟨t, hut⟩
    · rw [Threads.shared_set, hdepth, if_neg hut] at hu
      exact hs.depth u hu
  · refine Threads.forall_set s (fun u stack => shared.host.depthOf u = Activity.levels stack)
      (fun u hu => ?_) ?_
    · rw [hdepth, if_neg (Fin.val_ne_of_ne hu)]
      exact hs.levels u
    · rw [hdepth, if_pos rfl]
  · exact Threads.forall_set s (fun _ => Activity.Restores) (fun u _ => hs.restores u)
      (hhost.restores hlevels hrestores)
  · refine Threads.forall_set s
      (fun u stack => shared.gate.readers.lookup (u : ThreadId) = Activity.readerEntry stack)
      (fun u hu => ?_) ?_
    · rw [hentry, if_neg (Fin.val_ne_of_ne hu)]
      exact hs.readers u
    · rw [hentry, if_pos rfl]
  · refine Threads.forall_set s (fun _ => Activity.AsksRightly) (fun u _ => hs.asks u) ?_
    cases a' with
    | none => exact Activity.asksRightly_of_open hopened
    | some a' =>
      by_cases hask' : ∃ nested saved calls, a' = .operation (.entering nested) saved calls
      · obtain ⟨nested, saved, calls, rfl⟩ := hask'
        have ha : a.isCounted = false := by
          cases hn with
          | ask => rfl
          | edge he => cases he
        show nested = (rest.any Activity.delivers || rest.any Activity.isCounted)
        rw [hnotes.nested nested saved calls rfl, hask, List.any_cons, ha, Bool.false_or]
      · exact Activity.asksRightly_of_ne (fun _ _ _ heq => hask' ⟨_, _, _, heq⟩) rest
  · refine Threads.forall_set s (fun _ stack => ∀ a ∈ stack.tail, a.isOpen = true)
      (fun u _ => hs.opened u)
      fun b hb => ?_
    refine hopened b ?_
    cases a' with
    | none => exact List.mem_of_mem_tail hb
    | some a' => exact hb
  · intro r hr
    rcases hn.stops hr with ⟨hold, hnot⟩ | ⟨hthread, warn, saved, rfl⟩
    · obtain ⟨u, hu, warn, saved, below, hu'⟩ := hs.stops r hold
      refine ⟨u, hu, warn, saved, below, stackOf_set_kept hu' fun hut hhead => ?_⟩
      rw [hstack] at hhead
      subst hut
      exact hnot hu _ _ (Option.some.inj hhead)
    · exact ⟨t, hthread, warn, saved, rest, Threads.stackOf_set_self ..⟩
  · intro v hv
    rcases hn.starts_waiting hv with ⟨hold, hnot⟩ | ⟨hthread, saved, rfl⟩
    · obtain ⟨u, hu, saved, below, hu'⟩ := hs.starts v hold
      refine ⟨u, hu, saved, below, stackOf_set_kept hu' fun hut hhead => ?_⟩
      rw [hstack] at hhead
      subst hut
      exact hnot hu _ (Option.some.inj hhead)
    · exact ⟨t, hthread, saved, rest, Threads.stackOf_set_self ..⟩

theorem holding_step (hs : s.Holding) (h : s.step? sessionProgram t m = some s') :
    s'.Holding := by
  rcases turn_of_step? h with ⟨e, _, hopen, rfl⟩ | ⟨a, rest, a', shared, hstack, hn, hnotes, rfl⟩
  · exact holding_begin hs hopen
  · exact holding_turn hs hstack hn hnotes

end SessionThreads

end BrokerBridge
