import BrokerBridge.Proofs.Concurrency.Holding

/-!
# The entries of the gate's readers

An operation takes hold of the gate before it counts itself in and counts itself out before it lets
go. In every interleaving the gate has one entry for each thread that is inside of operations, and
the entry says of how many; the entries fall short of the holds by the operations that have taken
hold and are not counted.
-/

namespace BrokerBridge

namespace Gate

variable {g : Gate} {t : ThreadId}

def keys (g : Gate) : List ThreadId := g.readers.map Prod.fst

def total (g : Gate) : Nat := (g.readers.map Prod.snd).sum

theorem lookup_eq_none_iff {l : List (ThreadId × Nat)} :
    l.lookup t = none ↔ t ∉ l.map Prod.fst := by
  induction l with
  | nil => simp
  | cons e rest ih =>
    obtain ⟨u, k⟩ := e
    rw [List.lookup_cons, List.map_cons, List.mem_cons, not_or]
    by_cases hu : t = u
    · simp [hu]
    · have hb : (t == u) = false := beq_eq_false_iff_ne.mpr hu
      rw [hb, ih]
      exact (and_iff_right hu).symm

private theorem keys_replace (l : List (ThreadId × Nat)) (k : Nat) :
    (l.map fun e => if e.1 = t then (t, k) else e).map Prod.fst = l.map Prod.fst := by
  rw [List.map_map]
  apply List.map_congr_left
  intro e _
  by_cases he : e.1 = t <;> simp [he]

private theorem others_replace (l : List (ThreadId × Nat)) (k : Nat) :
    (l.map fun e => if e.1 = t then (t, k) else e).filter (·.1 != t) = l.filter (·.1 != t) := by
  induction l with
  | nil => rfl
  | cons e rest ih => by_cases he : e.1 = t <;> simp [he, ih]

private theorem nodup_keys_count (h : g.keys.Nodup) (t : ThreadId) : (g.count t).keys.Nodup := by
  unfold count
  split
  · rw [keys, keys_replace]
    exact h
  · next hnone =>
    have hnew : t ∉ g.keys := lookup_eq_none_iff.mp hnone
    simp only [keys, List.map_append, List.map_cons, List.map_nil]
    refine List.nodup_append.mpr ⟨h, List.nodup_singleton t, fun u hu v hv huv => hnew ?_⟩
    rw [← List.mem_singleton.mp hv, ← huv]
    exact hu

private theorem nodup_keys_uncount (h : g.keys.Nodup) (t : ThreadId) :
    (g.uncount t).keys.Nodup := by
  unfold uncount
  split
  · split
    · exact h.sublist (List.filter_sublist.map _)
    · rw [keys, keys_replace]
      exact h
  · exact h

private theorem others_count (g : Gate) (t : ThreadId) :
    (g.count t).readers.filter (·.1 != t) = g.readers.filter (·.1 != t) := by
  unfold count
  split
  · exact others_replace g.readers _
  · simp

private theorem others_uncount (g : Gate) (t : ThreadId) :
    (g.uncount t).readers.filter (·.1 != t) = g.readers.filter (·.1 != t) := by
  unfold uncount
  split
  · split
    · simp
    · exact others_replace g.readers _
  · rfl

/-- A thread has at most one entry, and the others have the rest of the total. -/
theorem total_eq (h : g.keys.Nodup) (t : ThreadId) :
    g.total = g.depthOf t + ((g.readers.filter (·.1 != t)).map Prod.snd).sum := by
  obtain ⟨started, readers, holds, waiting⟩ := g
  simp only [keys, total, depthOf] at h ⊢
  induction readers with
  | nil => rfl
  | cons e rest ih =>
    obtain ⟨hnew, hrest⟩ := List.nodup_cons.mp h
    obtain ⟨u, k⟩ := e
    by_cases hu : u = t
    · subst hu
      have hothers : rest.filter (·.1 != u) = rest := by
        apply List.filter_eq_self.mpr
        intro e he
        have hne : e.1 ≠ u := fun heq => hnew (List.mem_map.mpr ⟨e, he, heq⟩)
        simpa using hne
      simp [hothers]
    · have hb : (t == u) = false := beq_eq_false_iff_ne.mpr (Ne.symm hu)
      have hsum := ih hrest
      simp only [List.map_cons, List.sum_cons, List.lookup_cons, hb, List.filter_cons, bne_iff_ne,
        ne_eq, hu, not_false_eq_true, if_true] at hsum ⊢
      omega

private theorem total_count (h : g.keys.Nodup) (t : ThreadId) :
    (g.count t).total = g.total + 1 := by
  rw [total_eq (nodup_keys_count h t) t, total_eq h t, others_count, depthOf_count, if_pos rfl]
  omega

private theorem total_uncount (h : g.keys.Nodup) (hinside : 0 < g.depthOf t) :
    (g.uncount t).total + 1 = g.total := by
  rw [total_eq (nodup_keys_uncount h t) t, total_eq h t, others_uncount, depthOf_uncount,
    if_pos rfl]
  omega

theorem mem_keys_iff {u : ThreadId} : u ∈ g.keys ↔ (g.readers.lookup u).isSome = true := by
  rw [Option.isSome_iff_ne_none, ne_eq, lookup_eq_none_iff, not_not]
  rfl

end Gate

namespace Activity

/-- Holds the gate without being counted: on the way in before it counts itself, or on the way out
after. -/
def isBetween : Activity → Bool
  | operation .checking _ _ | operation .counting _ _ | operation .releasing _ _ => true
  | _ => false

def counts (a : Activity) : Nat := a.isCounted.toNat

def betweens (a : Activity) : Nat := a.isBetween.toNat

private theorem holds_eq (a : Activity) : a.holds = a.counts + a.betweens := by
  cases a with
  | operation stage _ _ => cases stage <;> rfl
  | _ => rfl

private theorem readerEntry_of_isCounted {a : Activity} (h : a.isCounted = true)
    (rest : List Activity) :
    ∃ k, readerEntry (a :: rest) = some (k + 1) := by
  rw [readerEntry_cons, if_pos h]
  exact ⟨_, rfl⟩

/-- What a move makes of the entries, where its thread has the entry that it should. -/
theorem ReaderTurn.entries {g g' : Gate} {t : ThreadId} {a : Activity} {a' : Option Activity}
    {rest : List Activity} (h : ReaderTurn g t a g' a') (hkeys : g.keys.Nodup)
    (hentry : g.readers.lookup t = readerEntry (a :: rest)) :
    g'.keys.Nodup ∧ g'.total + a.counts = g.total + a'.elim 0 counts := by
  cases h with
  | @stay g' a' readers same =>
    refine ⟨by rw [Gate.keys, readers]; exact hkeys, ?_⟩
    rw [Gate.total, readers]
    cases a' with
    | none => simpa [counts, Gate.total] using same.symm
    | some a' =>
      have hsame : a'.isCounted = a.isCounted := same
      simp [counts, Gate.total, hsame]
  | count before after =>
    refine ⟨Gate.nodup_keys_count hkeys t, ?_⟩
    simp [counts, before, after, Gate.total_count hkeys]
  | uncount before after =>
    obtain ⟨k, hk⟩ := readerEntry_of_isCounted before rest
    have hinside : 0 < g.depthOf t := by
      rw [Gate.depthOf, hentry, hk]
      exact Nat.succ_pos k
    refine ⟨Gate.nodup_keys_uncount hkeys t, ?_⟩
    simp [counts, before, after, Gate.total_uncount hkeys hinside]

end Activity

namespace SessionThreads

variable {n : Nat} {s s' : SessionThreads n} {t : Fin n} {m : SessionMove}

def guards (s : SessionThreads n) (t : Fin n) : Nat := (s.stackOf t).countP Activity.isCounted

/-- No operation holds the gate without being counted. -/
def Settled (s : SessionThreads n) : Prop := ∀ t, ∀ a ∈ s.stackOf t, a.isBetween = false

instance (s : SessionThreads n) : Decidable s.Settled :=
  inferInstanceAs (Decidable (∀ _, _))

private theorem weight_counts (s : SessionThreads n) :
    s.weight Activity.counts = ∑ t, s.guards t := by
  apply Finset.sum_congr rfl
  intro t _
  rw [guards]
  induction s.stackOf t with
  | nil => rfl
  | cons a rest ih => cases ha : a.isCounted <;> simp [Activity.counts, ha, ih, Nat.add_comm]

private theorem weight_holds (s : SessionThreads n) :
    s.weight Activity.holds = s.weight Activity.counts + s.weight Activity.betweens := by
  unfold Threads.weight
  rw [← Finset.sum_add_distrib]
  apply Finset.sum_congr rfl
  intro t _
  induction s.stackOf t with
  | nil => rfl
  | cons a rest ih =>
    simp only [List.map_cons, List.sum_cons, Activity.holds_eq] at ih ⊢
    omega

private theorem Settled.weight_betweens (h : s.Settled) : s.weight Activity.betweens = 0 := by
  rw [Threads.weight_eq_zero_iff]
  intro t a ha
  simp [Activity.betweens, h t a ha]

/-- The entries belong to different threads and add up to the operations that are counted. -/
structure Listed (s : SessionThreads n) : Prop where
  keys : s.shared.gate.keys.Nodup
  threads : ∀ u ∈ s.shared.gate.keys, ∃ t : Fin n, u = t
  total : s.shared.gate.total = s.weight Activity.counts

private theorem listed_idle (started : Bool) : (idle n started).Listed where
  keys := List.nodup_nil
  threads := nofun
  total := (weight_idle ..).symm

private theorem listed_turn (hs : s.Listed) (hheld : s.Holding) {a : Activity}
    {rest : List Activity}
    {a' : Option Activity} {shared : SharedSession} (hstack : s.stackOf t = a :: rest)
    (hn : a.Next s.shared t shared a') : Listed (s.set t shared (a'.toList ++ rest)) := by
  have hentry := hheld.readers t
  rw [hstack] at hentry
  obtain ⟨hkeys, htotal⟩ := hn.readerTurn.entries hs.keys hentry
  refine ⟨hkeys, ?_, ?_⟩
  · intro u hu
    by_cases hut : u = t
    · exact ⟨t, hut⟩
    · rw [Threads.shared_set, Gate.mem_keys_iff, hn.readerTurn.lookup hentry, if_neg hut,
        ← Gate.mem_keys_iff] at hu
      exact hs.threads u hu
  · have hweight := Threads.weight_replace Activity.counts hstack shared a'
    have hbefore := hs.total
    rw [Threads.shared_set]
    omega

private theorem listed_step (hs : s.Listed) (hheld : s.Holding)
    (h : s.step? sessionProgram t m = some s') : s'.Listed := by
  rcases turn_of_step? h with ⟨e, _, _, rfl⟩ | ⟨a, rest, a', shared, hstack, hn, _, rfl⟩
  · have hweight := s.weight_push Activity.counts t s.shared e.activity
    have hnone : e.activity.counts = 0 := by cases e <;> rfl
    rw [hnone, Nat.add_zero, ← hs.total] at hweight
    exact ⟨hs.keys, hs.threads, hweight.symm⟩
  · exact listed_turn hs hheld hstack hn

private theorem listed_of_play? {started : Bool} {moves : List (Fin n × SessionMove)}
    (h : (idle n started).play? sessionProgram moves = some s) :
    s.Listed ∧ s.Holding ∧ s.Accounted := by
  refine Threads.play?_induction (P := fun s => Listed s ∧ Holding s ∧ Accounted s)
    (fun s t m s' _ ⟨hlisted, hheld, haccounted⟩ hstep => ?_)
    ⟨listed_idle started, holding_idle started, accounted_idle started⟩ h
  exact ⟨listed_step hlisted hheld hstep, holding_step hheld hstep,
    accounted_step haccounted hstep⟩

/-! ## What the readers say -/

private theorem Holding.lookup_eq (hs : s.Holding) (t : Fin n) :
    s.shared.gate.readers.lookup (t : ThreadId) =
      if s.guards t = 0 then none else some (s.guards t) := by
  have hany : (s.stackOf t).any Activity.isCounted = true ↔ s.guards t ≠ 0 := by
    rw [guards, ← Nat.pos_iff_ne_zero, List.countP_pos_iff, List.any_eq_true]
  rw [hs.readers, Activity.readerEntry]
  by_cases hzero : s.guards t = 0
  · rw [if_neg (fun h => hany.mp h hzero), if_pos hzero]
  · rw [if_pos (hany.mpr hzero), if_neg hzero]
    rfl

/-- Whatever threads have done, each has one entry that says how many operations it is inside of,
where it is inside of any, and nobody else has one; who counts itself out has one that says so.
Where nobody is between taking hold or letting go and being counted, the entries add up to the
holds. -/
theorem readers_count_guards {started : Bool} {moves : List (Fin n × SessionMove)}
    (h : (idle n started).play? sessionProgram moves = some s) :
    s.shared.gate.keys.Nodup ∧
    (∀ t : Fin n, s.shared.gate.readers.lookup (t : ThreadId) =
      if s.guards t = 0 then none else some (s.guards t)) ∧
    (∀ u, (s.shared.gate.readers.lookup u).isSome = true → ∃ t : Fin n, u = t) ∧
    (∀ (t : Fin n) saved calls rest, s.stackOf t = .operation .leaving saved calls :: rest →
      ∃ k, s.shared.gate.readers.lookup (t : ThreadId) = some (k + 1)) ∧
    s.shared.gate.total = ∑ t, s.guards t ∧
    (s.Settled → s.shared.gate.total = s.shared.gate.holds) := by
  obtain ⟨hlisted, hheld, haccounted⟩ := listed_of_play? h
  refine ⟨hlisted.keys, hheld.lookup_eq, fun u hu => ?_, fun t saved calls rest hstack => ?_,
    ?_, fun hsettled => ?_⟩
  · exact hlisted.threads u (Gate.mem_keys_iff.mpr hu)
  · rw [hheld.readers, hstack]
    exact Activity.readerEntry_of_isCounted rfl rest
  · rw [hlisted.total, weight_counts]
  · rw [hlisted.total, haccounted.holds, weight_holds, hsettled.weight_betweens, Nat.add_zero]

/-- A thread opens a queue, and the host code that is called then opens another. A second thread,
that was turned away before, gives an operation up. -/
def openWithinOpen (t u : Fin 2) : List (Fin 2 × SessionMove) :=
  (u, .begin (.operation .post)) :: proceeds u 6 ++
    (t, .begin .start) :: proceeds t 2 ++ (t, .takeEffect) :: (t, .finish 0) :: proceeds t 2 ++
    (t, .begin (.operation .openQueue)) :: proceeds t 6 ++
    (t, .begin (.host true)) :: proceeds t 1 ++
    (t, .begin (.operation .openQueue)) :: proceeds t 5 ++
    (u, .begin (.operation .configureQueue)) :: proceeds u 5 ++ [(u, .giveUp)]

theorem readers_count_guards_nested : ∃ s : SessionThreads 2,
    (idle 2 false).play? sessionProgram (openWithinOpen 0 1) = some s ∧ s.Settled ∧
    s.shared.gate.readers = [(0, 2), (1, 1)] ∧ s.shared.gate.holds = 3 ∧
    s.guards 0 = 2 ∧ s.guards 1 = 1 ∧
    (∃ k, s.shared.gate.readers.lookup 1 = some (k + 1)) ∧
    s.shared.gate.total = s.shared.gate.holds := by
  have hrun : (((idle 2 false).play? sessionProgram (openWithinOpen 0 1)).map
      fun s : SessionThreads 2 => decide (Settled s ∧
        s.shared.gate.readers = [(0, 2), (1, 1)] ∧ s.shared.gate.holds = 3 ∧
        guards s 0 = 2 ∧ guards s 1 = 1 ∧
        s.stackOf 1 = [.operation .leaving 0 [.findQueue, .configureQueue]])) = some true := by
    decide +kernel
  obtain ⟨s, hplay, hrun⟩ := Option.map_eq_some_iff.mp hrun
  obtain ⟨hsettled, hreaders, hholds, hzero, hone, hstack⟩ := of_decide_eq_true hrun
  obtain ⟨_, _, _, hleaving, _, htotal⟩ := readers_count_guards hplay
  exact ⟨s, hplay, hsettled, hreaders, hholds, hzero, hone, hleaving 1 _ _ _ hstack,
    htotal hsettled⟩

end SessionThreads

end BrokerBridge
