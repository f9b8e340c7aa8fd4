import BrokerBridge.Proofs.Concurrency.CallOrder
import Mathlib.Data.List.Permutation

/-!
# Calls that are undone

A call that is decided against puts back what it found. Its changes can be seen until then, and no
lock is held. Where no other call looks at its queue or changes it in the meantime, the calls that
were accepted, one after another, open and configure the queues that are open in the end. Where one
does, an accepted call may be lost.
-/

namespace BrokerBridge

namespace QueueActivity

/-- The address whose queue the call is to put back, and what it will put there. -/
def held? : QueueActivity → Option (String × Option QueueOptions)
  | call _ e _ (.entering before _) | call _ e _ (.deciding before _) =>
      if e.isUndone then some (e.deed.uri, before) else none
  | call _ e _ (.undoing before _) => some (e.deed.uri, before)
  | _ => none

/-- The address whose queue the call has looked at to put it back, or is to put back. -/
def exposed? : QueueActivity → Option String
  | call _ e _ (.changing before) => if e.isUndone && before.isSome then some e.deed.uri else none
  | a => a.held?.map Prod.fst

/-- The address whose queue the next section looks at, to put it back, or changes for the first
time. -/
def touches? (l : Ledger) : QueueActivity → Option String
  | call _ e _ .looking => if e.isUndone && (e.deed.found l).isSome then some e.deed.uri else none
  | call _ e _ (.changing _) =>
      if e.deed.isClose = false ∧ e.deed.Applies l then some e.deed.uri else none
  | call _ e _ .closing => if e.deed.Applies l then some e.deed.uri else none
  | _ => none

def Backed (l : Ledger) : QueueActivity → Prop
  | call _ e _ (.changing before) => e.isUndone = true → e.deed.Remembers before l
  | call _ e _ (.entering before _) | call _ e _ (.deciding before _) =>
      e.isUndone = true → e.deed.CanUndo before l
  | call _ e _ (.undoing before _) => e.deed.CanUndo before l
  | _ => True

/-! ## Weights -/

def exposes (uri : String) (a : QueueActivity) : Nat := (a.exposed? == some uri).toNat

def holds (uri : String) (before : Option QueueOptions) (a : QueueActivity) : Nat :=
  (a.held? == some (uri, before)).toNat

private theorem exposed?_of_held? {a : QueueActivity} {uri : String} {before : Option QueueOptions}
    (h : a.held? = some (uri, before)) : a.exposed? = some uri := by
  unfold exposed?
  split
  · cases h
  · rw [h, Option.map_some]

private theorem held?_of_touches? {a : QueueActivity} {l : Ledger} {uri : String}
    (h : a.touches? l = some uri) : a.held? = none := by
  unfold touches? at h
  split at h
  · rfl
  · rfl
  · rfl
  · cases h

theorem exposes_eq_one_iff {a : QueueActivity} {uri : String} :
    a.exposes uri = 1 ↔ a.exposed? = some uri := by
  simp [exposes, Bool.toNat_eq_one]

private theorem exposes_le_one (uri : String) (a : QueueActivity) :
    a.exposes uri ≤ 1 := Bool.toNat_le _

theorem exposes_eq_zero_iff {a : QueueActivity} {uri : String} :
    a.exposes uri = 0 ↔ a.exposed? ≠ some uri := by
  simp [exposes]

private theorem holds_le_exposes (uri : String) (before : Option QueueOptions) (a : QueueActivity) :
    a.holds uri before ≤ a.exposes uri := by
  by_cases h : a.held? = some (uri, before)
  · rw [exposes_eq_one_iff.mpr (exposed?_of_held? h)]
    exact Bool.toNat_le _
  · rw [holds, beq_eq_false_iff_ne.mpr h]
    exact Nat.zero_le _

/-! ## What moves do to the tallies -/

section

variable {a a' : QueueActivity}

private theorem Moves.held? (h : a.Moves a') : a'.held? = a.held? := by
  cases h with
  | sought k e saved before status close | barred k e saved before status refusal close
  | allowed k e saved before status close =>
    simp [QueueActivity.held?, QueueErrand.not_isUndone_of_isClose close]
  | opposed k e saved before status refusal undone => simp [QueueActivity.held?, undone]
  | opened k e saved before status stands | configured k e saved before status stands =>
    simp [QueueActivity.held?, QueueErrand.not_isUndone_of_stands stands]
  | out | observed | unexpected | refused | entered | played | unscripted | interrupted | told
  | missed | left | hostIn => rfl

private theorem Moves.exposes_le (h : a.Moves a') (uri : String) :
    a'.exposes uri ≤ a.exposes uri := by
  have hheld := h.held?
  have hexposed : a'.exposed? = a'.held?.map Prod.fst := by cases h <;> rfl
  by_cases hexposes : a'.exposed? = some uri
  · rw [hexposed, hheld, Option.map_eq_some_iff] at hexposes
    obtain ⟨⟨_, before⟩, hbefore, rfl⟩ := hexposes
    rw [exposes_eq_one_iff.mpr (exposed?_of_held? hbefore)]
    exact exposes_le_one ..
  · rw [exposes_eq_zero_iff.mpr hexposes]
    exact Nat.zero_le _

end

end QueueActivity

namespace QueueRoom

variable (s : QueueRoom) (t : ThreadId) (task : QueueTask)

private theorem backed_start (l : Ledger) : (s.start t task).2.Backed l := by
  cases task <;> exact True.intro

private theorem exposed?_start : (s.start t task).2.exposed? = none := by cases task <;> rfl

end QueueRoom

namespace QueueActivity

open QueueEntry

/-! ## What is to be put back -/

section

variable {a a' : QueueActivity} {l l' : Ledger}

private theorem Backed.sameAt (h : a.Backed l)
    (hsame : ∀ uri, a.exposed? = some uri → l.SameAt uri l') :
    a.Backed l' := by
  cases a with
  | host entered => exact True.intro
  | call k e saved stage =>
    cases stage with
    | changing before =>
      intro hundone
      refine (h hundone).sameAt fun hbefore => hsame _ ?_
      simp [exposed?, hundone, hbefore]
    | entering before status | deciding before status =>
      intro hundone
      refine (h hundone).sameAt (hsame _ ?_)
      simp [exposed?, QueueActivity.held?, hundone]
    | undoing before refusal => exact QueueDeed.CanUndo.sameAt h (hsame _ rfl)
    | arriving | observing | looking | closing | playing status | telling status | leaving answer
    | returning answer => exact True.intro

private theorem Moves.backed (h : a.Moves a') (ha : a.Backed l) : a'.Backed l := by
  cases h with
  | sought k e saved before status close =>
    intro hundone
    rw [QueueErrand.not_isUndone_of_isClose close] at hundone
    cases hundone
  | entered => exact ha
  | opposed k e saved before status refusal undone => exact ha undone
  | out | observed | unexpected | refused | barred | opened | configured | allowed | played
  | unscripted | interrupted | told | missed | left | hostIn => exact True.intro

end

section

variable {s s' : QueueRoom} {a : QueueActivity} {a' : Option QueueActivity}

/-- The queue of one address at most is changed, and that of no address which is not touched or to
be put back. -/
theorem Next.changes (h : a.Next s s' a') (hl : s.ledger.Tidy) (ha : a.Backed s.ledger) :
    s'.ledger.Tidy ∧ ((∀ uri, s.ledger.SameAt uri s'.ledger) ∨
      ∃ uri, s.ledger.ChangesAt uri s'.ledger ∧
        (a.touches? s.ledger = some uri ∨ a.exposed? = some uri)) := by
  cases h with
  | move moves keeps => exact ⟨keeps.tidy hl, .inl keeps.sameAt⟩
  | look k e saved keeps | finish k e saved answer keeps | hostOut keeps =>
    exact ⟨keeps.tidy hl, .inl keeps.sameAt⟩
  | change k e saved before status hopen happlies performs =>
    obtain ⟨htidy, -, hchanges⟩ := QueueDeed.perform_listed hl happlies
    rw [← performs] at htidy hchanges
    exact ⟨htidy, .inr ⟨e.deed.uri, hchanges, .inl (if_pos ⟨hopen, happlies⟩)⟩⟩
  | undo k e saved before refusal undoes =>
    obtain ⟨htidy, -, hchanges⟩ := QueueDeed.undo_listed hl ha
    rw [← undoes] at htidy hchanges
    exact ⟨htidy, .inr ⟨e.deed.uri, hchanges, .inr rfl⟩⟩
  | close k e saved status happlies performs =>
    obtain ⟨htidy, -, hchanges⟩ := QueueDeed.perform_listed hl happlies
    rw [← performs] at htidy hchanges
    exact ⟨htidy, .inr ⟨e.deed.uri, hchanges, .inl (if_pos happlies)⟩⟩

private theorem Next.backed (h : a.Next s s' a') (ha : a.Backed s.ledger) {after : QueueActivity}
    (hafter : a' = some after) : after.Backed s'.ledger := by
  cases h with
  | move moves keeps =>
    cases hafter
    exact (moves.backed ha).sameAt fun uri _ => keeps.sameAt uri
  | look k e saved keeps =>
    cases hafter
    intro hundone
    have hopen := (QueueErrand.isUndone_iff.mp hundone).2
    exact (QueueDeed.remembers_found hopen s.ledger).sameAt fun _ => keeps.sameAt _
  | change k e saved before status hopen happlies performs =>
    cases hafter
    intro hundone
    have hcan := (ha hundone).canUndo happlies
    rwa [← performs] at hcan
  | finish | hostOut => cases hafter
  | undo | close =>
    cases hafter
    exact True.intro

private theorem Next.exposes_le (h : a.Next s s' a') (uri : String) :
    a'.elim 0 (exposes uri) ≤ a.exposes uri ∨ a.touches? s.ledger = some uri := by
  cases h with
  | move moves => exact .inl (moves.exposes_le uri)
  | look k e saved keeps =>
    by_cases hexposed : (call k e saved (.changing (e.deed.found s.ledger))).exposed? = some uri
    · exact .inr hexposed
    · exact .inl ((exposes_eq_zero_iff.mpr hexposed).trans_le (Nat.zero_le _))
  | change k e saved before status hopen happlies =>
    by_cases huri : e.deed.uri = uri
    · exact .inr (huri ▸ if_pos ⟨hopen, happlies⟩)
    · left
      refine (exposes_eq_zero_iff.mpr fun hexposed => huri ?_).trans_le (Nat.zero_le _)
      obtain ⟨⟨_, _⟩, hheld, rfl⟩ := Option.map_eq_some_iff.mp hexposed
      rw [QueueActivity.held?] at hheld
      split at hheld <;> cases hheld
      rfl
  | undo | close | finish | hostOut => exact .inl (Nat.zero_le _)

end

end QueueActivity

/-- Without what is to be put back, the listing is that of the accepted calls, served one after
another. -/
def QueueRoom.Served (l₀ : Ledger) (prov : QueueEntry.Provisional) (s : QueueRoom) : Prop :=
  ∃ m, l₀.serveAll? (s.accepted.filterMap s.deed?) = some m ∧ m.Tidy ∧
    m.entries = QueueEntry.settle prov s.ledger.entries

namespace QueueRoom.Served

open QueueEntry

variable {l₀ : Ledger} {prov : Provisional} {s s' : QueueRoom}

private theorem of_entries (h : s.Served l₀ prov) (hbegun : s'.begun = s.begun)
    (haccepted : s'.accepted = s.accepted) {prov' : Provisional}
    (hentries : settle prov' s'.ledger.entries = settle prov s.ledger.entries) :
    s'.Served l₀ prov' := by
  obtain ⟨m, hserved, htidy, hm⟩ := h
  have hdeed : s'.deed? = s.deed? := by
    funext k
    rw [deed?, hbegun, deed?]
  refine ⟨m, ?_, htidy, hm.trans hentries.symm⟩
  rw [haccepted, hdeed]
  exact hserved

/-- One more call is accepted, on an address where nothing is to be put back. -/
theorem concat (h : s.Served l₀ prov) {k : Nat} {d : QueueDeed} (hd : s.deed? k = some d)
    (happlies : d.Applies s.ledger) (hl : s.ledger.Tidy) (hprov : prov d.uri = none)
    (hbegun : s'.begun = s.begun) (haccepted : s'.accepted = s.accepted ++ [k])
    (hledger : s'.ledger = (d.perform s.ledger).2) : s'.Served l₀ prov := by
  obtain ⟨m, hserved, htidy, hm⟩ := h
  have hdeed : s'.deed? = s.deed? := by
    funext k
    rw [deed?, hbegun, deed?]
  have hfits : d.Fits m.entries := hm ▸ happlies.fits.settle hprov
  obtain ⟨m', hserve, htidy', hm'⟩ := QueueDeed.serve?_of_fits htidy hfits
  refine ⟨m', ?_, htidy', ?_⟩
  · rw [haccepted, hdeed, List.filterMap_append, List.filterMap_cons_some hd]
    exact Ledger.serveAll?_concat hserved hserve
  · rw [hm', hm, ← QueueDeed.settle_list hprov, hledger, (QueueDeed.perform_listed hl happlies).2.1]

end QueueRoom.Served

namespace QueueActivity

open QueueEntry

variable {s s' : QueueRoom} {a : QueueActivity} {a' : Option QueueActivity}

inductive Shifts (prov : Provisional) :
    Option (String × Option QueueOptions) → Option (String × Option QueueOptions) →
      Provisional → Prop
  | none (held) : Shifts prov held held prov
  | hold (uri before) (free : prov uri = .none) :
      Shifts prov .none (some (uri, before)) (Function.update prov uri (some before))
  | release (uri before) :
      Shifts prov (some (uri, before)) .none (Function.update prov uri .none)

private theorem Shifts.covers {prov prov' : Provisional}
    {held held' : Option (String × Option QueueOptions)} (h : Shifts prov held held' prov')
    {uri : String} {before : Option QueueOptions} {w w' : Nat}
    (hw : w' + (held == some (uri, before)).toNat = w + (held' == some (uri, before)).toNat)
    (hown : ∀ x, held = some (uri, x) → w = (held == some (uri, before)).toNat)
    (hcovers : prov uri = some before ↔ w ≠ 0) : prov' uri = some before ↔ w' ≠ 0 := by
  have hother {u : String} {x : Option QueueOptions} (hne : u ≠ uri) :
      (some (u, x) == some (uri, before)) = false := by
    simpa using fun hu => absurd hu hne
  cases h with
  | none held =>
    rw [Nat.add_right_cancel hw]
    exact hcovers
  | hold u x free =>
    by_cases hu : u = uri
    · subst hu
      have hnone : w = 0 := by
        by_contra hsome
        rw [hcovers.mpr hsome] at free
        cases free
      rw [hnone] at hw
      rw [Function.update_self, Option.some_inj]
      by_cases hx : x = before
      · have hone : w' = 1 := by simpa [hx] using hw
        exact iff_of_true hx (hone ▸ Nat.one_ne_zero)
      · have hsame : (some (u, x) == some (u, before)) = false := by simpa using hx
        rw [hsame] at hw
        exact iff_of_false hx (fun h => h hw)
    · rw [hother hu] at hw
      rw [Function.update_of_ne (Ne.symm hu), hcovers, Nat.add_right_cancel hw]
  | release u x =>
    by_cases hu : u = uri
    · subst hu
      have hall := hown x rfl
      have hnone : w' = 0 := by
        rw [← hall] at hw
        exact Nat.add_right_cancel (hw.trans (Nat.add_comm w 0))
      rw [Function.update_self, hnone]
      exact iff_of_false nofun (fun h => h rfl)
    · rw [hother hu] at hw
      rw [Function.update_of_ne (Ne.symm hu), hcovers, Nat.add_right_cancel hw]

private theorem Next.served (h : a.Next s s' a') (hl : s.ledger.Tidy) (ha : a.Backed s.ledger)
    {t : ThreadId} (hregistered : a.Registered s.begun t) {l₀ : Ledger} {prov : Provisional}
    (hserved : s.Served l₀ prov)
    (hfree : ∀ uri, a.touches? s.ledger = some uri → prov uri = none)
    (hheld : ∀ uri before, a.held? = some (uri, before) → prov uri = some before) :
    ∃ prov', s'.Served l₀ prov' ∧ Shifts prov a.held? (a'.bind QueueActivity.held?) prov' := by
  have hkept {s' : QueueRoom} (hbegun : s'.begun = s.begun) (haccepted : s'.accepted = s.accepted)
      (keeps : s.ledger.KeepsQueues s'.ledger) : s'.Served l₀ prov :=
    hserved.of_entries hbegun haccepted (by rw [keeps.entries])
  cases h with
  | @move a a' b moves keeps =>
    refine ⟨prov, hkept rfl rfl keeps, ?_⟩
    rw [Option.bind_some, moves.held?]
    exact .none _
  | look k e saved keeps | finish k e saved answer keeps | hostOut keeps =>
    exact ⟨prov, hkept rfl rfl keeps, .none _⟩
  | change k e saved before status hopen happlies performs =>
    have hprov : prov e.deed.uri = none := hfree _ (if_pos ⟨hopen, happlies⟩)
    cases hstands : e.stands with
    | true =>
      have hd : s.deed? k = some e.deed := Option.map_eq_some_iff.mpr ⟨_, hregistered, rfl⟩
      refine ⟨prov, hserved.concat hd happlies hl hprov rfl (by rw [if_pos rfl]) performs, ?_⟩
      rw [Option.bind_some, QueueActivity.held?, QueueErrand.not_isUndone_of_stands hstands]
      exact .none _
    | false =>
      have hundone := QueueErrand.isUndone_of_not_stands hopen hstands
      have hbefore := (ha hundone).replaces hl happlies
      refine ⟨Function.update prov e.deed.uri (some before), hserved.of_entries ?_ ?_ ?_, ?_⟩
      · rfl
      · rw [if_neg Bool.false_ne_true, List.append_nil]
      · rw [← QueueDeed.settle_provisional hprov hbefore,
          ← (QueueDeed.perform_listed hl happlies).2.1, ← performs]
        rfl
      · rw [Option.bind_some, QueueActivity.held?, if_pos hundone]
        exact .hold _ _ hprov
  | @undo k e saved before refusal b undoes =>
    have hentries : settle (Function.update prov e.deed.uri none) b.native.ledger.entries =
        settle prov s.ledger.entries := by
      rw [← settle_restore (hheld e.deed.uri before rfl), ← (QueueDeed.undo_listed hl ha).2.1,
        ← undoes]
    refine ⟨_, hserved.of_entries ?_ ?_ hentries, .release ..⟩
    · rfl
    · rfl
  | close k e saved status happlies performs =>
    have hd : s.deed? k = some e.deed := Option.map_eq_some_iff.mpr ⟨_, hregistered, rfl⟩
    have hprov : prov e.deed.uri = none := hfree _ (if_pos happlies)
    exact ⟨prov, hserved.concat hd happlies hl hprov rfl rfl performs, .none _⟩

end QueueActivity

namespace QueueThreads

open QueueActivity QueueEntry

variable {n : Nat} {s s' : QueueThreads n} {t : Fin n} {m : QueueMove} {l₀ : Ledger}

/-- No other call has looked at the queue that is touched, to put it back, or is to put it back. -/
def Undisturbed (s : QueueThreads n) (t : Fin n) : QueueMove → Prop
  | .proceed => ∀ a ∈ (s.stackOf t).head?, ∀ uri ∈ a.touches? s.shared.ledger,
      s.weight (exposes uri) ≤ a.exposes uri
  | _ => True

instance (s : QueueThreads n) (t : Fin n) : (m : QueueMove) → Decidable (s.Undisturbed t m)
  | .proceed => inferInstanceAs (Decidable (∀ a ∈ (s.stackOf t).head?,
      ∀ uri ∈ a.touches? s.shared.ledger, s.weight (exposes uri) ≤ a.exposes uri))
  | .begin _ | .amend _ => isTrue True.intro

def Covers (prov : Provisional) (s : QueueThreads n) : Prop :=
  ∀ uri before, prov uri = some before ↔ s.weight (holds uri before) ≠ 0

/-- The innermost of a stack gives way to what becomes of it, and what is to be put back shifts. -/
theorem Covers.shift {prov prov' : Provisional} (hs : Covers prov s) {a : QueueActivity}
    {rest : List QueueActivity} (hstack : s.stackOf t = a :: rest)
    (hclear : ∀ uri, a.exposed? = some uri → s.weight (exposes uri) ≤ a.exposes uri)
    {a' : Option QueueActivity} (hshifts : Shifts prov a.held? (a'.bind QueueActivity.held?) prov')
    (room : QueueRoom) : Covers prov' (s.set t room (a'.toList ++ rest)) := by
  intro uri before
  have hafter : a'.elim 0 (holds uri before) =
      (a'.bind QueueActivity.held? == some (uri, before)).toNat := by cases a' <;> rfl
  have hweight := Threads.weight_replace (holds uri before) hstack room a'
  rw [hafter] at hweight
  refine hshifts.covers hweight (fun x hheld => ?_) (hs uri before)
  exact Threads.weight_eq_of_le hstack (holds_le_exposes uri before)
    (hclear uri (exposed?_of_held? hheld))

/-- Each queue is to be put back by one call at most, which has what it needs to, and without what
is to be put back there is what the accepted calls have left. -/
structure Settled (l₀ : Ledger) (s : QueueThreads n) : Prop where
  tidy : s.shared.ledger.Tidy
  alone : ∀ uri, s.weight (exposes uri) ≤ 1
  backed : ∀ u, ∀ a ∈ s.stackOf u, a.Backed s.shared.ledger
  served : ∃ prov, s.shared.Served l₀ prov ∧ Covers prov s

private theorem settled_idle {b : Bridge Stage} (hb : b.native.ledger.Tidy) :
    Settled b.native.ledger (idle n b) where
  tidy := hb
  alone uri := (Threads.weight_atRest ..).trans_le (Nat.zero_le _)
  backed _ _ ha := nomatch ha
  served := by
    refine ⟨fun _ => none, ⟨b.native.ledger, rfl, hb, (settle_none _).symm⟩, fun uri before => ?_⟩
    have hnone : (idle n b).weight (holds uri before) = 0 := Threads.weight_atRest ..
    simp [hnone]

private theorem Settled.start (hs : s.Settled l₀) (hcounted : s.Counted) (t : Fin n)
    (task : QueueTask) :
    Settled l₀ (s.set t (s.shared.start t task).1 ((s.shared.start t task).2 :: s.stackOf t)) := by
  have hledger : (s.shared.start t task).1.ledger = s.shared.ledger :=
    congrArg (·.native.ledger) (s.shared.bridge_start t task)
  have hexposes (uri : String) : (s.shared.start t task).2.exposes uri = 0 :=
    exposes_eq_zero_iff.mpr (by rw [s.shared.exposed?_start]; nofun)
  refine ⟨?_, fun uri => ?_, ?_, ?_⟩
  · rw [Threads.shared_set, hledger]
    exact hs.tidy
  · rw [Threads.weight_push, hexposes]
    exact hs.alone uri
  · rw [Threads.shared_set, hledger]
    exact Threads.forall_mem_push hs.backed t (s.shared.backed_start t task _) _
  · obtain ⟨prov, ⟨m, hserved, htidy, hm⟩, hcovers⟩ := hs.served
    refine ⟨prov, ⟨m, ?_, htidy, ?_⟩, fun uri before => ?_⟩
    · rw [Threads.shared_set, s.shared.accepted_start, ← hserved]
      refine congrArg _ (List.filterMap_congr fun k hk => ?_)
      exact s.shared.deed?_start t task (hcounted.lt_of_accepted hk)
    · rw [Threads.shared_set, hledger]
      exact hm
    · have hholds := holds_le_exposes uri before (s.shared.start t task).2
      rw [hexposes] at hholds
      rw [Threads.weight_push, Nat.le_zero.mp hholds]
      exact hcovers uri before

private theorem Settled.amend (hs : s.Settled l₀) {b : Bridge Stage}
    (hkeeps : s.shared.ledger.KeepsQueues b.native.ledger) :
    Settled l₀ (⟨{ s.shared with bridge := b }, s.stackOf⟩ : QueueThreads n) where
  tidy := hkeeps.tidy hs.tidy
  alone := hs.alone
  backed u a ha := (hs.backed u a ha).sameAt fun uri _ => hkeeps.sameAt uri
  served := by
    obtain ⟨prov, hserved, hcovers⟩ := hs.served
    have hentries : settle prov b.native.ledger.entries = settle prov s.shared.ledger.entries := by
      rw [hkeeps.entries]
    refine ⟨prov, hserved.of_entries ?_ ?_ hentries, hcovers⟩
    · rfl
    · rfl

section

variable (hs : s.Settled l₀) {a : QueueActivity} {rest : List QueueActivity}
  (hstack : s.stackOf t = a :: rest)

include hs hstack

/-- The address at which a section changes something is one that no other call has exposed. -/
theorem Settled.clear (hm : s.Undisturbed t .proceed) {uri : String}
    (huri : a.touches? s.shared.ledger = some uri ∨ a.exposed? = some uri) :
    s.weight (exposes uri) ≤ a.exposes uri := by
  rcases huri with htouches | hexposed
  · exact hm a (by rw [hstack]; rfl) uri htouches
  · rw [exposes_eq_one_iff.mpr hexposed]
    exact hs.alone uri

variable {room : QueueRoom} {a' : Option QueueActivity} (hnext : a.Next s.shared room a')

include hnext

private theorem Settled.alone_next (hm : s.Undisturbed t .proceed) (uri : String) :
    (s.set t room (a'.toList ++ rest)).weight (exposes uri) ≤ 1 := by
  have hweight := Threads.weight_replace (exposes uri) hstack room a'
  rcases hnext.exposes_le uri with hle | htouches
  · have halone := hs.alone uri
    omega
  · have hown := hs.clear hstack hm (.inl htouches)
    have hone : a'.elim 0 (exposes uri) ≤ 1 := by
      cases a' with
      | none => exact Nat.zero_le _
      | some after => exact exposes_le_one ..
    omega

private theorem Settled.backed_next (hm : s.Undisturbed t .proceed) :
    ∀ u, ∀ f ∈ (s.set t room (a'.toList ++ rest)).stackOf u, f.Backed room.ledger := by
  have hbacked := hs.backed t a (by simp [hstack])
  have hothers : ∀ u, ∀ f ∈ (s.set t room rest).stackOf u, f.Backed room.ledger := by
    have hrest : ∀ u, ∀ f ∈ (s.set t room rest).stackOf u, f.Backed s.shared.ledger :=
      Threads.forall_mem_set hs.backed t (fun f hf => hs.backed t f (by simp [hstack, hf])) room
    intro u f hf
    refine (hrest u f hf).sameAt fun other hother => ?_
    rcases (hnext.changes hs.tidy hbacked).2 with hsame | ⟨uri, hat, htouched⟩
    · exact hsame other
    · have hclear := hs.clear hstack hm htouched
      have hnone := Threads.weight_rest_eq_zero hstack hclear room
      have hf := Threads.weight_eq_zero_iff.mp hnone u f hf
      exact hat.sameAt fun hsame => exposes_eq_zero_iff.mp hf (hsame ▸ hother)
  have hrest : (s.set t room rest).stackOf t = (none : Option QueueActivity).toList ++ rest :=
    Threads.stackOf_set_self ..
  have hall := Threads.forall_mem_exchange hothers hrest
    (fun after hafter => hnext.backed hbacked hafter) room
  rwa [Threads.set_set] at hall

private theorem Settled.served_next (hcounted : s.Counted) (hm : s.Undisturbed t .proceed) :
    ∃ prov, room.Served l₀ prov ∧ Covers prov (s.set t room (a'.toList ++ rest)) := by
  have ha : a ∈ s.stackOf t := by simp [hstack]
  have hclear {uri : String} (huri : a.touches? s.shared.ledger = some uri ∨
      a.exposed? = some uri) : s.weight (exposes uri) ≤ a.exposes uri :=
    hs.clear hstack hm huri
  obtain ⟨prov, hserved, hcovers⟩ := hs.served
  have hfree (uri : String) (htouches : a.touches? s.shared.ledger = some uri) :
      prov uri = none := by
    refine Option.eq_none_iff_forall_ne_some.mpr fun before hbefore => ?_
    refine (hcovers uri before).mp hbefore ?_
    rw [Threads.weight_eq_of_le hstack (holds_le_exposes uri before) (hclear (.inl htouches)),
      holds, held?_of_touches? htouches]
    rfl
  have hheld (uri : String) (before : Option QueueOptions)
      (hheld : a.held? = some (uri, before)) : prov uri = some before := by
    refine (hcovers uri before).mpr (Nat.ne_of_gt ?_)
    refine Nat.lt_of_lt_of_le ?_ (Threads.le_weight (holds uri before) ha)
    rw [holds, hheld, beq_self_eq_true]
    exact Nat.one_pos
  obtain ⟨prov', hserved', hshifts⟩ := hnext.served hs.tidy (hs.backed t a ha)
    (hcounted.registered t a ha) hserved hfree hheld
  exact ⟨prov', hserved', hcovers.shift hstack (fun uri huri => hclear (.inr huri)) hshifts _⟩

end

private theorem Settled.step (hs : s.Settled l₀) (hcounted : s.Counted) (hm : s.Undisturbed t m)
    (h : s.step? queueProgram t m = some s') : s'.Settled l₀ := by
  rcases next_of_step? h with ⟨task, -, rfl⟩ | ⟨rfl, a, rest, room, a', hstack, hnext, rfl⟩ |
    ⟨b, hkeeps, rfl⟩
  · exact hs.start hcounted t task
  · have hbacked := hs.backed t a (by simp [hstack])
    exact ⟨(hnext.changes hs.tidy hbacked).1, hs.alone_next hstack hnext hm,
      hs.backed_next hstack hnext hm, hs.served_next hstack hnext hcounted hm⟩
  · exact hs.amend hkeeps

/-- The accepted calls, served one after another in some order that keeps the order of each thread,
leave the same queues open with the same options. -/
def Serial (l₀ : Ledger) (s : QueueThreads n) : Prop :=
  ∃ order : List Nat, order.Perm s.shared.acceptedEnds ∧
    (order.Pairwise fun i j => s.shared.thread? i = s.shared.thread? j → i < j) ∧
    (l₀.serveAll? (order.filterMap s.shared.deed?)).map Ledger.entries =
      some s.shared.ledger.entries

instance (l₀ : Ledger) (s : QueueThreads n) : Decidable (s.Serial l₀) :=
  decidable_of_iff (∃ order ∈ s.shared.acceptedEnds.permutations',
    (order.Pairwise fun i j => s.shared.thread? i = s.shared.thread? j → i < j) ∧
    (l₀.serveAll? (order.filterMap s.shared.deed?)).map Ledger.entries =
      some s.shared.ledger.entries) (by simp only [Serial, List.mem_permutations'])

private theorem Settled.serial (hs : s.Settled l₀) (hcounted : s.Counted) (hordered : s.Ordered)
    (hrest : s.AtRest) : s.Serial l₀ := by
  obtain ⟨prov, ⟨m, hserved, -, hm⟩, hcovers⟩ := hs.served
  have hnone : prov = fun _ => none := by
    funext uri
    refine Option.eq_none_iff_forall_ne_some.mpr fun before hbefore => ?_
    exact (hcovers uri before).mp hbefore (Threads.weight_eq_zero_of_atRest hrest _)
  refine ⟨s.shared.accepted, hcounted.accepted_perm hrest, hordered.order, ?_⟩
  rw [hserved, Option.map_some, hm, hnone, settle_none]

/-- Where no call is disturbed between looking at its queue and putting it back, every call ends,
and the accepted ones add up, in some order, to what is open in the end. -/
theorem accepted_calls_add_up {b : Bridge Stage} {moves : List (Fin n × QueueMove)}
    (hb : b.native.ledger.Tidy) (h : (idle n b).play? queueProgram moves = some s)
    (hm : (idle n b).Along queueProgram Undisturbed moves) (hrest : s.AtRest) :
    (s.shared.ended.map Prod.fst).Perm (List.range s.shared.begun.length) ∧
      s.Serial b.native.ledger := by
  have hsteps : ∀ (s : QueueThreads n) t m (s' : QueueThreads n),
      s.Counted ∧ s.Ordered ∧ s.Settled b.native.ledger → s.Undisturbed t m →
      s.step? queueProgram t m = some s' →
      s'.Counted ∧ s'.Ordered ∧ s'.Settled b.native.ledger :=
    fun s t m s' ⟨hcounted, hordered, hsettled⟩ hm h =>
      ⟨hcounted.step h, hordered.step hcounted h, hsettled.step hcounted hm h⟩
  obtain ⟨hcounted, hordered, hsettled⟩ := Threads.play?_induction_along hsteps
    ⟨counted_idle b, ordered_idle b, settled_idle hb⟩ hm h
  exact ⟨hcounted.ended_perm hrest, hsettled.serial hcounted hordered hrest⟩

def opened : Bridge Stage :=
  { native := { ledger := (Ledger.openQueue {} "bmq://d/q" (.ofAccess true false) {}).2 } }

def openedHandle : QueueHandle := ⟨0, "bmq://d/q", .ofAccess true false⟩

def opening (uri : String) (code : Int) : QueueMove :=
  .begin (.call ⟨.openQueue uri (.ofAccess true false) {}, ⟨1⟩, code⟩)

def configuring (priority : Int) (code : Int) : QueueMove :=
  .begin (.call ⟨.configureQueue openedHandle { consumerPriority := priority }, ⟨1⟩, code⟩)

def closing : QueueMove := .begin (.call ⟨.closeQueue openedHandle, ⟨1⟩, Code.success⟩)

def proceeds (t : Fin n) (k : Nat) : List (Fin n × QueueMove) := List.replicate k (t, .proceed)

/-- While a call to configure a queue is on its way to being refused, another queue is opened. The
first one is configured when its options have been put back. -/
def apart (t u : Fin 2) : List (Fin 2 × QueueMove) :=
  List.flatten [
    (t, configuring 1 Code.timeout) :: proceeds t 4,
    (u, opening "bmq://d/r" Code.success) :: proceeds u 9,
    proceeds t 5,
    (u, configuring 2 Code.success) :: proceeds u 8]

theorem accepted_calls_add_up_apart : ∃ s : QueueThreads 2,
    opened.native.ledger.Tidy ∧
    (idle 2 opened).play? queueProgram (apart 0 1) = some s ∧
    (idle 2 opened).Along queueProgram Undisturbed (apart 0 1) ∧ s.AtRest ∧
    s.shared.acceptedEnds = [1, 2] ∧
    (s.shared.ended.map Prod.fst).Perm (List.range s.shared.begun.length) ∧
    s.Serial opened.native.ledger := by
  have htidy : opened.native.ledger.Tidy :=
    (Ledger.openQueue_listed Ledger.tidy_empty rfl _ _).1
  have hundisturbed : (idle 2 opened).Along queueProgram Undisturbed (apart 0 1) := by
    decide +kernel
  have hrun : ((idle 2 opened).play? queueProgram (apart 0 1)).any (fun s =>
      decide s.AtRest && s.shared.acceptedEnds == [1, 2]) = true := by
    decide +kernel
  obtain ⟨s, hplay, hs⟩ := (Option.any_eq_true _ _).mp hrun
  simp only [Bool.and_eq_true, beq_iff_eq, decide_eq_true_eq] at hs
  obtain ⟨hended, hserial⟩ := accepted_calls_add_up htidy hplay hundisturbed hs.1
  exact ⟨s, htidy, hplay, hundisturbed, hs.1, hs.2, hended, hserial⟩

def reverting (t u : Fin 2) : List (Fin 2 × QueueMove) :=
  List.flatten [
    (t, configuring 1 Code.timeout) :: proceeds t 4,
    (u, configuring 2 Code.success) :: proceeds u 8,
    proceeds t 5]

def forgetting (t u : Fin 2) : List (Fin 2 × QueueMove) :=
  List.flatten [
    (t, opening "bmq://d/q" Code.timeout) :: proceeds t 4,
    (u, closing) :: proceeds u 9,
    (u, opening "bmq://d/q" Code.success) :: proceeds u 9,
    proceeds t 5]

/-- Options that have been accepted give way to the older ones that a refused call puts back, and a
queue whose opening has been accepted is forgotten by another call whose own is refused. -/
theorem undone_calls_undo_accepted :
    (∃ s : QueueThreads 2, (idle 2 opened).play? queueProgram (reverting 0 1) = some s ∧ s.AtRest ∧
      s.shared.acceptedEnds = [1] ∧ s.shared.ledger.entries = opened.native.ledger.entries ∧
      ¬ s.Serial opened.native.ledger) ∧
    ∃ s : QueueThreads 2, (idle 2 { native := {} }).play? queueProgram (forgetting 0 1) = some s ∧
      s.AtRest ∧ s.shared.acceptedEnds = [1, 2] ∧ s.shared.ledger.entries = [] ∧
      ¬ s.Serial {} := by
  constructor
  · have hrun : ((idle 2 opened).play? queueProgram (reverting 0 1)).any (fun s =>
        decide (s.AtRest ∧ s.shared.acceptedEnds = [1] ∧
          s.shared.ledger.entries = opened.native.ledger.entries ∧
          ¬ Serial opened.native.ledger s)) = true := by
      decide +kernel
    obtain ⟨s, hplay, hs⟩ := (Option.any_eq_true _ _).mp hrun
    exact ⟨s, hplay, of_decide_eq_true hs⟩
  · have hrun : ((idle 2 { native := {} }).play? queueProgram (forgetting 0 1)).any (fun s =>
        decide (s.AtRest ∧ s.shared.acceptedEnds = [1, 2] ∧ s.shared.ledger.entries = [] ∧
          ¬ Serial {} s)) = true := by
      decide +kernel
    obtain ⟨s, hplay, hs⟩ := (Option.any_eq_true _ _).mp hrun
    exact ⟨s, hplay, of_decide_eq_true hs⟩

end QueueThreads

end BrokerBridge
