import BrokerBridge.Proofs.Concurrency.Posting

/-!
# Posts that take turns

Events are taken in the order in which they were buffered, and there is one for every post that
comes to take one. A post whose turn it is takes its own, and its token comes back to its caller or
goes to the first acknowledgement that asks for it.
-/

namespace BrokerBridge

/-- As many events had been taken before the one as had been buffered before the other. -/
def Exchange.InTurn (x : Exchange) : Prop := x.turn = x.place

instance (x : Exchange) : Decidable x.InTurn := inferInstanceAs (Decidable (_ = _))

structure Exchange.Recorded (s : PostRoom) (r : PostRequest) (x : Exchange) : Prop where
  token : x.own.correlations.head? = r.token
  own : s.buffered[x.turn]? = some x.own
  taken : s.taken[x.place]? = some x.taken

private theorem Exchange.Recorded.taken_eq_own {s : PostRoom} {r : PostRequest} {x : Exchange}
    (hx : x.Recorded s r) (hfifo : s.taken <+: s.buffered) (h : x.InTurn) : x.taken = x.own := by
  obtain ⟨hlt, htaken⟩ := List.getElem?_eq_some_iff.mp hx.taken
  have hplace := List.prefix_iff_getElem?.mp hfifo x.place hlt
  rw [htaken, ← h, hx.own] at hplace
  exact (Option.some.inj hplace).symm

/-- What becomes of a post is worked out from the event that it took. -/
def PostEdge.Sound (s : PostRoom) : PostEdge → Prop
  | told r x code batch deliveries => x.Recorded s r ∧
      deliveries = heard (ackRecords (Stage.tokenFor x.taken code) batch)
  | answered r none answer => ∃ error, answer = r.failed error
  | answered r (some x) answer => x.Recorded s r ∧ ∃ code, answer = r.answer x.taken code
  | lost _ => False

def PostEdge.exchange? : PostEdge → Option Exchange
  | told _ x _ _ _ => some x
  | answered _ x _ => x
  | lost _ => none

def Delivery.ackTokens : Delivery → List (Option Correlation)
  | acks records => records.map (·.correlation)
  | _ => []

def PostEdge.report : PostEdge → Option Correlation × Bool × List (Option Correlation)
  | told r _ code _ deliveries =>
      (r.token, decide (code = Code.success), deliveries.flatMap Delivery.ackTokens)
  | answered r _ (.ok ()) => (r.token, true, [])
  | answered r _ (.error failure) => (r.token, false, [failure.returned])
  | lost r => (r.token, false, [])

def PostActivity.Backed (s : PostRoom) : PostActivity → Prop
  | post r _ (.observing e) | post r _ (.buffering e) => e.correlations.head? = r.token
  | post r _ (.entering e turn) | post r _ (.taking e turn) =>
      e.correlations.head? = r.token ∧ s.buffered[turn]? = some e
  | post r _ (.deciding x) | post r _ (.fetching x _) | post r _ (.acknowledging x _ _)
  | post r _ (.telling x _) => x.Recorded s r
  | post r _ (.leaving x answer) | post r _ (.returning x answer) =>
      ∀ given, answer = some given → (PostEdge.answered r x given).Sound s
  | _ => True

private theorem PostErrand.backed_activity (e : PostErrand) (s : PostRoom) :
    e.activity.Backed s := by
  cases e <;> exact True.intro

/-- A post whose event is buffered and that has yet to take one. -/
def PostActivity.waiting : PostActivity → Nat
  | post _ _ (.entering ..) | post _ _ (.taking ..) => 1
  | _ => 0

private theorem PostErrand.waiting_activity (e : PostErrand) : e.activity.waiting = 0 := by
  cases e <;> rfl

/-! ## Growth -/

structure PostRoom.Grows (s s' : PostRoom) : Prop where
  buffered : s.buffered <+: s'.buffered
  taken : s.taken <+: s'.taken

section

variable {s s' : PostRoom} (h : s.Grows s')

include h

theorem Exchange.Recorded.mono {r : PostRequest} {x : Exchange} (hx : x.Recorded s r) :
    x.Recorded s' r where
  token := hx.token
  own := getElem?_of_initial h.buffered hx.own
  taken := getElem?_of_initial h.taken hx.taken

theorem PostEdge.Sound.mono {e : PostEdge} (he : e.Sound s) : e.Sound s' := by
  cases e with
  | told r x code batch deliveries => exact ⟨he.1.mono h, he.2⟩
  | answered r x answer =>
    cases x with
    | none => exact he
    | some x => exact ⟨he.1.mono h, he.2⟩
  | lost r => exact he

theorem PostActivity.Backed.mono {a : PostActivity} (ha : a.Backed s) : a.Backed s' := by
  cases a with
  | host _ => exact ha
  | post r saved stage =>
    cases stage with
    | arriving | finding | packing q => exact ha
    | observing e | buffering e => exact ha
    | entering e turn | taking e turn => exact ⟨ha.1, getElem?_of_initial h.buffered ha.2⟩
    | deciding x | fetching x _ | acknowledging x _ _ | telling x _ =>
      exact Exchange.Recorded.mono h ha
    | leaving x answer | returning x answer => exact fun given hgiven => (ha given hgiven).mono h

end

namespace PostActivity

variable {s s' : PostRoom} {a : PostActivity} {a' : Option PostActivity}

private theorem Moves.waiting (h : a.Moves a') : a'.elim 0 PostActivity.waiting = a.waiting := by
  cases h <;> rfl

private theorem Moves.backed {next : PostActivity} (h : a.Moves (some next)) (ha : a.Backed s) :
    next.Backed s := by
  cases h with
  | packed _ _ _ _ token => exact token
  | missing r _ error | refused r _ _ error =>
    intro given hgiven
    cases hgiven
    exact ⟨error, rfl⟩
  | unscripted r _ x code | told r _ x code =>
    intro given hgiven
    cases hgiven
    exact ⟨ha, code, rfl⟩
  | findingFails | observingFails | acknowledgingFails =>
    intro given hgiven
    cases hgiven
  | entered | decided | fetched | left | observed => exact ha
  | out | found | hostIn => exact True.intro

private theorem Next.grows (h : a.Next s s' a') : s.Grows s' := by
  cases h with
  | buffer => exact ⟨List.prefix_append _ _, List.prefix_refl _⟩
  | take => exact ⟨List.prefix_refl _, List.prefix_append _ _⟩
  | _ => exact ⟨List.prefix_refl _, List.prefix_refl _⟩

private theorem Next.backed {next : PostActivity} (h : a.Next s s' (some next)) (ha : a.Backed s) :
    next.Backed s' := by
  have hgrows := h.grows
  cases h with
  | move moves => exact (moves.backed ha).mono hgrows
  | buffer r saved e => exact ⟨ha, List.getElem?_concat_length⟩
  | take r saved e turn taken =>
    exact
      { token := ha.1
        own := ha.2
        taken := List.getElem?_concat_length }
  | lose =>
    intro given hgiven
    cases hgiven
  | tell r saved x code batch => exact ha.mono hgrows

/-- The log grows by what becomes of posts. A post that waits finds an event. -/
theorem Next.log (h : a.Next s s' a') (ha : a.Backed s)
    (hwaiting : a.waiting ≤ s.bridge.native.ledger.posted.length) :
    ∀ e ∈ s'.log, e ∈ s.log ∨ e.Sound s' := by
  intro e he
  have hgrows := h.grows
  have hlast : ∀ last : PostEdge, last.Sound s' → e ∈ s.log ++ [last] →
      e ∈ s.log ∨ e.Sound s' := by
    intro last hsound he
    rcases List.mem_append.mp he with he | he
    · exact .inl he
    · cases List.mem_singleton.mp he
      exact .inr hsound
  cases h with
  | move | buffer | take => exact .inl he
  | lose r saved e' turn posted =>
    -- The post itself is among those that wait, and no more of them wait than events.
    rw [posted] at hwaiting
    exact absurd hwaiting (Nat.not_succ_le_zero 0)
  | tell r saved x code batch => exact hlast (.told r x code batch _) ⟨ha.mono hgrows, rfl⟩ he
  | answer r saved x answer => exact hlast (.answered r x answer) ((ha answer rfl).mono hgrows) he

private theorem Next.buffers (h : a.Next s s' a')
    (hwaiting : a.waiting ≤ s.bridge.native.ledger.posted.length)
    (hposted : s.taken ++ s.bridge.native.ledger.posted = s.buffered) :
    s'.taken ++ s'.bridge.native.ledger.posted = s'.buffered ∧
      s'.bridge.native.ledger.pending = s.bridge.native.ledger.pending ∧
      a'.elim 0 PostActivity.waiting + s.bridge.native.ledger.posted.length =
        a.waiting + s'.bridge.native.ledger.posted.length := by
  cases h with
  | @move _ _ b moves same =>
    have hp : b.native.ledger.posted = s.bridge.native.ledger.posted := congrArg Prod.fst same
    refine ⟨?_, congrArg Prod.snd same, ?_⟩
    · rw [← hposted, ← hp]
    · rw [moves.waiting, hp]
  | buffer r saved e posted pending =>
    refine ⟨?_, pending, ?_⟩
    · rw [posted, ← hposted, List.append_assoc]
    · rw [posted, List.length_append, List.length_singleton]
      simp only [Option.elim_some, PostActivity.waiting]
      omega
  | take r saved e turn taken posted pending =>
    refine ⟨?_, pending, ?_⟩
    · rw [← hposted, posted, List.append_assoc]
      rfl
    · rw [posted, List.length_cons]
      simp only [Option.elim_some, PostActivity.waiting]
      omega
  | lose r saved e turn posted =>
    rw [posted] at hwaiting
    exact absurd hwaiting (Nat.not_succ_le_zero 0)
  | @tell r saved x code batch b same | @answer r saved x answer b same =>
    have hp : b.native.ledger.posted = s.bridge.native.ledger.posted := congrArg Prod.fst same
    refine ⟨?_, congrArg Prod.snd same, ?_⟩
    · rw [← hposted, ← hp]
    · rw [← hp]
      rfl

end PostActivity

namespace PostThreads

variable {n : Nat} {s s' : PostThreads n} {t : Fin n} {m : PostMove} {b : Bridge Stage}

structure Orderly (s : PostThreads n) : Prop where
  pending : s.shared.bridge.native.ledger.pending = []
  posted : s.shared.taken ++ s.shared.bridge.native.ledger.posted = s.shared.buffered
  waiting : s.weight PostActivity.waiting = s.shared.bridge.native.ledger.posted.length
  backed : ∀ t, ∀ a ∈ s.stackOf t, a.Backed s.shared
  log : ∀ e ∈ s.shared.log, e.Sound s.shared

private theorem orderly_idle (hcalm : b.native.Calm) : (idle n b).Orderly where
  pending := congrArg Prod.snd hcalm
  posted := congrArg Prod.fst hcalm
  waiting := by
    have hposted : b.native.ledger.posted = [] := congrArg Prod.fst hcalm
    rw [idle, Threads.weight_atRest]
    simp [Threads.atRest, hposted]
  backed := by
    intro t a ha
    cases ha
  log := by
    intro e he
    cases he

private theorem orderly_step (hs : s.Orderly) (h : s.step? postProgram t m = some s') :
    s'.Orderly := by
  obtain ⟨shared, stack, hp, rfl⟩ := Threads.exists_of_step? h
  rcases next_of_postProgram hs.pending hp with
    ⟨e, rfl, rfl⟩ | ⟨a, rest, a', hstack, rfl, hn⟩ | ⟨f, rfl, rfl⟩
  · refine ⟨hs.pending, hs.posted, ?_, ?_, hs.log⟩
    · rw [Threads.weight_push, e.waiting_activity]
      exact hs.waiting
    · apply Threads.forall_mem_set hs.backed
      intro a ha
      rcases List.mem_cons.mp ha with rfl | ha
      · exact e.backed_activity _
      · exact hs.backed t a ha
  · have ha : a ∈ s.stackOf t := by simp [hstack]
    have hwaiting : a.waiting ≤ s.shared.bridge.native.ledger.posted.length := by
      rw [← hs.waiting]
      exact Threads.le_weight PostActivity.waiting ha
    obtain ⟨hposted, hpending, hcount⟩ := hn.buffers hwaiting hs.posted
    refine ⟨hpending.trans hs.pending, hposted, ?_, ?_, ?_⟩
    · have hw := Threads.weight_replace PostActivity.waiting hstack shared a'
      have hbefore := hs.waiting
      rw [Threads.shared_set]
      omega
    -- Events are only added behind those that the other threads know.
    · have hrest : ∀ u, ∀ f ∈ s.stackOf u, f.Backed shared :=
        fun u f hf => (hs.backed u f hf).mono hn.grows
      apply Threads.forall_mem_set hrest
      intro f hf
      rcases List.mem_append.mp hf with hf | hf
      · cases Option.mem_toList.mp hf
        exact hn.backed (hs.backed t a ha)
      · exact hrest t f (by simp [hstack, hf])
    · intro e he
      rcases hn.log (hs.backed t a ha) hwaiting e he with he | hsound
      · exact (hs.log e he).mono hn.grows
      · exact hsound
  · have hgrows : s.shared.Grows (s.shared.amend f) := ⟨List.prefix_refl _, List.prefix_refl _⟩
    refine ⟨hs.pending, hs.posted, ?_, ?_, ?_⟩
    · have hw := s.weight_set PostActivity.waiting t (s.shared.amend f) (s.stackOf t)
      have hbefore := hs.waiting
      show _ = s.shared.bridge.native.ledger.posted.length
      omega
    · have hall : ∀ u, ∀ a ∈ s.stackOf u, a.Backed (s.shared.amend f) :=
        fun u a ha => (hs.backed u a ha).mono hgrows
      exact Threads.forall_mem_set hall t (hall t) _
    · exact fun e he => (hs.log e he).mono hgrows

private theorem orderly_of_play? {moves : List (Fin n × PostMove)} (hcalm : b.native.Calm)
    (h : (idle n b).play? postProgram moves = some s) : s.Orderly := by
  refine Threads.play?_induction ?_ (orderly_idle hcalm) h
  intro s t m s' _ hs hstep
  exact orderly_step hs hstep

end PostThreads

/-- What is promised of a post. One that takes its turn takes its own event: the acknowledgements
of an accepted one find its token, and a failure hands it back. One whose event the client was not
given has its token back in any case. -/
def PostEdge.KeepsToken (s : PostRoom) : PostEdge → Prop
  | told r x code batch deliveries => x.Recorded s r ∧
      (x.InTurn → x.taken = x.own ∧ ∃ records, deliveries = heard records ∧
        Acknowledged (if code = Code.success then r.token else none) batch records)
  | answered r none answer => ∃ failure, answer = .error failure ∧ failure.returned = r.token
  | answered r (some x) answer => x.Recorded s r ∧
      (x.InTurn → x.taken = x.own ∧
        ∀ failure, answer = .error failure → failure.returned = r.token)
  | lost _ => False

private theorem PostEdge.Sound.keepsToken {s : PostRoom} (hfifo : s.taken <+: s.buffered)
    {e : PostEdge}
    (he : e.Sound s) : e.KeepsToken s := by
  cases e with
  | lost r => exact he
  | told r x code batch deliveries =>
    obtain ⟨hx, hdeliveries⟩ := he
    refine ⟨hx, fun hturn => ?_⟩
    have hown := hx.taken_eq_own hfifo hturn
    refine ⟨hown, _, hdeliveries, ?_⟩
    rw [Stage.tokenFor, hown, hx.token]
    exact acknowledged_ackRecords _ _
  | answered r x answer =>
    cases x with
    | none =>
      obtain ⟨error, rfl⟩ := he
      exact ⟨_, rfl, rfl⟩
    | some x =>
      obtain ⟨hx, code, rfl⟩ := he
      refine ⟨hx, fun hturn => ?_⟩
      have hown := hx.taken_eq_own hfifo hturn
      refine ⟨hown, fun failure hfailure => ?_⟩
      rw [PostRequest.answer] at hfailure
      split at hfailure
      · cases hfailure
      · cases hfailure
        rw [hown]
        exact hx.token

namespace PostThreads

variable {n : Nat} {s : PostThreads n} {b : Bridge Stage}

/-- However posts interleave, events are taken in the order in which they were buffered, no post
finds nothing to take, and each post that takes its turn keeps its event and its token. -/
theorem posts_in_turn_keep_tokens {moves : List (Fin n × PostMove)} (hcalm : b.native.Calm)
    (h : (idle n b).play? postProgram moves = some s) :
    s.shared.taken <+: s.shared.buffered ∧ ∀ e ∈ s.shared.log, e.KeepsToken s.shared := by
  have hs := orderly_of_play? hcalm h
  have hfifo : s.shared.taken <+: s.shared.buffered := ⟨_, hs.posted⟩
  exact ⟨hfifo, fun e he => (hs.log e he).keepsToken hfifo⟩

def letter (token : String) : PostRequest :=
  ⟨"bmq://d/q", ⟨⟨#[1]⟩, none, some ⟨token⟩, .none⟩⟩

def proceeds (t : Fin n) (k : Nat) : List (Fin n × PostMove) := List.replicate k (t, .proceed)

def refuse : PostMove := .amend fun n => { n with codes := { n.codes with post := Code.timeout } }

/-- A post of host code that is accepted; one more from its callback, and one of another thread
that is buffered before it was accepted and that takes its event ahead of the callback's. The later
two are refused. -/
def nestedLetters (t u : Fin 2) : List (Fin 2 × PostMove) :=
  List.flatten [
    [(t, .begin .host), (t, .proceed)],
    (t, .begin (.post (letter "first"))) :: proceeds t 5,
    (u, .begin (.post (letter "second"))) :: proceeds u 5,
    proceeds t 5,
    (t, refuse) :: (t, .begin (.post (letter "third"))) :: proceeds t 5,
    proceeds u 6,
    proceeds t 10]

theorem posts_in_turn_keep_tokens_nested : ∃ s : PostThreads 2,
    (Session.rehearsed Session.mixedBatch).native.Calm ∧
    (idle 2 (Session.rehearsed Session.mixedBatch)).play? postProgram (nestedLetters 0 1) = some s ∧
    s.shared.log.map PostEdge.report =
      [(some ⟨"first"⟩, true, [some ⟨"first"⟩, none, some ⟨"other"⟩]),
        (some ⟨"second"⟩, false, [some ⟨"second"⟩]), (some ⟨"third"⟩, false, [some ⟨"third"⟩]),
        (some ⟨"first"⟩, true, [])] ∧
    (∀ e ∈ s.shared.log, e.exchange?.all (decide ·.InTurn) = true) ∧
    s.shared.taken <+: s.shared.buffered ∧ ∀ e ∈ s.shared.log, e.KeepsToken s.shared := by
  have hcalm : (Session.rehearsed Session.mixedBatch).native.Calm := rfl
  have hrun : ((idle 2 (Session.rehearsed Session.mixedBatch)).play? postProgram
      (nestedLetters 0 1)).any (fun s => s.shared.log.map PostEdge.report ==
        [(some ⟨"first"⟩, true, [some ⟨"first"⟩, none, some ⟨"other"⟩]),
          (some ⟨"second"⟩, false, [some ⟨"second"⟩]), (some ⟨"third"⟩, false, [some ⟨"third"⟩]),
          (some ⟨"first"⟩, true, [])] &&
        s.shared.log.all fun e => e.exchange?.all (decide ·.InTurn)) = true := by
    decide +kernel
  obtain ⟨s, hplay, hs⟩ := (Option.any_eq_true _ _).mp hrun
  simp only [Bool.and_eq_true, beq_iff_eq, List.all_eq_true] at hs
  obtain ⟨hfifo, hkeeps⟩ := posts_in_turn_keep_tokens hcalm hplay
  exact ⟨s, hcalm, hplay, hs.1, hs.2, hfifo, hkeeps⟩

def doubleBatch : List ScriptedAck :=
  [{ status := 0, guid := .zero, queueUri := "bmq://d/q", correlation := .posted },
    { status := 0, guid := .zero, queueUri := "bmq://d/q", correlation := .posted }]

/-- Of two posts the one whose event is buffered last takes first. It is accepted and the other is
refused. -/
def overtaking (t u : Fin 2) : List (Fin 2 × PostMove) :=
  List.flatten [
    (t, .begin (.post (letter "first"))) :: proceeds t 5,
    (u, .begin (.post (letter "second"))) :: proceeds u 5,
    proceeds u 8,
    (t, refuse) :: proceeds t 6]

/-- A post that overtakes another is acknowledged with the other's token, and the other has its
token handed back. Of two acknowledgements that ask for the token of an accepted post, the second
goes without, also where the post takes its turn. -/
theorem posts_exchange_tokens :
    (∃ s : PostThreads 2,
      (idle 2 (Session.rehearsed doubleBatch)).play? postProgram (overtaking 0 1) = some s ∧
      s.shared.log.map PostEdge.report =
        [(some ⟨"second"⟩, true, [some ⟨"first"⟩, none]), (some ⟨"second"⟩, true, []),
          (some ⟨"first"⟩, false, [some ⟨"second"⟩])]) ∧
    (∃ s : PostThreads 1, (idle 1 (Session.rehearsed doubleBatch)).play? postProgram
        ((0, .begin (.post (letter "first"))) :: proceeds 0 13) = some s ∧
      s.shared.log.map PostEdge.report =
        [(some ⟨"first"⟩, true, [some ⟨"first"⟩, none]), (some ⟨"first"⟩, true, [])] ∧
      ∀ e ∈ s.shared.log, e.exchange?.all (decide ·.InTurn) = true) := by
  constructor
  · have hrun : ((idle 2 (Session.rehearsed doubleBatch)).play? postProgram (overtaking 0 1)).any
        (fun s => s.shared.log.map PostEdge.report ==
          [(some ⟨"second"⟩, true, [some ⟨"first"⟩, none]), (some ⟨"second"⟩, true, []),
            (some ⟨"first"⟩, false, [some ⟨"second"⟩])]) = true := by
      decide +kernel
    obtain ⟨s, hplay, hs⟩ := (Option.any_eq_true _ _).mp hrun
    exact ⟨s, hplay, eq_of_beq hs⟩
  · have hrun : ((idle 1 (Session.rehearsed doubleBatch)).play? postProgram
        ((0, .begin (.post (letter "first"))) :: proceeds 0 13)).any
        (fun s => s.shared.log.map PostEdge.report ==
          [(some ⟨"first"⟩, true, [some ⟨"first"⟩, none]), (some ⟨"first"⟩, true, [])] &&
          s.shared.log.all fun e => e.exchange?.all (decide ·.InTurn)) = true := by
      decide +kernel
    obtain ⟨s, hplay, hs⟩ := (Option.any_eq_true _ _).mp hrun
    simp only [Bool.and_eq_true, beq_iff_eq, List.all_eq_true] at hs
    exact ⟨s, hplay, hs.1, hs.2⟩

end PostThreads

end BrokerBridge
