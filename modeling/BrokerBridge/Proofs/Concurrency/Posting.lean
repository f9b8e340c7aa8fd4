import BrokerBridge.Proofs.Concurrency.Threads
import BrokerBridge.Proofs.Replay.PostedToken

/-!
# Posts on threads

Posts of any number of threads to one scripted client, cut where each of them takes a lock. An
event is buffered before its thread takes up host execution, and the oldest event is taken out
afterwards. The gate lets any number of posts in at once, so it is left out.
-/

namespace BrokerBridge

structure PostRequest where
  uri : String
  message : OutgoingMessage

namespace PostRequest

def token (r : PostRequest) : Option Correlation := r.message.correlation

def failed (r : PostRequest) (error : SessionError) : Except PostFailure Unit :=
  .error ⟨error, r.token⟩

def answer (r : PostRequest) (taken : MessageEvent) (code : Int) : Except PostFailure Unit :=
  if code = Code.success then .ok ()
  else .error ⟨.ofNative (.post r.uri) code, taken.correlations.head?⟩

end PostRequest

/-- What a post put into the buffer and what it took out: `turn` events were buffered before its
own, and `place` events were taken before the one it took. -/
structure Exchange where
  own : MessageEvent
  turn : Nat
  taken : MessageEvent
  place : Nat

/-- How far a post has come. Host execution is taken up before an event is taken and left after the
host was told of the acknowledgements. There is no answer where a panic unwinds. -/
inductive PostStage where
  | arriving
  | finding
  | packing (q : QueueHandle)
  | observing (e : MessageEvent)
  | buffering (e : MessageEvent)
  | entering (e : MessageEvent) (turn : Nat)
  | taking (e : MessageEvent) (turn : Nat)
  | deciding (x : Exchange)
  | fetching (x : Exchange) (code : Int)
  | acknowledging (x : Exchange) (code : Int) (batch : List ScriptedAck)
  | telling (x : Exchange) (code : Int)
  | leaving (x : Option Exchange) (answer : Option (Except PostFailure Unit))
  | returning (x : Option Exchange) (answer : Option (Except PostFailure Unit))

/-- What a thread can be inside of; `saved` is the host execution that a post gave up. -/
inductive PostActivity where
  | post (r : PostRequest) (saved : Nat) (stage : PostStage)
  | host (entered : Bool)

inductive PostErrand where
  | post (r : PostRequest)
  | host

def PostErrand.activity : PostErrand → PostActivity
  | post r => .post r 0 .arriving
  | host => .host false

def HostCode.quiet : HostCode Stage := .ending fun _ => .ok

namespace PostActivity

def isOpen : PostActivity → Bool
  | post _ _ (.telling ..) => true
  | host entered => entered
  | _ => false

def advance (turn place : Nat) : PostActivity → Act Stage (Option PostActivity)
  | post r _ .arriving => do
      let saved ← Act.stepOut
      return some (post r saved .finding)
  | post r saved .finding => do
      match ← Stage.queue? r.uri with
      | some q => return some (post r saved (.packing q))
      | none => return some (post r saved (.returning none (r.failed (.queueNotOpened r.uri))))
  | post r saved (.packing q) => do
      let table := (← Act.native).ledger.table
      match (EventBuilder.empty EventBuilder.defaultMaxPayload).pack table .zero q r.message with
      | .error refused =>
          return some (post r saved
            (.returning none (some (.error ⟨.construction refused.code,
              refused.message.correlation⟩))))
      | .ok builder => return some (post r saved (.observing builder.build))
  | post r saved (.observing e) => do
      Stage.observe (.ofPosted e)
      return some (post r saved (.buffering e))
  | post r saved (.buffering e) => do
      Stage.modifyLedger (·.post e)
      return some (post r saved (.entering e turn))
  | post r saved (.entering e turn) => do
      Act.enterHost 1
      return some (post r saved (.taking e turn))
  | post r saved (.taking e turn) => do
      match ← Stage.ledgerUpdate (·.takePosted) with
      | none => Act.panic .postLost
      | some taken => return some (post r saved (.deciding ⟨e, turn, taken, place⟩))
  | post r saved (.deciding x) => do
      let code ← Stage.settle (.ofPosted x.own) (·.post)
      return some (post r saved (.fetching x code))
  | post r saved (.fetching x code) => do
      match ← Stage.nextAcks with
      | some batch => return some (post r saved (.acknowledging x code batch))
      | none => return some (post r saved (.leaving x (r.answer x.taken code)))
  | post r saved (.acknowledging x code batch) => do
      Stage.acknowledge .quiet x.taken code batch
      return some (post r saved (.telling x code))
  | post r saved (.telling x code) =>
      return some (post r saved (.leaving x (r.answer x.taken code)))
  | post r saved (.leaving x answer) => do
      Act.leaveHost
      return some (post r saved (.returning x answer))
  | post _ saved (.returning _ _) => do
      Act.stepBack saved
      return none
  | host false => do
      Act.enterHost 1
      return some (host true)
  | host true => do
      Act.leaveHost
      return none

def unwound : PostActivity → Option PostActivity
  | post r saved (.taking ..) => some (post r saved (.leaving none none))
  | post r saved (.acknowledging x _ _) => some (post r saved (.leaving x none))
  | post r saved _ => some (post r saved (.returning none none))
  | host _ => none

end PostActivity

inductive PostEdge where
  /-- The host is told of a batch by these deliveries. -/
  | told (r : PostRequest) (x : Exchange) (code : Int) (batch : List ScriptedAck)
      (deliveries : List Delivery)
  /-- The caller is answered. Without an exchange the client was given nothing. -/
  | answered (r : PostRequest) (x : Option Exchange) (answer : Except PostFailure Unit)
  /-- There was no event to be taken. -/
  | lost (r : PostRequest)

/-- What threads share, with the events buffered and taken so far, each in order. -/
structure PostRoom where
  bridge : Bridge Stage
  buffered : List MessageEvent := []
  taken : List MessageEvent := []
  log : List PostEdge := []

namespace PostRoom

def advanced (s : PostRoom) (b : Bridge Stage) (a : PostActivity) (a' : Option PostActivity) :
    PostRoom :=
  match a, a' with
  | .post _ _ (.buffering e), _ => { s with bridge := b, buffered := s.buffered ++ [e] }
  | .post _ _ (.taking _ _), some (.post _ _ (.deciding x)) =>
      { s with bridge := b, taken := s.taken ++ [x.taken] }
  | .post r _ (.acknowledging x code batch), _ =>
      let deliveries := b.deliveries.drop s.bridge.deliveries.length
      { s with bridge := b, log := s.log ++ [.told r x code batch deliveries] }
  | .post r _ (.returning x (some answer)), _ =>
      { s with bridge := b, log := s.log ++ [.answered r x answer] }
  | _, _ => { s with bridge := b }

def panicked (s : PostRoom) (b : Bridge Stage) (a : PostActivity) : PostRoom :=
  match a with
  | .post r _ (.taking ..) => { s with bridge := b, log := s.log ++ [.lost r] }
  | _ => { s with bridge := b }

def amend (s : PostRoom) (f : Stage → Stage) : PostRoom :=
  let l := s.bridge.native.ledger
  let n := f s.bridge.native
  { s with bridge.native := { n with
      ledger := { n.ledger with posted := l.posted, pending := l.pending } } }

end PostRoom

inductive PostMove where
  | begin (e : PostErrand)
  | proceed
  | amend (f : Stage → Stage)

/-- What threads do with the client. Only the innermost activity of a thread moves. -/
def postProgram : Program PostRoom PostActivity PostMove := fun s t stack m =>
  match m, stack with
  | .begin e, stack =>
      if stack.head?.all PostActivity.isOpen then some (s, e.activity :: stack) else none
  | .proceed, a :: rest =>
      match a.advance s.buffered.length s.taken.length { s.bridge with thread := t } with
      | .ok a' b => some (s.advanced b a a', a'.toList ++ rest)
      | .error (.panic _) b => some (s.panicked b a, a.unwound.toList ++ rest)
      | .error _ _ => none
  | .amend f, stack => some (s.amend f, stack)
  | .proceed, [] => none

abbrev PostThreads (n : Nat) := Threads n PostRoom PostActivity

def PostThreads.idle (n : Nat) (b : Bridge Stage) : PostThreads n := .atRest { bridge := b }

/-! ## What a move can do -/

def heard (records : List ReceivedAck) : List Delivery :=
  if records = [] then [] else [.acks records]

namespace PostActivity

inductive Moves : PostActivity → Option PostActivity → Prop
  | out (r saved₀ saved) : Moves (.post r saved₀ .arriving) (some (.post r saved .finding))
  | found (r saved q) : Moves (.post r saved .finding) (some (.post r saved (.packing q)))
  | missing (r saved error) :
      Moves (.post r saved .finding) (some (.post r saved (.returning none (r.failed error))))
  | packed (r saved q e) (token : e.correlations.head? = r.token) :
      Moves (.post r saved (.packing q)) (some (.post r saved (.observing e)))
  | refused (r saved q error) :
      Moves (.post r saved (.packing q)) (some (.post r saved (.returning none (r.failed error))))
  | observed (r saved e) :
      Moves (.post r saved (.observing e)) (some (.post r saved (.buffering e)))
  | entered (r saved e turn) :
      Moves (.post r saved (.entering e turn)) (some (.post r saved (.taking e turn)))
  | decided (r saved x code) :
      Moves (.post r saved (.deciding x)) (some (.post r saved (.fetching x code)))
  | fetched (r saved x code batch) :
      Moves (.post r saved (.fetching x code)) (some (.post r saved (.acknowledging x code batch)))
  | unscripted (r saved x code) : Moves (.post r saved (.fetching x code))
      (some (.post r saved (.leaving x (r.answer x.taken code))))
  | told (r saved x code) : Moves (.post r saved (.telling x code))
      (some (.post r saved (.leaving x (r.answer x.taken code))))
  | left (r saved x answer) :
      Moves (.post r saved (.leaving x answer)) (some (.post r saved (.returning x answer)))
  | unanswered (r saved x) : Moves (.post r saved (.returning x none)) none
  | findingFails (r saved) :
      Moves (.post r saved .finding) (some (.post r saved (.returning none none)))
  | observingFails (r saved e) :
      Moves (.post r saved (.observing e)) (some (.post r saved (.returning none none)))
  | acknowledgingFails (r saved x code batch) : Moves (.post r saved (.acknowledging x code batch))
      (some (.post r saved (.leaving x none)))
  | hostIn : Moves (.host false) (some (.host true))
  | hostOut : Moves (.host true) none

inductive Next (s : PostRoom) : PostActivity → PostRoom → Option PostActivity → Prop
  | move {a a' b} (moves : a.Moves a')
      (same : b.native.ledger.buffers = s.bridge.native.ledger.buffers) :
      Next s a { s with bridge := b } a'
  | buffer (r saved e) {b}
      (posted : b.native.ledger.posted = s.bridge.native.ledger.posted ++ [e])
      (pending : b.native.ledger.pending = s.bridge.native.ledger.pending) :
      Next s (.post r saved (.buffering e))
        { s with bridge := b, buffered := s.buffered ++ [e] }
        (some (.post r saved (.entering e s.buffered.length)))
  | take (r saved e turn taken) {b}
      (posted : s.bridge.native.ledger.posted = taken :: b.native.ledger.posted)
      (pending : b.native.ledger.pending = s.bridge.native.ledger.pending) :
      Next s (.post r saved (.taking e turn))
        { s with bridge := b, taken := s.taken ++ [taken] }
        (some (.post r saved (.deciding ⟨e, turn, taken, s.taken.length⟩)))
  | lose (r saved e turn) {b} (posted : s.bridge.native.ledger.posted = []) :
      Next s (.post r saved (.taking e turn))
        { s with bridge := b, log := s.log ++ [.lost r] }
        (some (.post r saved (.leaving none none)))
  | tell (r saved x code batch) {b}
      (same : b.native.ledger.buffers = s.bridge.native.ledger.buffers) :
      Next s (.post r saved (.acknowledging x code batch))
        { s with
          bridge := b
          log := s.log ++
            [.told r x code batch (heard (ackRecords (Stage.tokenFor x.taken code) batch))] }
        (some (.post r saved (.telling x code)))
  | answer (r saved x answer) {b}
      (same : b.native.ledger.buffers = s.bridge.native.ledger.buffers) :
      Next s (.post r saved (.returning x (some answer)))
        { s with bridge := b, log := s.log ++ [.answered r x answer] } none

end PostActivity

def Intact (b b' : Bridge Stage) : Prop :=
  b.native.ledger.pending = [] → b'.native = b.native

private theorem intact_frame : Frame Intact where
  same hn _ _ := hn
  trans := by
    intro b₁ b₂ b₃ h₁ h₂ hpending
    have hn₁ := h₁ hpending
    rw [← hn₁] at hpending
    exact (h₂ hpending).trans hn₁

namespace Stage

open Act

private theorem intact_holding {α : Type} (tokens : List Correlation) {body : Act Stage α}
    (h : Within Intact body) : Within Intact (holding tokens body) := by
  refine within_holding ?_ h
  intro b b₁ hintact hpending
  have hn := hintact hpending
  simp [hn]

private theorem intact_passOn (e : NativeEvent) : Within Intact (passOn .quiet e) := by
  have hquiet : ∀ d, Within Intact (HostCode.quiet d) := fun d => within_pure intact_frame _
  have htell := within_tell intact_frame (fun b d _ => rfl) hquiet e
  have hheld := intact_holding (tokensOf e) htell
  constructor
  · intro b x b' h hpending
    rw [passOn_apply hpending] at h
    exact hheld.ok h hpending
  · intro b cause b' h hpending
    rw [passOn_apply hpending] at h
    exact hheld.panic h hpending

private theorem intact_playAcks (batch : List ScriptedAck) (posted : Option Correlation) :
    Within Intact (playAcks .quiet batch posted) := by
  apply within_bind intact_frame (within_ackMessages intact_frame posted batch)
  exact fun _ => intact_holding _ (intact_passOn _)

private theorem intact_acknowledge (e : MessageEvent) (code : Int) (batch : List ScriptedAck) :
    Within Intact (acknowledge .quiet e code batch) := by
  unfold acknowledge
  split
  · exact intact_playAcks _ _
  · exact intact_holding _ (intact_playAcks _ _)

end Stage

/-- Host code that only ends hears of the acknowledgements and of nothing else. -/
theorem Told.quiet {records : List ReceivedAck} {b b' : Bridge Stage}
    (h : Told .quiet records b b') : b'.deliveries = b.deliveries ++ heard records := by
  unfold Told at h
  unfold heard
  split at h
  · next hnone =>
    rw [if_pos hnone, List.append_nil]
    exact h
  · next hsome =>
    rw [if_neg hsome]
    obtain ⟨b₁, b₂, hcalled, hends, hd⟩ := h
    rw [hd, ← hcalled]
    rcases hends with ⟨x, hend⟩ | ⟨cause, hend⟩
    · cases hend
      rfl
    · cases hend

namespace PostActivity

open Act

variable {s : PostRoom} {t : ThreadId} {b' : Bridge Stage} {a : PostActivity}

private theorem next_of_advance_finding {r : PostRequest} {saved : Nat} {a' : Option PostActivity}
    (h : (post r saved .finding).advance s.buffered.length s.taken.length
      { s.bridge with thread := t } = .ok a' b') :
    (post r saved .finding).Next s (s.advanced b' (post r saved .finding) a') a' := by
  obtain ⟨q, b₁, hfound, h⟩ := bind_eq_ok.mp h
  have hbuffers := ((Stage.silent_queue? r.uri).ok hfound).buffers
  cases q with
  | some q =>
    cases h
    exact .move (.found ..) hbuffers
  | none =>
    cases h
    exact .move (.missing ..) hbuffers

private theorem next_of_advance_packing {r : PostRequest} {saved : Nat} {q : QueueHandle}
    {a' : Option PostActivity}
    (h : (post r saved (.packing q)).advance s.buffered.length s.taken.length
      { s.bridge with thread := t } = .ok a' b') :
    (post r saved (.packing q)).Next s (s.advanced b' (post r saved (.packing q)) a') a' := by
  obtain ⟨n, b₁, hnative, h⟩ := bind_eq_ok.mp h
  cases hnative
  rcases hpack : (EventBuilder.empty EventBuilder.defaultMaxPayload).pack
    s.bridge.native.ledger.table .zero q r.message with refused | builder
  · rw [hpack] at h
    cases h
    have hanswer : (.error ⟨.construction refused.code, refused.message.correlation⟩ :
        Except PostFailure Unit) = r.failed (.construction refused.code) := by
      rw [pack_error hpack]
      rfl
    rw [hanswer]
    exact .move (.refused ..) rfl
  · rw [hpack] at h
    cases h
    exact .move (.packed r saved q _ (correlations_of_pack hpack)) rfl

private theorem next_of_advance_ok (hpending : s.bridge.native.ledger.pending = [])
    {a' : Option PostActivity}
    (h : a.advance s.buffered.length s.taken.length { s.bridge with thread := t } = .ok a' b') :
    a.Next s (s.advanced b' a a') a' := by
  cases a with
  | host entered =>
    cases entered with
    | false =>
      obtain ⟨_, b₁, henter, h⟩ := bind_eq_ok.mp h
      cases h
      have hsame := (within_enterHost same_frame 1).ok henter
      exact .move .hostIn (by rw [hsame.1])
    | true =>
      cases h
      exact .move .hostOut rfl
  | post r saved stage =>
    cases stage with
    | arriving =>
      obtain ⟨out, b₁, hout, h⟩ := bind_eq_ok.mp h
      cases h
      have hsame := (within_stepOut same_frame).ok hout
      exact .move (.out ..) (by rw [hsame.1])
    | finding => exact next_of_advance_finding h
    | packing q => exact next_of_advance_packing h
    | observing e =>
      obtain ⟨_, b₁, hobserve, h⟩ := bind_eq_ok.mp h
      cases h
      exact .move (.observed ..) ((Stage.silent_observe _).ok hobserve).buffers
    | buffering e =>
      cases h
      exact .buffer r saved e rfl rfl
    | entering e turn =>
      obtain ⟨_, b₁, henter, h⟩ := bind_eq_ok.mp h
      cases h
      have hsame := (within_enterHost same_frame 1).ok henter
      exact .move (.entered ..) (by rw [hsame.1])
    | taking e turn =>
      obtain ⟨taken, b₁, htake, h⟩ := bind_eq_ok.mp h
      cases htake
      cases hposted : s.bridge.native.ledger.posted with
      | nil =>
        simp only [hposted] at h
        cases h
      | cons e' rest =>
        simp only [hposted] at h
        cases h
        exact .take r saved e turn e' (by simp [hposted]) rfl
    | deciding x =>
      cases h
      exact .move (.decided ..) rfl
    | fetching x code =>
      obtain ⟨batch, b₁, hfetch, h⟩ := bind_eq_ok.mp h
      have hbuffers : b₁.native.ledger.buffers = s.bridge.native.ledger.buffers := by
        cases hfetch
        rfl
      cases batch with
      | some batch =>
        cases h
        exact .move (.fetched ..) hbuffers
      | none =>
        cases h
        exact .move (.unscripted ..) hbuffers
    | acknowledging x code batch =>
      obtain ⟨_, b₁, hacks, h⟩ := bind_eq_ok.mp h
      cases h
      have hn := (Stage.intact_acknowledge ..).ok hacks hpending
      have hheard : b'.deliveries = s.bridge.deliveries ++ _ :=
        (Stage.acknowledge_ok (b := { s.bridge with thread := t }) hpending hacks).quiet
      have hdeliveries : b'.deliveries.drop s.bridge.deliveries.length =
          heard (ackRecords (Stage.tokenFor x.taken code) batch) := by
        rw [hheard]
        exact List.drop_left
      rw [PostRoom.advanced, hdeliveries]
      exact .tell r saved x code batch (by rw [hn])
    | telling x code =>
      cases h
      exact .move (.told ..) rfl
    | leaving x answer =>
      cases h
      exact .move (.left ..) rfl
    | returning x answer =>
      obtain ⟨_, b₁, hback, h⟩ := bind_eq_ok.mp h
      cases h
      have hsame := (within_stepBack same_frame saved).ok hback
      have hbuffers : b'.native.ledger.buffers = s.bridge.native.ledger.buffers := by
        rw [hsame.1]
      cases answer with
      | none => exact .move (.unanswered ..) hbuffers
      | some answer => exact .answer r saved x answer hbuffers

private theorem next_of_advance_panic (hpending : s.bridge.native.ledger.pending = [])
    {cause : Panic}
    (h : a.advance s.buffered.length s.taken.length { s.bridge with thread := t } =
      .error (.panic cause) b') :
    a.Next s (s.panicked b' a) a.unwound := by
  cases a with
  | host entered =>
    exfalso
    cases entered with
    | false =>
      rcases bind_eq_error.mp h with h | ⟨_, b₁, _, h⟩
      · exact neverPanics_enterHost _ _ _ _ h
      · cases h
    | true => cases h
  | post r saved stage =>
    cases stage with
    | finding =>
      rcases bind_eq_error.mp h with h | ⟨q, b₁, _, h⟩
      · exact .move (.findingFails ..) ((Stage.silent_queue? r.uri).panic h).buffers
      · cases q <;> cases h
    | observing e =>
      rcases bind_eq_error.mp h with h | ⟨_, b₁, _, h⟩
      · exact .move (.observingFails ..) ((Stage.silent_observe _).panic h).buffers
      · cases h
    | acknowledging x code batch =>
      rcases bind_eq_error.mp h with h | ⟨_, b₁, _, h⟩
      · have hn := (Stage.intact_acknowledge ..).panic h hpending
        exact .move (.acknowledgingFails ..) (by rw [hn])
      · cases h
    | taking e turn =>
      rcases bind_eq_error.mp h with h | ⟨taken, b₁, htake, h⟩
      · cases h
      · cases htake
        cases hposted : s.bridge.native.ledger.posted with
        | nil => exact .lose r saved e turn hposted
        | cons e' rest =>
          simp only [hposted] at h
          cases h
    | entering e turn =>
      rcases bind_eq_error.mp h with h | ⟨_, b₁, _, h⟩
      · exact absurd h (neverPanics_enterHost _ _ _ _)
      · cases h
    | returning x answer =>
      rcases bind_eq_error.mp h with h | ⟨_, b₁, _, h⟩
      · exact absurd h (neverPanics_stepBack _ _ _ _)
      · cases h
    | packing q =>
      rcases bind_eq_error.mp h with h | ⟨n, b₁, _, h⟩
      · cases h
      · cases hpack : (EventBuilder.empty EventBuilder.defaultMaxPayload).pack n.ledger.table .zero
          q r.message
        all_goals
          rw [hpack] at h
          cases h
    | fetching x code =>
      rcases bind_eq_error.mp h with h | ⟨batch, b₁, _, h⟩
      · cases h
      · cases batch <;> cases h
    | arriving | buffering e | deciding x | telling x code | leaving x answer => cases h

end PostActivity

/-- A move begins something new, it is one of the innermost activity, or it is made outside of the
posts. -/
theorem next_of_postProgram {s s' : PostRoom} {t : ThreadId} {stack stack' : List PostActivity}
    {m : PostMove} (hpending : s.bridge.native.ledger.pending = [])
    (h : postProgram s t stack m = some (s', stack')) :
    (∃ e : PostErrand, s' = s ∧ stack' = e.activity :: stack) ∨
      (∃ a rest a', stack = a :: rest ∧ stack' = a'.toList ++ rest ∧ a.Next s s' a') ∨
      ∃ f, s' = s.amend f ∧ stack' = stack := by
  unfold postProgram at h
  split at h
  · next e =>
    split at h
    · cases h
      exact .inl ⟨e, rfl, rfl⟩
    · cases h
  · next a rest =>
    split at h
    · next a' b hadvance =>
      cases h
      exact .inr (.inl ⟨a, rest, a', rfl, rfl, PostActivity.next_of_advance_ok hpending hadvance⟩)
    · next cause b hadvance =>
      cases h
      exact .inr (.inl ⟨a, rest, _, rfl, rfl,
        PostActivity.next_of_advance_panic hpending hadvance⟩)
    · cases h
  · next _ f =>
    cases h
    exact .inr (.inr ⟨f, rfl, rfl⟩)
  · cases h

end BrokerBridge
