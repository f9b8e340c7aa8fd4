import BrokerBridge.Proofs.Session.Computations

/-!
# Pairs put together from parts

Computations are compared in pairs: with two clients, or with two kinds of host code. A pairing that
sequencing and the ways in and out of host execution keep is carried from calls into host code to
deliveries, and from the calls of clients to the operations of sessions.
-/

namespace BrokerBridge

variable {ν α β ε : Type}

def Delivery.isEvent : Delivery → Bool
  | .notification (.event _) => true
  | _ => false

namespace Act

/-- What is put together in the same way from pairs of computations is a pair as well. -/
structure Paired (P : {α : Type} → Act ν α → Act ν α → Prop) : Prop where
  done : ∀ {α : Type} (x : α), P (pure x : Act ν α) (pure x)
  andThen : ∀ {α β : Type} {m n : Act ν α} {k l : α → Act ν β}, P m n →
    (∀ x, P (k x) (l x)) → P (m >>= k) (n >>= l)
  reads : P (get : Act ν (Bridge ν)) get

/-- Pairs that failures, the ways in and out of host execution, and the counters do not break up.
A property of single computations is a pairing that does not look at the second one. -/
structure Closed (P : {α : Type} → Act ν α → Act ν α → Prop) : Prop extends Paired P where
  fails : ∀ {α : Type} (i : Interrupt), P (throw i : Act ν α) (throw i)
  inside : ∀ {α : Type} {m m' : Act ν α}, P m m' → P (inHost m) (inHost m')
  outside : ∀ {α : Type} {m m' : Act ν α}, P m m' → P (outsideHost m) (outsideHost m')
  counts : ∀ f : Counters → Counters, P (observe f : Act ν Unit) (observe f)

variable {P : {α : Type} → Act ν α → Act ν α → Prop} (hP : Closed P)

include hP

theorem closed_native : P (native : Act ν ν) native :=
  hP.andThen hP.reads fun _ => hP.done _

theorem closed_mapM {f g : α → Act ν β} {l : List α} (h : ∀ x ∈ l, P (f x) (g x)) :
    P (l.mapM f) (l.mapM g) := by
  induction l with
  | nil => exact hP.done _
  | cons x l ih =>
    rw [List.mapM_cons, List.mapM_cons]
    apply hP.andThen (h x (List.mem_cons_self ..))
    intro y
    apply hP.andThen (ih fun y hy => h y (List.mem_cons_of_mem _ hy))
    exact fun _ => hP.done _

theorem closed_forM {f g : α → Act ν Unit} {l : List α} (h : ∀ x ∈ l, P (f x) (g x)) :
    P (l.forM f) (l.forM g) := by
  induction l with
  | nil => exact hP.done _
  | cons x l ih =>
    apply hP.andThen (h x (List.mem_cons_self ..))
    intro _
    exact ih fun y hy => h y (List.mem_cons_of_mem _ hy)

/-! ## Deliveries -/

section

variable {host host' : HostCode ν}

/-- A batch of messages is never told as an event of the session. -/
theorem closed_tellMessage (hcall : ∀ d : Delivery, d.isEvent = false →
    P (callHost host d) (callHost host' d)) (e : MessageEvent) :
    P (e.tell host) (e.tell host') := by
  apply hP.inside
  split
  · unfold MessageEvent.tellPushed
    simp only
    split
    · apply hP.andThen (hP.counts _)
      intro _
      apply hP.andThen (hcall _ rfl)
      intro _
      apply hP.andThen (hP.counts _)
      exact fun _ => hcall _ rfl
    · apply hP.andThen (hP.counts _)
      exact fun _ => hcall _ rfl
  · apply hP.andThen (hP.counts _)
    intro _
    split
    · apply hP.andThen (hP.counts _)
      exact fun _ => hcall _ rfl
    · exact hP.done _
  · exact hcall _ rfl

theorem closed_tell (hcall : ∀ d, P (callHost host d) (callHost host' d)) (e : NativeEvent) :
    P (e.tell host) (e.tell host') := by
  cases e with
  | session e => exact hP.inside (hcall _)
  | message e => exact closed_tellMessage hP (fun d _ => hcall d) e

end

end Act

/-! ## Clients -/

namespace NativeClient

structure PlainCalls (P : {α : Type} → Act ν α → Act ν α → Prop) (c c' : NativeClient ν) :
    Prop where
  openQueue : ∀ uri flags options timeout,
    P (c.openQueue uri flags options timeout) (c'.openQueue uri flags options timeout)
  closeQueue : ∀ q timeout, P (c.closeQueue q timeout) (c'.closeQueue q timeout)
  queue? : ∀ uri, P (c.queue? uri) (c'.queue? uri)
  post : ∀ e, P (c.post e) (c'.post e)
  confirm : ∀ q guid, P (c.confirm q guid) (c'.confirm q guid)
  builder : c'.builder = c.builder
  queues : c'.queues = c.queues

structure QueueCalls (P : {α : Type} → Act ν α → Act ν α → Prop) (c c' : NativeClient ν) :
    Prop extends PlainCalls P c c' where
  configureQueue : ∀ q options timeout,
    P (c.configureQueue q options timeout) (c'.configureQueue q options timeout)

structure Calls (P : {α : Type} → Act ν α → Act ν α → Prop) (c c' : NativeClient ν) : Prop
    extends QueueCalls P c c' where
  start : ∀ timeout, P (c.start timeout) (c'.start timeout)
  stop : P c.stop c'.stop

theorem Calls.refl {P : {α : Type} → Act ν α → Act ν α → Prop}
    (h : ∀ {α : Type} (a : Act ν α), P a a) (c : NativeClient ν) : c.Calls P c where
  openQueue _ _ _ _ := h _
  configureQueue _ _ _ := h _
  closeQueue _ _ := h _
  queue? _ := h _
  post _ := h _
  confirm _ _ := h _
  builder := rfl
  queues := rfl
  start _ := h _
  stop := h _

theorem Calls.trans {P Q R : {α : Type} → Act ν α → Act ν α → Prop} {c₁ c₂ c₃ : NativeClient ν}
    (h : ∀ {α : Type} {a₁ a₂ a₃ : Act ν α}, P a₁ a₂ → Q a₂ a₃ → R a₁ a₃) (h₁ : c₁.Calls P c₂)
    (h₂ : c₂.Calls Q c₃) : c₁.Calls R c₃ where
  openQueue _ _ _ _ := h (h₁.openQueue ..) (h₂.openQueue ..)
  configureQueue _ _ _ := h (h₁.configureQueue ..) (h₂.configureQueue ..)
  closeQueue _ _ := h (h₁.closeQueue ..) (h₂.closeQueue ..)
  queue? _ := h (h₁.queue? _) (h₂.queue? _)
  post _ := h (h₁.post _) (h₂.post _)
  confirm _ _ := h (h₁.confirm ..) (h₂.confirm ..)
  builder := h₂.builder.trans h₁.builder
  queues := h₂.queues.trans h₁.queues
  start _ := h (h₁.start _) (h₂.start _)
  stop := h h₁.stop h₂.stop

end NativeClient

/-! ## Sessions -/

structure Act.Operates (P Q : {α : Type} → Act ν α → Act ν α → Prop) : Prop where
  body : Paired P
  whole : Paired Q
  outside : ∀ {α : Type} {m m' : Act ν α}, P m m' → Q (outsideHost m) (outsideHost m')

theorem Act.Closed.operates {P : {α : Type} → Act ν α → Act ν α → Prop} (hP : Closed P) :
    Operates P P where
  body := hP.toPaired
  whole := hP.toPaired
  outside := hP.outside

namespace Session

open Act

inductive QueueOperation (s : Session ν) : {α : Type} → Act ν α → Prop where
  | openQueue (uri : String) (read write : Bool) (options : QueueOptions)
      (timeout : Option Duration) :
      QueueOperation s (s.openQueue uri read write options timeout).run
  | configureQueue (uri : String) (options : QueueOptions) (timeout : Option Duration) :
      QueueOperation s (s.configureQueue uri options timeout).run
  | closeQueue (uri : String) (timeout : Option Duration) :
      QueueOperation s (s.closeQueue uri timeout).run
  | queueOptions (uri : String) : QueueOperation s (s.queueOptions uri).run
  | post (uri : String) (payload : ByteArray) (properties : Option PropertySet)
      (onAck : Option Correlation) :
      QueueOperation s (s.post uri payload properties onAck).run
  | confirm (uri : String) (guid : ByteArray) : QueueOperation s (s.confirm uri guid).run

def withClient (s : Session ν) (c : NativeClient ν) : Session ν := { s with client := c }

/-- What the queue operations of a session are made of are pairs, with its own client and with
another; configuring apart. -/
structure PassesPlain (P Q : {α : Type} → Act ν α → Act ν α → Prop) (s : Session ν)
    (c : NativeClient ν) : Prop extends NativeClient.PlainCalls P s.client c where
  whileStarted : ∀ {ε α : Type} (stopped : ε) {body body' : Op ν ε α}, P body.run body'.run →
    Q (s.whileStarted stopped body).run ((s.withClient c).whileStarted stopped body').run

structure Passes (P Q : {α : Type} → Act ν α → Act ν α → Prop) (s : Session ν)
    (c : NativeClient ν) : Prop extends NativeClient.QueueCalls P s.client c, PassesPlain P Q s c

section

variable {P : {α : Type} → Act ν α → Act ν α → Prop} (hP : Paired P)

include hP

theorem paired_isStarted : P (isStarted : Act ν Bool) isStarted :=
  hP.andThen hP.reads fun _ => hP.done _

private theorem paired_op {a a' : Act ν α} (h : P a a') : P (op a : Op ν ε α).run (op a').run :=
  hP.andThen h fun _ => hP.done _

private theorem paired_opBind {x x' : Op ν ε α} {f f' : α → Op ν ε β} (hx : P x.run x'.run)
    (hf : ∀ a, P (f a).run (f' a).run) : P (x >>= f).run (x' >>= f').run := by
  apply hP.andThen hx
  intro r
  cases r with
  | ok a => exact hf a
  | error e => exact hP.done _

variable {s : Session ν} {c : NativeClient ν}

theorem paired_requireMonitoring (o : QueueOptions) :
    P (s.requireMonitoring o).run ((s.withClient c).requireMonitoring o).run := by
  show P (s.requireMonitoring o).run (s.requireMonitoring o).run
  unfold requireMonitoring
  split <;> exact hP.done _

theorem paired_expectSuccess (action : QueueAction) (uri : String) (status : QueueStatus) :
    P (expectSuccess action uri status : Op ν SessionError Unit).run
      (expectSuccess action uri status).run := by
  unfold expectSuccess
  split <;> exact hP.done _

theorem paired_queueTable (hqueues : c.queues = s.client.queues) :
    P (s.queueTable : Op ν ε QueueTable).run (s.withClient c).queueTable.run := by
  have hclient : (s.withClient c).client.queues = s.client.queues := hqueues
  unfold queueTable
  rw [hclient]
  apply paired_op hP
  apply hP.andThen
  · exact hP.andThen hP.reads fun _ => hP.done _
  · exact fun _ => hP.done _

theorem paired_openHandle {uri : String} (hqueue : P (s.client.queue? uri) (c.queue? uri))
    (missing : ε) :
    P (s.openHandle uri missing).run ((s.withClient c).openHandle uri missing).run := by
  apply paired_opBind hP (paired_op hP hqueue)
  intro q
  cases q <;> exact hP.done _

variable {Q : {α : Type} → Act ν α → Act ν α → Prop} (hs : s.PassesPlain P Q c)

include hs

private theorem paired_postEncoded (uri : String) (payload : ByteArray)
    (wire : Option WireProperties)
    (onAck : Option Correlation) : P (s.postEncoded uri payload wire onAck).run
      ((s.withClient c).postEncoded uri payload wire onAck).run := by
  apply paired_opBind hP (paired_openHandle hP (hs.queue? uri) _)
  intro q
  apply paired_opBind hP (paired_queueTable hP hs.queues)
  intro table
  have hcompression : (s.withClient c).compression = s.compression := rfl
  have hbuilder : (s.withClient c).client.builder = s.client.builder := hs.builder
  rw [hcompression, hbuilder]
  cases s.client.builder.pack table .zero q ⟨payload, wire, onAck, s.compression⟩ with
  | error refused => exact hP.done _
  | ok builder =>
    apply paired_opBind hP (paired_op hP (hs.post _))
    intro r
    cases r <;> exact hP.done _

end

section

variable {P Q : {α : Type} → Act ν α → Act ν α → Prop} (hPQ : Operates P Q) {s : Session ν}
  {c : NativeClient ν}

include hPQ

section

variable (hs : s.PassesPlain P Q c)

include hs

theorem paired_confirm (uri : String) (guid : ByteArray) :
    Q (s.confirm uri guid).run ((s.withClient c).confirm uri guid).run := by
  apply hs.whileStarted
  apply paired_opBind hPQ.body (paired_openHandle hPQ.body (hs.queue? uri) _)
  intro q
  apply paired_opBind hPQ.body (paired_queueTable hPQ.body hs.queues)
  intro table
  simp only
  split
  · exact hPQ.body.done _
  · cases Guid.ofBytes? guid with
    | none => exact hPQ.body.done _
    | some guid =>
      apply paired_opBind hPQ.body (paired_op hPQ.body (hs.confirm ..))
      intro code
      split <;> exact hPQ.body.done _

theorem paired_openQueue (uri : String) (read write : Bool) (options : QueueOptions)
    (timeout : Option Duration) : Q (s.openQueue uri read write options timeout).run
      ((s.withClient c).openQueue uri read write options timeout).run := by
  apply paired_opBind hPQ.whole (paired_requireMonitoring hPQ.whole options)
  intro _
  apply hs.whileStarted
  apply paired_opBind hPQ.body (paired_op hPQ.body (hs.openQueue ..))
  exact fun status => paired_expectSuccess hPQ.body ..

theorem paired_configureQueue
    (hconfigure : ∀ q options timeout, P (s.client.configureQueue q options timeout)
      (c.configureQueue q options timeout))
    (uri : String) (options : QueueOptions) (timeout : Option Duration) :
    Q (s.configureQueue uri options timeout).run
      ((s.withClient c).configureQueue uri options timeout).run := by
  apply paired_opBind hPQ.whole (paired_requireMonitoring hPQ.whole options)
  intro _
  apply hs.whileStarted
  apply paired_opBind hPQ.body (paired_openHandle hPQ.body (hs.queue? uri) _)
  intro q
  apply paired_opBind hPQ.body (paired_op hPQ.body (hconfigure ..))
  exact fun status => paired_expectSuccess hPQ.body ..

theorem paired_closeQueue (uri : String) (timeout : Option Duration) :
    Q (s.closeQueue uri timeout).run ((s.withClient c).closeQueue uri timeout).run := by
  apply hs.whileStarted
  apply paired_opBind hPQ.body (paired_openHandle hPQ.body (hs.queue? uri) _)
  intro q
  apply paired_opBind hPQ.body (paired_op hPQ.body (hs.closeQueue ..))
  exact fun status => paired_expectSuccess hPQ.body ..

theorem paired_queueOptions (uri : String) :
    Q (s.queueOptions uri).run ((s.withClient c).queueOptions uri).run := by
  apply hs.whileStarted
  apply paired_opBind hPQ.body (paired_openHandle hPQ.body (hs.queue? uri) _)
  intro q
  exact paired_opBind hPQ.body (paired_queueTable hPQ.body hs.queues) fun _ => hPQ.body.done _

theorem paired_post (uri : String) (payload : ByteArray) (properties : Option PropertySet)
    (onAck : Option Correlation) : Q (s.post uri payload properties onAck).run
      ((s.withClient c).post uri payload properties onAck).run := by
  unfold post
  cases encodeProperties properties with
  | error e => exact hPQ.whole.done _
  | ok wire => exact hs.whileStarted _ (paired_postEncoded hPQ.body hs ..)

end

theorem paired_start (hstart : ∀ timeout, P (s.client.start timeout) (c.start timeout))
    (hchange : P (changeStarted true) (changeStarted true)) (timeout : Option Duration) :
    Q (s.start timeout).run ((s.withClient c).start timeout).run := by
  apply paired_opBind hPQ.whole
  · apply paired_op hPQ.whole
    apply hPQ.outside
    apply hPQ.body.andThen (hstart _)
    intro code
    simp only
    split
    · exact hPQ.body.andThen hchange fun _ => hPQ.body.done _
    · exact hPQ.body.done _
  · intro code
    split <;> exact hPQ.whole.done _

theorem paired_stop (hstop : P s.client.stop c.stop)
    (hchange : P (changeStarted false) (changeStarted false))
    (hwarn : ∀ text, Q (Act.warn text) (Act.warn text)) (warn : Bool) :
    Q (s.stop warn).run ((s.withClient c).stop warn).run := by
  apply paired_opBind hPQ.whole
  · apply paired_op hPQ.whole
    apply hPQ.outside
    apply hPQ.body.andThen hchange
    intro wasStarted
    simp only
    split
    · exact hPQ.body.andThen hstop fun _ => hPQ.body.done _
    · exact hPQ.body.done _
  · intro wasStarted
    split
    · exact hwarn _
    · exact hPQ.whole.done _

theorem paired_drop (hstop : Q (s.stop true).run ((s.withClient c).stop true).run)
    (hreport : ∀ context error, Q (reportUnhandled context error) (reportUnhandled context error)) :
    Q s.drop (s.withClient c).drop := by
  apply hPQ.whole.andThen hstop
  intro r
  cases r with
  | ok _ => exact hPQ.whole.done _
  | error e => exact hreport _ _

end

/-- A property of the parts of queue operations is one of them. -/
theorem closed_queueOperation {P : {α : Type} → Act ν α → Prop} (hP : Closed fun a _ => P a)
    {s : Session ν} (hs : s.Passes (fun a _ => P a) (fun a _ => P a) s.client) {a : Act ν α}
    (h : s.QueueOperation a) : P a := by
  have hplain := hs.toPassesPlain
  cases h with
  | openQueue => exact paired_openQueue hP.operates hplain ..
  | configureQueue => exact paired_configureQueue hP.operates hplain hs.configureQueue ..
  | closeQueue => exact paired_closeQueue hP.operates hplain ..
  | queueOptions => exact paired_queueOptions hP.operates hplain ..
  | post => exact paired_post hP.operates hplain ..
  | confirm => exact paired_confirm hP.operates hplain ..

end Session

end BrokerBridge
