import Mathlib.Data.List.Basic
import BrokerBridge.Host.ClientLog

/-!
# Where the client's records go

Threads register sinks, give them up and publish records, in any order and also from inside a sink.
What is noted of this says which sink is registered at any time. The records that reached a sink are
those published while one was registered that takes their severity, once each and in their order,
and host execution is left as it was found.
-/

namespace BrokerBridge

namespace ClientLog

def levels : List (Int × Nat) := [(fatal, 50), (error, 40), (warn, 30), (info, 20), (debug, 10)]

/-- The host's level of a severity: that of the first name which is not more severe, and the level
of the last name past them all. -/
def levelOf (severity : Int) : Nat :=
  ((levels.find? fun l => severity ≤ l.1).map Prod.snd).getD 10

private theorem hostLevel_eq_levelOf (severity : Int) : hostLevel severity = levelOf severity := by
  have hnext (l : Int × Nat) (rest : List (Int × Nat)) :
      (l :: rest).find? (severity ≤ ·.1) =
        if severity ≤ l.1 then some l else rest.find? (severity ≤ ·.1) := by
    by_cases hsevere : severity ≤ l.1 <;> simp [hsevere]
  simp only [hostLevel, levelOf, levels, hnext, List.find?_nil, fatal, error, warn, info, debug]
  grind

def hostRecord (r : ClientLogRecord) : HostLogRecord :=
  ⟨"blazingmq." ++ r.category, levelOf r.severity, r.file, r.line, r.message⟩

private theorem translate_eq_hostRecord (r : ClientLogRecord) : translate r = hostRecord r := by
  rw [translate, hostLevel_eq_levelOf]
  rfl

end ClientLog

private theorem HostLock.owner_enter? {l l' : HostLock} {t : ThreadId} {n : Nat}
    (h : l.enter? t n = some l') : l'.owner = some t := by
  unfold enter? at h
  split at h
  · cases h
    rfl
  · split at h <;> cases h
    rfl

namespace LogBridge

variable {b : LogBridge} {r : ClientLogRecord} {sink : LogSink}

theorem receiver?_eq_some_iff :
    b.receiver? r = some sink ↔ b.sink = some sink ∧ r.severity ≤ sink.threshold := by
  unfold receiver?
  cases b.sink with
  | none => simp
  | some registered =>
    simp only [Option.some.injEq]
    split
    · next hverbose =>
      refine ⟨nofun, ?_⟩
      rintro ⟨rfl, hsevere⟩
      omega
    · next hsevere =>
      rw [Option.some.injEq]
      exact ⟨fun h => ⟨h, h ▸ Int.not_lt.mp hsevere⟩, And.left⟩

@[simp] theorem sink_withLock (k : RuntimeId) (l : HostLock) : (b.withLock k l).sink = b.sink := rfl

@[simp] theorem registered_withLock (k : RuntimeId) (l : HostLock) :
    (b.withLock k l).registered = b.registered := rfl

@[simp] theorem forwarded_withLock (k : RuntimeId) (l : HostLock) :
    (b.withLock k l).forwarded = b.forwarded := rfl

@[simp] theorem locks_withLock (k j : RuntimeId) (l : HostLock) :
    (b.withLock k l).locks j = if j = k then l else b.locks j := rfl

end LogBridge

/-! ## Histories -/

/-- What happens in a process, one thing after another. A sink that a record reaches does something
while it has it and then ends; a sink that a record does not reach does nothing. -/
inductive LogHistory
  | done
  | install (k : RuntimeId) (diagnostics : Bool) (outcome : HostOutcome) (rest : LogHistory)
  | uninstall (rest : LogHistory)
  | publish (t : ThreadId) (r : ClientLogRecord) (during : LogHistory) (outcome : HostOutcome)
      (rest : LogHistory)
  /-- A thread enters host execution once more and leaves it again. -/
  | hosting (t : ThreadId) (k : RuntimeId) (inside rest : LogHistory)
  /-- A thread steps out of host execution and back in. -/
  | outside (t : ThreadId) (k : RuntimeId) (meanwhile rest : LogHistory)

inductive LogNote
  /-- A sink was offered, and registered or not. -/
  | offered (k : RuntimeId) (diagnostics : Bool) (outcome : HostOutcome) (accepted : Bool)
  | dropped
  | published (t : ThreadId) (r : ClientLogRecord)

namespace LogHistory

/-- What a history makes of the log, and what is noted of it; none where a thread would wait for
another one to leave host execution. -/
def play? : LogHistory → LogBridge → Option (LogBridge × List LogNote)
  | done, b => some (b, [])
  | install k diagnostics outcome rest, b => do
      let offer := b.installIn k diagnostics outcome
      let (b, notes) ← rest.play? (offer.getD b)
      return (b, .offered k diagnostics outcome offer.isSome :: notes)
  | uninstall rest, b => do
      let (b, notes) ← rest.play? b.uninstall
      return (b, .dropped :: notes)
  | publish t r during outcome rest, b =>
      match b.receiver? r with
      | none => do
          let (b, notes) ← rest.play? b
          return (b, .published t r :: notes)
      | some sink => do
          let record := ClientLog.translate r
          let (ended, inner) ← during.play? (← b.handOver? t sink record)
          let (b, notes) ← rest.play? (ended.handBack sink record outcome)
          return (b, .published t r :: (inner ++ notes))
  | hosting t k inside rest, b => do
      let (within, inner) ← inside.play? (b.withLock k (← (b.locks k).enter? t 1))
      let (b, notes) ← rest.play? (within.withLock k (within.locks k).leave)
      return (b, inner ++ notes)
  | outside t k meanwhile rest, b => do
      let (saved, free) := (b.locks k).leaveAll t
      let (apart, inner) ← meanwhile.play? (b.withLock k free)
      let (b, notes) ← rest.play? (apart.withLock k (← (apart.locks k).restore? t saved))
      return (b, inner ++ notes)

/-- A record that is published alone, to a sink that only ends. -/
theorem play?_publish {b : LogBridge} {sink : LogSink} (hsink : b.sink = some sink) (t : ThreadId)
    (r : ClientLogRecord) :
    ((publish t r done sink.outcome done).play? b).map Prod.fst = b.publish t r := by
  cases hr : b.receiver? r with
  | none => simp [play?, LogBridge.publish, hr]
  | some receiver =>
    obtain rfl : sink = receiver :=
      Option.some.inj (hsink.symm.trans (LogBridge.receiver?_eq_some_iff.mp hr).1)
    cases hover : b.handOver? t sink (ClientLog.translate r) <;>
      simp [play?, LogBridge.publish, hr, hover]

inductive Plays : LogHistory → LogBridge → LogBridge → List LogNote → Prop
  | done (b : LogBridge) : Plays .done b b []
  | install {k d o rest b b' notes} (hrest : Plays rest ((b.installIn k d o).getD b) b' notes) :
      Plays (.install k d o rest) b b' (.offered k d o (b.installIn k d o).isSome :: notes)
  | uninstall {rest b b' notes} (hrest : Plays rest b.uninstall b' notes) :
      Plays (.uninstall rest) b b' (.dropped :: notes)
  | discard {t r during o rest b b' notes} (hr : b.receiver? r = none)
      (hrest : Plays rest b b' notes) :
      Plays (.publish t r during o rest) b b' (.published t r :: notes)
  | forward {t r during o rest b inside ended b' inner notes sink} (hr : b.receiver? r = some sink)
      (hover : b.handOver? t sink (ClientLog.translate r) = some inside)
      (hduring : Plays during inside ended inner)
      (hrest : Plays rest (ended.handBack sink (ClientLog.translate r) o) b' notes) :
      Plays (.publish t r during o rest) b b' (.published t r :: (inner ++ notes))
  | hosting {t k inside rest b l within b' inner notes} (henter : (b.locks k).enter? t 1 = some l)
      (hinside : Plays inside (b.withLock k l) within inner)
      (hrest : Plays rest (within.withLock k (within.locks k).leave) b' notes) :
      Plays (.hosting t k inside rest) b b' (inner ++ notes)
  | outside {t k meanwhile rest b apart l b' inner notes}
      (hmeanwhile : Plays meanwhile (b.withLock k ((b.locks k).leaveAll t).2) apart inner)
      (hback : (apart.locks k).restore? t ((b.locks k).leaveAll t).1 = some l)
      (hrest : Plays rest (apart.withLock k l) b' notes) :
      Plays (.outside t k meanwhile rest) b b' (inner ++ notes)

theorem play?_eq_some_iff {h : LogHistory} {b b' : LogBridge} {notes : List LogNote} :
    h.play? b = some (b', notes) ↔ h.Plays b b' notes := by
  constructor
  · intro hplay
    induction h generalizing b b' notes with
    | done =>
      cases hplay
      exact .done b
    | install k d o rest ih =>
      simp only [play?, Option.bind_eq_bind, Option.bind_eq_some_iff, Option.pure_def,
        Option.some.injEq, Prod.mk.injEq, Prod.exists] at hplay
      obtain ⟨_, _, hrest, rfl, rfl⟩ := hplay
      exact .install (ih hrest)
    | uninstall rest ih =>
      simp only [play?, Option.bind_eq_bind, Option.bind_eq_some_iff, Option.pure_def,
        Option.some.injEq, Prod.mk.injEq, Prod.exists] at hplay
      obtain ⟨_, _, hrest, rfl, rfl⟩ := hplay
      exact .uninstall (ih hrest)
    | publish t r during o rest ihduring ihrest =>
      cases hr : b.receiver? r with
      | none =>
        simp only [play?, hr, Option.bind_eq_bind, Option.bind_eq_some_iff, Option.pure_def,
          Option.some.injEq, Prod.mk.injEq, Prod.exists] at hplay
        obtain ⟨_, _, hrest, rfl, rfl⟩ := hplay
        exact .discard hr (ihrest hrest)
      | some sink =>
        simp only [play?, hr, Option.bind_eq_bind, Option.bind_eq_some_iff, Option.pure_def,
          Option.some.injEq, Prod.mk.injEq, Prod.exists] at hplay
        obtain ⟨inside, hover, ended, inner, hduring, _, _, hrest, rfl, rfl⟩ := hplay
        exact .forward hr hover (ihduring hduring) (ihrest hrest)
    | hosting t k inside rest ihinside ihrest =>
      simp only [play?, Option.bind_eq_bind, Option.bind_eq_some_iff, Option.pure_def,
        Option.some.injEq, Prod.mk.injEq, Prod.exists] at hplay
      obtain ⟨l, henter, within, inner, hinside, _, _, hrest, rfl, rfl⟩ := hplay
      exact .hosting henter (ihinside hinside) (ihrest hrest)
    | outside t k meanwhile rest ihmeanwhile ihrest =>
      simp only [play?, Option.bind_eq_bind, Option.bind_eq_some_iff, Option.pure_def,
        Option.some.injEq, Prod.mk.injEq, Prod.exists] at hplay
      obtain ⟨apart, inner, hmeanwhile, l, hback, _, _, hrest, rfl, rfl⟩ := hplay
      exact .outside (ihmeanwhile hmeanwhile) hback (ihrest hrest)
  · intro hplays
    induction hplays <;> simp_all [play?]

end LogHistory

/-! ## Notes -/

namespace LogNote

def accepts : LogNote → Bool
  | offered _ _ _ accepted => accepted
  | dropped | published .. => false

def settles : LogNote → Bool
  | offered _ _ _ accepted => accepted
  | dropped => true
  | published .. => false

def registered (past : List LogNote) : Nat := past.countP (·.accepts)

/-- The sink that is registered: that of the last registration, unless it was given up since. -/
def sink? (past : List LogNote) : Option LogSink :=
  match (past.filter (·.settles)).getLast? with
  | some (offered k diagnostics outcome _) =>
      some ⟨registered past - 1, k, outcome, if diagnostics then 160 else 128⟩
  | _ => none

/-- What reaches a sink by what is noted: a record that the registered sink still takes, on the
thread that published it and inside host execution. -/
def reaching (past : List LogNote) : LogNote → Option ForwardedRecord
  | published t r =>
      match sink? past with
      | some sink =>
          if r.severity ≤ sink.threshold then
            some ⟨sink.number, t, ClientLog.hostRecord r, true⟩
          else none
      | none => none
  | _ => none

/-- What has reached the sinks: each note counts once, judged by the notes before it. -/
def reached (past : List LogNote) : List ForwardedRecord :=
  (List.range past.length).filterMap fun i => past[i]?.bind (reaching (past.take i))

variable (past : List LogNote)

private theorem registered_concat_accepted (k : RuntimeId) (diagnostics : Bool)
    (outcome : HostOutcome) :
    registered (past ++ [offered k diagnostics outcome true]) = registered past + 1 := by
  rw [registered, List.countP_append]
  rfl

private theorem registered_concat_of_not_accepts {n : LogNote} (h : n.accepts = false) :
    registered (past ++ [n]) = registered past := by
  rw [registered, List.countP_append, List.countP_singleton, h]
  rfl

private theorem sink?_concat_of_not_settles {n : LogNote} (h : n.settles = false) :
    sink? (past ++ [n]) = sink? past := by
  have haccepts : n.accepts = false := by cases n <;> simp_all [accepts, settles]
  rw [sink?, sink?, registered_concat_of_not_accepts past haccepts, List.filter_append,
    List.filter_singleton, h]
  simp

private theorem sink?_concat_accepted (k : RuntimeId) (diagnostics : Bool) (outcome : HostOutcome) :
    sink? (past ++ [offered k diagnostics outcome true]) =
      some ⟨registered past, k, outcome, ClientLog.threshold diagnostics⟩ := by
  rw [sink?, registered_concat_accepted, List.filter_append, List.filter_singleton]
  simp [settles]
  rfl

private theorem sink?_concat_dropped : sink? (past ++ [dropped]) = none := by
  rw [sink?, List.filter_append, List.filter_singleton]
  simp [settles]

theorem reached_concat (n : LogNote) :
    reached (past ++ [n]) = reached past ++ (reaching past n).toList := by
  have hbefore : (List.range past.length).filterMap
      (fun i => (past ++ [n])[i]?.bind (reaching ((past ++ [n]).take i))) = reached past := by
    refine List.filterMap_congr fun i hi => ?_
    have hlt : i < past.length := List.mem_range.mp hi
    rw [List.getElem?_append_left hlt, List.take_append_of_le_length (Nat.le_of_lt hlt)]
  rw [reached, List.length_append, List.length_singleton, List.range_succ, List.filterMap_append,
    hbefore]
  cases hreaching : reaching past n <;> simp [hreaching]

private theorem reached_concat_of_none {n : LogNote} (h : reaching past n = none) :
    reached (past ++ [n]) = reached past := by
  rw [reached_concat, h]
  exact List.append_nil _

end LogNote

structure LogBridge.Follows (b : LogBridge) (past : List LogNote) : Prop where
  sink : b.sink = LogNote.sink? past
  registered : b.registered = LogNote.registered past
  forwarded : b.forwarded = LogNote.reached past

namespace LogBridge

variable {b inside : LogBridge} {past : List LogNote} {sink : LogSink} {t : ThreadId}
  {r : ClientLogRecord} {k : RuntimeId} {l : HostLock}

theorem follows_empty : ({} : LogBridge).Follows [] := ⟨rfl, rfl, rfl⟩

private theorem Follows.withLock (h : b.Follows past) (k : RuntimeId) (l : HostLock) :
    (b.withLock k l).Follows past :=
  ⟨h.sink, h.registered, h.forwarded⟩

private theorem Follows.handBack (h : b.Follows past) (sink : LogSink) (record : HostLogRecord)
    (outcome : HostOutcome) : (b.handBack sink record outcome).Follows past :=
  ⟨h.sink, h.registered, h.forwarded⟩

theorem isSome_installIn_iff (diagnostics : Bool) (outcome : HostOutcome) :
    (b.installIn k diagnostics outcome).isSome = true ↔ b.sink = none := by
  unfold installIn
  cases b.sink <;> simp

private theorem Follows.install (h : b.Follows past) (k : RuntimeId) (diagnostics : Bool)
    (outcome : HostOutcome) :
    ((b.installIn k diagnostics outcome).getD b).Follows
      (past ++ [.offered k diagnostics outcome (b.installIn k diagnostics outcome).isSome]) := by
  cases hsink : b.sink with
  | none =>
    have haccepted : b.installIn k diagnostics outcome = some { b with
        sink := some ⟨b.registered, k, outcome, ClientLog.threshold diagnostics⟩
        registered := b.registered + 1 } := by
      rw [installIn, hsink]
    rw [haccepted]
    refine ⟨?_, ?_, h.forwarded.trans (LogNote.reached_concat_of_none past rfl).symm⟩
    · rw [h.registered]
      exact (LogNote.sink?_concat_accepted past k diagnostics outcome).symm
    · rw [h.registered]
      exact (LogNote.registered_concat_accepted past k diagnostics outcome).symm
  | some sink =>
    have hrefused : b.installIn k diagnostics outcome = none := by rw [installIn, hsink]
    rw [hrefused]
    refine ⟨?_, ?_, h.forwarded.trans (LogNote.reached_concat_of_none past rfl).symm⟩
    · exact h.sink.trans (LogNote.sink?_concat_of_not_settles past rfl).symm
    · exact h.registered.trans (LogNote.registered_concat_of_not_accepts past rfl).symm

private theorem Follows.uninstall (h : b.Follows past) : b.uninstall.Follows
    (past ++ [.dropped]) where
  sink := (LogNote.sink?_concat_dropped past).symm
  registered := h.registered.trans (LogNote.registered_concat_of_not_accepts past rfl).symm
  forwarded := h.forwarded.trans (LogNote.reached_concat_of_none past rfl).symm

private theorem Follows.reaching_eq (h : b.Follows past) (t : ThreadId) (r : ClientLogRecord) :
    LogNote.reaching past (.published t r) =
      (b.receiver? r).map fun sink => ⟨sink.number, t, ClientLog.hostRecord r, true⟩ := by
  rw [LogNote.reaching, ← h.sink, receiver?]
  cases b.sink with
  | none => rfl
  | some sink =>
    by_cases hsevere : r.severity ≤ sink.threshold
    · simp [hsevere, Int.not_lt.mpr hsevere]
    · simp [hsevere, Int.not_le.mp hsevere]

private theorem Follows.published (h : b.Follows past) (hsink : inside.sink = b.sink)
    (hregistered : inside.registered = b.registered)
    (hforwarded : inside.forwarded = b.forwarded ++
      ((b.receiver? r).map fun sink => ⟨sink.number, t, ClientLog.hostRecord r, true⟩).toList) :
    inside.Follows (past ++ [.published t r]) where
  sink := hsink.trans (h.sink.trans (LogNote.sink?_concat_of_not_settles past rfl).symm)
  registered := hregistered.trans
    (h.registered.trans (LogNote.registered_concat_of_not_accepts past rfl).symm)
  forwarded := by rw [hforwarded, h.forwarded, LogNote.reached_concat, h.reaching_eq]

private theorem Follows.discard (h : b.Follows past) (hr : b.receiver? r = none) (t : ThreadId) :
    b.Follows (past ++ [.published t r]) :=
  h.published rfl rfl (by rw [hr]; exact (List.append_nil _).symm)

def handed (b : LogBridge) (t : ThreadId) (sink : LogSink) (record : HostLogRecord) (l : HostLock) :
    LogBridge :=
  { b.withLock sink.runtime l with
    forwarded := b.forwarded ++ [⟨sink.number, t, record, true⟩] }

theorem handOver?_eq_some_iff {record : HostLogRecord} :
    b.handOver? t sink record = some inside ↔
      ∃ l, (b.locks sink.runtime).enter? t 1 = some l ∧ inside = b.handed t sink record l := by
  have hheld {l : HostLock} (henter : (b.locks sink.runtime).enter? t 1 = some l) :
      l.isHeldBy t = true := by
    rw [HostLock.isHeldBy, HostLock.owner_enter? henter, beq_self_eq_true]
  simp only [handOver?, Option.bind_eq_bind, Option.bind_eq_some_iff, Option.pure_def,
    Option.some.injEq]
  constructor
  · rintro ⟨l, henter, rfl⟩
    exact ⟨l, henter, by rw [hheld henter, handed]⟩
  · rintro ⟨l, henter, rfl⟩
    exact ⟨l, henter, by rw [hheld henter, handed]⟩

/-- A record that the registered sink takes reaches it, inside host execution. -/
theorem Follows.handOver (h : b.Follows past) (hr : b.receiver? r = some sink)
    (hover : b.handOver? t sink (ClientLog.translate r) = some inside) :
    inside.Follows (past ++ [.published t r]) := by
  obtain ⟨l, -, rfl⟩ := handOver?_eq_some_iff.mp hover
  refine h.published rfl rfl ?_
  rw [hr, ClientLog.translate_eq_hostRecord]
  rfl

end LogBridge

/-! ## Host execution -/

namespace LogBridge

variable {b within : LogBridge} {t : ThreadId} {k : RuntimeId} {l : HostLock}

private theorem locks_installIn (k : RuntimeId) (diagnostics : Bool) (outcome : HostOutcome) :
    ((b.installIn k diagnostics outcome).getD b).locks = b.locks := by
  unfold installIn
  cases b.sink <;> rfl

private theorem wellFormed_of_locks {b' : LogBridge} (hlocks : ∀ j, (b.locks j).WellFormed)
    (hsame : b'.locks = b.locks) (j : RuntimeId) : (b'.locks j).WellFormed := by
  rw [hsame]
  exact hlocks j

private theorem wellFormed_withLock (hlocks : ∀ j, (b.locks j).WellFormed) (hl : l.WellFormed)
    (j : RuntimeId) : ((b.withLock k l).locks j).WellFormed := by
  rw [locks_withLock]
  split
  · exact hl
  · exact hlocks j

private theorem locks_putBack (hwithin : within.locks = (b.withLock k l).locks) :
    (within.withLock k (b.locks k)).locks = b.locks := by
  funext j
  rw [locks_withLock, hwithin, locks_withLock]
  by_cases hj : j = k <;> simp [hj]

private theorem locks_leave (hlock : (b.locks k).WellFormed)
    (henter : (b.locks k).enter? t 1 = some l)
    (hwithin : within.locks = (b.withLock k l).locks) :
    (within.withLock k (within.locks k).leave).locks = b.locks := by
  have hleave : (within.locks k).leave = b.locks k := by
    rw [hwithin, locks_withLock, if_pos rfl]
    exact HostLock.leave_enter? hlock henter
  rw [hleave]
  exact locks_putBack hwithin

end LogBridge

namespace LogHistory

variable {h : LogHistory} {b b' : LogBridge} {notes : List LogNote}

private theorem Plays.locks_eq (hplays : h.Plays b b' notes)
    (hlocks : ∀ k, (b.locks k).WellFormed) :
    b'.locks = b.locks := by
  induction hplays with
  | done => rfl
  | @install k d o rest b _ _ hrest ih =>
    have hsame := b.locks_installIn k d o
    exact (ih (LogBridge.wellFormed_of_locks hlocks hsame)).trans hsame
  | uninstall hrest ih => exact ih hlocks
  | discard hr hrest ih => exact ih hlocks
  | @forward _ _ _ _ _ b _ _ _ _ _ sink hr hover hduring hrest ihduring ihrest =>
    obtain ⟨l, henter, rfl⟩ := LogBridge.handOver?_eq_some_iff.mp hover
    have hwithin := ihduring
      (LogBridge.wellFormed_withLock hlocks (HostLock.wellFormed_enter? Nat.one_pos henter))
    have hsame := LogBridge.locks_leave (hlocks sink.runtime) henter hwithin
    exact (ihrest (LogBridge.wellFormed_of_locks hlocks hsame)).trans hsame
  | @hosting _ k _ _ _ _ _ _ _ _ henter hinside hrest ihinside ihrest =>
    have hwithin := ihinside
      (LogBridge.wellFormed_withLock hlocks (HostLock.wellFormed_enter? Nat.one_pos henter))
    have hsame := LogBridge.locks_leave (hlocks k) henter hwithin
    exact (ihrest (LogBridge.wellFormed_of_locks hlocks hsame)).trans hsame
  | @outside t k _ _ b apart l _ _ _ hmeanwhile hback hrest ihmeanwhile ihrest =>
    have hapart := ihmeanwhile
      (LogBridge.wellFormed_withLock hlocks (HostLock.wellFormed_leaveAll (hlocks k)))
    have hl : l = b.locks k := by
      rw [hapart, LogBridge.locks_withLock, if_pos rfl,
        HostLock.restore?_leaveAll (hlocks k)] at hback
      exact (Option.some.inj hback).symm
    have hsame : (apart.withLock k l).locks = b.locks := hl ▸ LogBridge.locks_putBack hapart
    exact (ihrest (LogBridge.wellFormed_of_locks hlocks hsame)).trans hsame

def OnThread (t : ThreadId) : LogHistory → Prop
  | done => True
  | install _ _ _ rest | uninstall rest => rest.OnThread t
  | publish u _ during _ rest => u = t ∧ during.OnThread t ∧ rest.OnThread t
  | hosting u _ inside rest => u = t ∧ inside.OnThread t ∧ rest.OnThread t
  | outside u _ meanwhile rest => u = t ∧ meanwhile.OnThread t ∧ rest.OnThread t

end LogHistory

structure LogBridge.OpenTo (b : LogBridge) (t : ThreadId) : Prop where
  wellFormed : ∀ k, (b.locks k).WellFormed
  owner : ∀ k u, (b.locks k).owner = some u → u = t

namespace LogBridge.OpenTo

variable {b b' : LogBridge} {t : ThreadId} {l : HostLock}

private theorem of_locks (h : b.OpenTo t) (hlocks : b'.locks = b.locks) : b'.OpenTo t where
  wellFormed := wellFormed_of_locks h.wellFormed hlocks
  owner k u hu := h.owner k u (hlocks ▸ hu)

private theorem withLock (h : b.OpenTo t) (k : RuntimeId) (hl : l.WellFormed)
    (howner : ∀ u, l.owner = some u → u = t) : (b.withLock k l).OpenTo t where
  wellFormed := wellFormed_withLock h.wellFormed hl
  owner j u hu := by
    rw [locks_withLock] at hu
    split at hu
    · exact howner u hu
    · exact h.owner j u hu

private theorem exists_enter? (h : b.OpenTo t) (k : RuntimeId) :
    ∃ l, (b.locks k).enter? t 1 = some l ∧ (b.withLock k l).OpenTo t := by
  have hentered : ∃ l, (b.locks k).enter? t 1 = some l := by
    unfold HostLock.enter?
    split
    · exact ⟨_, rfl⟩
    · next u hu => exact ⟨_, if_pos (h.owner k u hu)⟩
  obtain ⟨l, henter⟩ := hentered
  refine ⟨l, henter, h.withLock k (HostLock.wellFormed_enter? Nat.one_pos henter) fun u hu => ?_⟩
  exact Option.some.inj (hu.symm.trans (HostLock.owner_enter? henter))

private theorem leaveAll (h : b.OpenTo t) (k : RuntimeId) :
    (b.withLock k ((b.locks k).leaveAll t).2).OpenTo t := by
  refine h.withLock k (HostLock.wellFormed_leaveAll (h.wellFormed k)) fun u hu => ?_
  unfold HostLock.leaveAll at hu
  split at hu
  · cases hu
  · exact h.owner k u hu

end LogBridge.OpenTo

namespace LogHistory

variable {h : LogHistory} {b : LogBridge} {t : ThreadId}

/-- On a thread that nobody keeps out of host execution, a history comes to its end. -/
theorem exists_plays (hthread : h.OnThread t) (hopen : b.OpenTo t) :
    ∃ b' notes, h.Plays b b' notes := by
  induction h generalizing b with
  | done => exact ⟨_, _, .done b⟩
  | install k d o rest ih =>
    obtain ⟨_, _, hrest⟩ := ih hthread (hopen.of_locks (b.locks_installIn k d o))
    exact ⟨_, _, .install hrest⟩
  | uninstall rest ih =>
    obtain ⟨_, _, hrest⟩ := ih (b := b.uninstall) hthread (hopen.of_locks rfl)
    exact ⟨_, _, .uninstall hrest⟩
  | publish u r during o rest ihduring ihrest =>
    obtain ⟨rfl, hduring, hrest⟩ := hthread
    cases hr : b.receiver? r with
    | none =>
      obtain ⟨_, _, hrest⟩ := ihrest hrest hopen
      exact ⟨_, _, .discard hr hrest⟩
    | some sink =>
      obtain ⟨l, henter, hinside⟩ := hopen.exists_enter? sink.runtime
      have hover : b.handOver? u sink (ClientLog.translate r) =
          some (b.handed u sink (ClientLog.translate r) l) :=
        LogBridge.handOver?_eq_some_iff.mpr ⟨l, henter, rfl⟩
      obtain ⟨ended, _, hduring⟩ :=
        ihduring (b := b.handed u sink (ClientLog.translate r) l) hduring (hinside.of_locks rfl)
      have hwithin := hduring.locks_eq hinside.wellFormed
      have hsame := LogBridge.locks_leave (hopen.wellFormed sink.runtime) henter hwithin
      obtain ⟨_, _, hrest⟩ := ihrest (b := ended.handBack sink (ClientLog.translate r) o) hrest
        (hopen.of_locks hsame)
      exact ⟨_, _, .forward hr hover hduring hrest⟩
  | hosting u k inside rest ihinside ihrest =>
    obtain ⟨rfl, hinside, hrest⟩ := hthread
    obtain ⟨l, henter, hentered⟩ := hopen.exists_enter? k
    obtain ⟨within, _, hinside⟩ := ihinside hinside hentered
    have hwithin := hinside.locks_eq hentered.wellFormed
    have hsame := LogBridge.locks_leave (hopen.wellFormed k) henter hwithin
    obtain ⟨_, _, hrest⟩ := ihrest hrest (hopen.of_locks hsame)
    exact ⟨_, _, .hosting henter hinside hrest⟩
  | outside u k meanwhile rest ihmeanwhile ihrest =>
    obtain ⟨rfl, hmeanwhile, hrest⟩ := hthread
    have hleft := hopen.leaveAll k
    obtain ⟨apart, _, hmeanwhile⟩ := ihmeanwhile hmeanwhile hleft
    have hapart := hmeanwhile.locks_eq hleft.wellFormed
    have hback : (apart.locks k).restore? u ((b.locks k).leaveAll u).1 = some (b.locks k) := by
      rw [hapart, LogBridge.locks_withLock, if_pos rfl,
        HostLock.restore?_leaveAll (hopen.wellFormed k)]
    obtain ⟨_, _, hrest⟩ := ihrest hrest (hopen.of_locks (LogBridge.locks_putBack hapart))
    exact ⟨_, _, .outside hmeanwhile hback hrest⟩

end LogHistory

/-! ## What a history says -/

/-- Each sink that was offered was registered exactly if none was. -/
def LogNote.Judged (past notes : List LogNote) : Prop :=
  ∀ before k d o accepted after, notes = before ++ offered k d o accepted :: after →
    (accepted = true ↔ sink? (past ++ before) = none)

namespace LogHistory

open LogNote

variable {h : LogHistory} {b b' : LogBridge} {past notes : List LogNote}

theorem judged_nil (past : List LogNote) : Judged past [] := by
  intro before k d o accepted after hnotes
  simp at hnotes

theorem judged_cons {n : LogNote}
    (hn : ∀ k d o accepted, n = offered k d o accepted → (accepted = true ↔ sink? past = none))
    (hnotes : Judged (past ++ [n]) notes) : Judged past (n :: notes) := by
  intro before k d o accepted after hsplit
  cases before with
  | nil =>
    obtain ⟨rfl, -⟩ := List.cons.inj hsplit
    rw [List.append_nil]
    exact hn k d o accepted rfl
  | cons first before =>
    obtain ⟨rfl, hrest⟩ := List.cons.inj hsplit
    have hjudged := hnotes before k d o accepted after hrest
    rwa [List.append_assoc] at hjudged

theorem judged_append {more : List LogNote} (hnotes : Judged past notes)
    (hmore : Judged (past ++ notes) more) : Judged past (notes ++ more) := by
  induction notes generalizing past with
  | nil => rwa [List.append_nil] at hmore
  | cons n notes ih =>
    refine judged_cons ?_ (ih ?_ ?_)
    · rintro k d o accepted rfl
      have hjudged := hnotes [] k d o accepted notes rfl
      rwa [List.append_nil] at hjudged
    · intro before k d o accepted after hsplit
      have hjudged := hnotes (n :: before) k d o accepted after (congrArg (n :: ·) hsplit)
      rwa [List.append_assoc]
    · rwa [List.append_assoc]

private theorem Plays.follows (hplays : h.Plays b b' notes) (hpast : b.Follows past) :
    b'.Follows (past ++ notes) ∧ Judged past notes := by
  induction hplays generalizing past with
  | done => exact ⟨(List.append_nil past).symm ▸ hpast, judged_nil past⟩
  | @install k d o rest b _ _ hrest ih =>
    obtain ⟨hfollows, hjudged⟩ := ih (hpast.install k d o)
    rw [List.append_assoc] at hfollows
    refine ⟨hfollows, judged_cons ?_ hjudged⟩
    rintro _ _ _ _ ⟨⟩
    rw [LogBridge.isSome_installIn_iff, hpast.sink]
  | uninstall hrest ih =>
    obtain ⟨hfollows, hjudged⟩ := ih hpast.uninstall
    rw [List.append_assoc] at hfollows
    exact ⟨hfollows, judged_cons nofun hjudged⟩
  | discard hr hrest ih =>
    obtain ⟨hfollows, hjudged⟩ := ih (hpast.discard hr _)
    rw [List.append_assoc] at hfollows
    exact ⟨hfollows, judged_cons nofun hjudged⟩
  | forward hr hover hduring hrest ihduring ihrest =>
    obtain ⟨hended, hinner⟩ := ihduring (hpast.handOver hr hover)
    obtain ⟨hfollows, hjudged⟩ := ihrest (hended.handBack _ _ _)
    rw [List.append_assoc, List.append_assoc] at hfollows
    exact ⟨hfollows, judged_cons nofun (judged_append hinner hjudged)⟩
  | hosting henter hinside hrest ihinside ihrest =>
    obtain ⟨hwithin, hinner⟩ := ihinside (hpast.withLock _ _)
    obtain ⟨hfollows, hjudged⟩ := ihrest (hwithin.withLock _ _)
    rw [List.append_assoc] at hfollows
    exact ⟨hfollows, judged_append hinner hjudged⟩
  | outside hmeanwhile hback hrest ihmeanwhile ihrest =>
    obtain ⟨hapart, hinner⟩ := ihmeanwhile (hpast.withLock _ _)
    obtain ⟨hfollows, hjudged⟩ := ihrest (hapart.withLock _ _)
    rw [List.append_assoc] at hfollows
    exact ⟨hfollows, judged_append hinner hjudged⟩

/-- Whatever threads do with the log, from inside sinks and outside, and however the sinks end: a
sink is registered exactly if none is, an offer that is refused changes nothing, and one that
follows after the registered sink was given up is accepted. The records that have reached the sinks
are those that were published while a sink was registered that takes their severity, once each, in
their order, on the thread that published them and inside host execution; and host execution is left
as it was found. A thread that nobody keeps out of host execution is never held up. -/
theorem records_reach_registered_sink (hlocks : ∀ k, (b.locks k).WellFormed)
    (hpast : b.Follows past) (h : LogHistory) :
    (∀ b' notes, h.play? b = some (b', notes) →
      b'.Follows (past ++ notes) ∧ b'.locks = b.locks ∧
      (∀ before k d o accepted after, notes = before ++ offered k d o accepted :: after →
        (accepted = true ↔ sink? (past ++ before) = none) ∧
        sink? (past ++ before ++ [offered k d o accepted]) =
          if accepted then
            some ⟨registered (past ++ before), k, o, if d then 160 else 128⟩
          else sink? (past ++ before)) ∧
      ∀ before, sink? (past ++ before ++ [dropped]) = none) ∧
    ∀ t, h.OnThread t → (∀ k u, (b.locks k).owner = some u → u = t) →
      ∃ b' notes, h.play? b = some (b', notes) := by
  refine ⟨fun b' notes hplay => ?_, fun t hthread hfree => ?_⟩
  · have hplays := play?_eq_some_iff.mp hplay
    obtain ⟨hfollows, hjudged⟩ := hplays.follows hpast
    refine ⟨hfollows, hplays.locks_eq hlocks, fun before k d o accepted after hsplit => ?_,
      fun before => sink?_concat_dropped _⟩
    refine ⟨hjudged before k d o accepted after hsplit, ?_⟩
    cases accepted with
    | true => exact sink?_concat_accepted _ k d o
    | false => exact sink?_concat_of_not_settles _ rfl
  · obtain ⟨b', notes, hplays⟩ := exists_plays hthread ⟨hlocks, hfree⟩
    exact ⟨b', notes, play?_eq_some_iff.mpr hplays⟩

/-- A sink that offers another one, publishes and panics; it is given up, and the next one takes
what is published inside host execution, but no debug record. -/
def twoSinks : LogHistory :=
  .install 0 true .ok <|
  .publish 0 ⟨"A", 160, "a.cpp", 1, "a"⟩
    (.install 0 false .ok <| .publish 0 ⟨"B", 100, "b.cpp", 2, "b"⟩ .done (.error ["e"]) .done)
    (.panic none) <|
  .uninstall <| .publish 0 ⟨"C", 0, "c.cpp", 3, "c"⟩ .done .ok <|
  .install 1 false .ok <| .publish 0 ⟨"D", 160, "d.cpp", 4, "d"⟩ .done .ok <|
  .hosting 0 1 (.publish 0 ⟨"E", 128, "e.cpp", 5, "e"⟩ .done .ok .done) .done

theorem records_reach_registered_sink_twice :
    (∀ k, (({} : LogBridge).locks k).WellFormed) ∧ ({} : LogBridge).Follows [] ∧
      ∃ b notes, twoSinks.play? {} = some (b, notes) ∧ b.forwarded =
        [⟨0, 0, ⟨"blazingmq.A", 10, "a.cpp", 1, "a"⟩, true⟩,
          ⟨0, 0, ⟨"blazingmq.B", 20, "b.cpp", 2, "b"⟩, true⟩,
          ⟨1, 0, ⟨"blazingmq.E", 20, "e.cpp", 5, "e"⟩, true⟩] := by
  have hlocks (k : RuntimeId) : (({} : LogBridge).locks k).WellFormed := HostLock.wellFormed_free
  have hresult := records_reach_registered_sink hlocks LogBridge.follows_empty twoSinks
  have hthread : twoSinks.OnThread 0 := by simp [twoSinks, OnThread]
  obtain ⟨b, notes, hplay⟩ := hresult.2 0 hthread nofun
  obtain ⟨hfollows, -⟩ := hresult.1 b notes hplay
  have hnotes : (twoSinks.play? {}).map Prod.snd = some
      [.offered 0 true .ok true, .published 0 ⟨"A", 160, "a.cpp", 1, "a"⟩,
        .offered 0 false .ok false, .published 0 ⟨"B", 100, "b.cpp", 2, "b"⟩, .dropped,
        .published 0 ⟨"C", 0, "c.cpp", 3, "c"⟩, .offered 1 false .ok true,
        .published 0 ⟨"D", 160, "d.cpp", 4, "d"⟩, .published 0 ⟨"E", 128, "e.cpp", 5, "e"⟩] := rfl
  rw [hplay] at hnotes
  obtain rfl : notes = _ := Option.some.inj hnotes
  refine ⟨hlocks, LogBridge.follows_empty, b, _, hplay, ?_⟩
  rw [hfollows.forwarded]
  decide +kernel

end LogHistory

end BrokerBridge
