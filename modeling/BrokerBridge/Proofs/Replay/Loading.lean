import Mathlib
import BrokerBridge.Proofs.Replay.ScriptLines
import BrokerBridge.Proofs.Session.Computations
import BrokerBridge.Replay.Callbacks

/-!
# Loading a script

A file is loaded exactly if every line of it holds something; the batches then stand behind those
that were waiting, in the order of the lines, and otherwise nothing is changed.
-/

namespace BrokerBridge

def FileHolds (files : Files) (path : String) (held : List (Option ScriptBatch)) : Prop :=
  ∃ content, files.get? path = some (.file content) ∧
    List.Forall₂ LineHolds (Script.splitLines content.data.toList) held

namespace Script

variable {e e' : Script} {path : String} {files : Files}

private theorem addLines_blank {bytes : List UInt8} {line : String}
    (htext : String.fromUTF8? ⟨bytes.toArray⟩ = some line) (hblank : Text.isBlank line = true)
    (n : Nat) (rest : List (List UInt8)) :
    e.addLines path n (bytes :: rest) = e.addLines path (n + 1) rest := by
  rw [addLines, htext]
  exact if_pos hblank

theorem addLines_record {bytes : List UInt8} {line : String}
    (htext : String.fromUTF8? ⟨bytes.toArray⟩ = some line) (hblank : Text.isBlank line = false)
    (n : Nat) (rest : List (List UInt8)) :
    e.addLines path n (bytes :: rest) =
      match e.addLine line with
      | .ok e => e.addLines path (n + 1) rest
      | .error fault => .error (.line path n fault) := by
  rw [addLines, htext]
  exact if_neg (by simp [hblank])

/-- A first line that holds something is queued, and the others are read on from there. -/
theorem addLines_of_lineHolds {bytes : List UInt8} {held : Option ScriptBatch}
    (h : LineHolds bytes held) (n : Nat) (rest : List (List UInt8)) :
    e.addLines path n (bytes :: rest) =
      (e.extend (ofBatches held.toList)).addLines path (n + 1) rest := by
  cases h with
  | blank htext hblank =>
    rw [addLines_blank htext hblank]
    exact congrArg (addLines path · (n + 1) rest) e.extend_empty.symm
  | @record line record batch htext hblank hrecord hbatch =>
    have hline : e.addLine line = .ok (e.extend batch.alone) :=
      addLine_eq_ok_iff.mpr ⟨record, batch, hrecord, hbatch, rfl⟩
    rw [addLines_record htext hblank, hline, Option.toList_some, ofBatches_singleton]

private theorem lineHolds_of_addLines {bytes : List UInt8} {n : Nat} {rest : List (List UInt8)}
    (h : e.addLines path n (bytes :: rest) = .ok e') : ∃ held, LineHolds bytes held := by
  cases htext : String.fromUTF8? ⟨bytes.toArray⟩ with
  | none =>
    rw [addLines, htext] at h
    cases h
  | some line =>
    by_cases hblank : Text.isBlank line = true
    · exact ⟨none, .blank htext hblank⟩
    · have hrecord : Text.isBlank line = false := by simpa using hblank
      rw [addLines_record htext hrecord] at h
      cases hline : e.addLine line with
      | error fault =>
        rw [hline] at h
        cases h
      | ok e₁ =>
        obtain ⟨record, batch, hof, hbatch, -⟩ := addLine_eq_ok_iff.mp hline
        exact ⟨some batch, .record htext hrecord hof hbatch⟩

/-- Lines are queued exactly if each holds something, and then their batches in their order. -/
theorem addLines_eq_ok_iff {n : Nat} {lines : List (List UInt8)} :
    e.addLines path n lines = .ok e' ↔ ∃ held, List.Forall₂ LineHolds lines held ∧
      e' = e.extend (ofBatches held.reduceOption) := by
  induction lines generalizing e n with
  | nil =>
    constructor
    · intro h
      cases h
      exact ⟨[], .nil, (extend_empty _).symm⟩
    · rintro ⟨held, hheld, rfl⟩
      cases hheld
      exact congrArg Except.ok (extend_empty _).symm
  | cons bytes rest ih =>
    -- the batch of the first line, if it holds one, stands before those of the others
    have hsplit (first : Option ScriptBatch) (held : List (Option ScriptBatch)) :
        (e.extend (ofBatches first.toList)).extend (ofBatches held.reduceOption) =
          e.extend (ofBatches (first :: held).reduceOption) := by
      rw [extend_assoc]
      cases first with
      | none => rw [List.reduceOption_cons_of_none]; rfl
      | some batch =>
        rw [List.reduceOption_cons_of_some, ofBatches_cons, Option.toList_some,
          ofBatches_singleton]
    constructor
    · intro h
      obtain ⟨first, hfirst⟩ := lineHolds_of_addLines h
      rw [addLines_of_lineHolds hfirst] at h
      obtain ⟨held, hheld, rfl⟩ := ih.mp h
      exact ⟨first :: held, .cons hfirst hheld, hsplit first held⟩
    · rintro ⟨_, hall, rfl⟩
      obtain ⟨first, held, hfirst, hheld, rfl⟩ := List.forall₂_cons_left_iff.mp hall
      rw [addLines_of_lineHolds hfirst]
      exact ih.mpr ⟨held, hheld, (hsplit first held).symm⟩

theorem load_eq_ok_iff {more : Script} :
    load files path = .ok more ↔
      ∃ held, FileHolds files path held ∧ more = ofBatches held.reduceOption := by
  unfold load
  split
  · next hnone =>
    refine ⟨nofun, ?_⟩
    rintro ⟨_, ⟨content, hfile, -⟩, -⟩
    rw [hnone] at hfile
    cases hfile
  · next hdirectory =>
    refine ⟨nofun, ?_⟩
    rintro ⟨_, ⟨content, hfile, -⟩, -⟩
    rw [hdirectory] at hfile
    cases hfile
  · next content hfile =>
    rw [addLines_eq_ok_iff]
    constructor
    · rintro ⟨held, hheld, rfl⟩
      exact ⟨held, ⟨content, hfile, hheld⟩, empty_extend _⟩
    · rintro ⟨held, ⟨content', hfile', hheld⟩, rfl⟩
      cases hfile.symm.trans hfile'
      exact ⟨held, hheld, (empty_extend _).symm⟩

end Script

/-! ## Loading -/

def Bridge.withScript (b : Bridge Stage) (e : Script) : Bridge Stage :=
  { b with native := { b.native with script := e } }

theorem Files.get?_pair (t u : FileTree) :
    get? ⟨[("a", t), ("b", u)]⟩ "a" = some t ∧ get? ⟨[("a", t), ("b", u)]⟩ "b" = some u := by
  constructor
  · cbv
  · cbv

namespace RehearsalPlan

variable (p : RehearsalPlan) (c : Option Connection) (host : HostCode Stage) {files : Files}
  {path : String} (b : Bridge Stage)

private theorem caught_of_ok {a : Act Stage Answer} {b b' : Bridge Stage} {answer : Answer}
    (h : a b = .ok answer b') : caught a b = .ok answer b' := by
  have hattempt : Act.attempt a b = .ok (.ok answer) b' := by rw [Act.attempt, h]
  exact Act.bind_of_ok hattempt

private theorem perform_loadScript_of_ok {more : Script} (h : Script.load files path = .ok more) :
    p.perform c host (.stage (.loadScript files path)) b =
      .ok .done (b.withScript (b.native.script.extend more)) := by
  refine caught_of_ok ?_
  rw [performStage, h]
  rfl

private theorem perform_loadScript_of_error {fault : ScriptFault}
    (h : Script.load files path = .error fault) :
    p.perform c host (.stage (.loadScript files path)) b = .ok (.badScript fault) b := by
  refine caught_of_ok ?_
  rw [performStage, h]
  rfl

theorem exists_fileHolds_iff : (∃ held, FileHolds files path held) ↔
    ∃ content, files.get? path = some (.file content) ∧
      ∀ line ∈ Script.splitLines content.data.toList, ∃ held, LineHolds line held := by
  constructor
  · rintro ⟨held, content, hfile, hall⟩
    refine ⟨content, hfile, fun line hline => ?_⟩
    obtain ⟨h, -, hline⟩ := exists_of_forall₂ hall line hline
    exact ⟨h, hline⟩
  · rintro ⟨content, hfile, hlines⟩
    choose! held hheld using hlines
    exact ⟨_, content, hfile, List.forall₂_map_right_iff.mpr (List.forall₂_same.mpr hheld)⟩

/-- A script is loaded exactly if every line of its file is blank or holds a record all of whose
messages can be scripted. The batches then stand behind those that were waiting, in the order of
the lines, those of messages and those of acknowledgements apart; nothing else is changed. Otherwise
the script is refused, and nothing at all is changed. -/
theorem script_loaded_whole_or_refused :
    ((∃ b', p.perform c host (.stage (.loadScript files path)) b = .ok .done b') ↔
      ∃ content, files.get? path = some (.file content) ∧
        ∀ line ∈ Script.splitLines content.data.toList, ∃ held, LineHolds line held) ∧
    (∀ held, FileHolds files path held →
      p.perform c host (.stage (.loadScript files path)) b = .ok .done (b.withScript
        { push := b.native.script.push ++ held.reduceOption.filterMap (·.push?),
          ack := b.native.script.ack ++ held.reduceOption.filterMap (·.ack?) })) ∧
    ((∃ b', p.perform c host (.stage (.loadScript files path)) b = .ok .done b') ∨
      ∃ fault,
        p.perform c host (.stage (.loadScript files path)) b = .ok (.badScript fault) b) := by
  have hholds (held : List (Option ScriptBatch)) (h : FileHolds files path held) :
      p.perform c host (.stage (.loadScript files path)) b =
        .ok .done (b.withScript (b.native.script.extend (.ofBatches held.reduceOption))) :=
    perform_loadScript_of_ok p c host b (Script.load_eq_ok_iff.mpr ⟨held, h, rfl⟩)
  refine ⟨?_, hholds, ?_⟩
  · rw [← exists_fileHolds_iff]
    constructor
    · rintro ⟨b', h⟩
      cases hload : Script.load files path with
      | error fault =>
        rw [perform_loadScript_of_error p c host b hload] at h
        cases h
      | ok more =>
        obtain ⟨held, hheld, -⟩ := Script.load_eq_ok_iff.mp hload
        exact ⟨held, hheld⟩
    · rintro ⟨held, h⟩
      exact ⟨_, hholds held h⟩
  · cases hload : Script.load files path with
    | error fault => exact .inr ⟨fault, perform_loadScript_of_error p c host b hload⟩
    | ok more => exact .inl ⟨_, perform_loadScript_of_ok p c host b hload⟩

def oneMessage : ScriptBatch := .push [{ payload := "é".toUTF8, guid := .zero, queueUri := "q" }]

private theorem expressible_oneMessage : oneMessage.Expressible :=
  List.forall_mem_singleton.mpr
    { payload := by decide +kernel
      encodes := ⟨.empty, rfl⟩
      keys := nofun
      texts := nofun
      notVerbatim := rfl }

def oneAck : ScriptBatch := .ack [⟨-6, .zero, "q", .unset⟩]

private theorem expressible_oneAck : oneAck.Expressible :=
  List.forall_mem_singleton.mpr ⟨by decide, .inr rfl⟩

def goodText : String :=
  (oneMessage.written Hex.lower).render ++ "\r\n \n" ++ (oneAck.written Hex.lower).render ++ "\n"

def twoScripts : Files where
  entries := [("a", .file goodText.toUTF8), ("b", .file (goodText ++ "\x7b\n").toUTF8)]

private theorem get?_twoScripts : twoScripts.get? "a" = some (.file goodText.toUTF8) ∧
    twoScripts.get? "b" = some (.file (goodText ++ "\x7b\n").toUTF8) :=
  Files.get?_pair _ _

private theorem fileHolds_good : FileHolds twoScripts "a" [some oneMessage, none, some oneAck] := by
  refine ⟨_, get?_twoScripts.1, ?_⟩
  have hlines : Script.splitLines goodText.toUTF8.data.toList =
      [(oneMessage.written Hex.lower).render.toUTF8.data.toList, [0x20],
        (oneAck.written Hex.lower).render.toUTF8.data.toList] := by
    decide +kernel
  rw [hlines]
  refine .cons ?_ (.cons ?_ (.cons ?_ .nil))
  · exact expressible_oneMessage.lineHolds Hex.writes_lower
  · have hspace : String.fromUTF8? ⟨([0x20] : List UInt8).toArray⟩ = some " " := by decide +kernel
    exact .blank hspace rfl
  · exact expressible_oneAck.lineHolds Hex.writes_lower

private theorem not_lineHolds_brace : ¬∃ held, LineHolds [0x7B] held := by
  have hbrace : String.fromUTF8? ⟨([0x7B] : List UInt8).toArray⟩ = some "\x7b" := by decide +kernel
  rintro ⟨_, @⟨line, htext, hblank⟩ | @⟨line, record, batch, htext, -, hrecord, -⟩⟩
  · cases hbrace.symm.trans htext
    cases hblank
  · cases hbrace.symm.trans htext
    cases hrecord

theorem script_loaded_whole_or_refused_both :
    let b : Bridge Stage := { native := { script := { push := [[]], ack := [[]] } } }
    let load (path : String) := perform { executable := "replay", label := "session" } none
      (fun _ => return .ok) (.stage (.loadScript twoScripts path)) b
    load "a" = .ok .done (b.withScript
      { push := [[], [{ payload := "é".toUTF8, guid := .zero, queueUri := "q" }]],
        ack := [[], [⟨-6, .zero, "q", .unset⟩]] }) ∧
    ∃ fault, load "b" = .ok (.badScript fault) b := by
  intro b load
  have hresult (path : String) := @script_loaded_whole_or_refused
    { executable := "replay", label := "session" } none (fun _ => return .ok) twoScripts path b
  refine ⟨(hresult "a").2.1 _ fileHolds_good, (hresult "b").2.2.resolve_left fun hdone => ?_⟩
  obtain ⟨content, hfile, hlines⟩ := (hresult "b").1.mp hdone
  have hcontent : (goodText ++ "\x7b\n").toUTF8 = content :=
    FileTree.file.inj (Option.some.inj (get?_twoScripts.2.symm.trans hfile))
  have hbrace : [0x7B] ∈ Script.splitLines (goodText ++ "\x7b\n").toUTF8.data.toList := by
    decide +kernel
  rw [hcontent] at hbrace
  exact not_lineHolds_brace (hlines _ hbrace)

end RehearsalPlan

end BrokerBridge
