import BrokerBridge.Proofs.Session.Telling
import Mathlib.Algebra.BigOperators.Fin

/-!
# The lines of a report

The properties that are skipped from a batch are reported by one text, which ends the report of each
by a newline. It has a line more for every newline byte in the key of a skipped property, since keys
are shown as they are.
-/

namespace BrokerBridge

variable {ν : Type}

/-- The pieces of a text between its newlines. -/
def piecesOf (text : String) : List String := (text.toList.splitOn '\n').map String.ofList

/-- The lines of a text that ends each of them by a newline. -/
def linesOf (text : String) : List String := (piecesOf text).dropLast

private theorem length_splitOn_newline (text : List Char) :
    (text.splitOn '\n').length = text.count '\n' + 1 := by
  induction text with
  | nil => rfl
  | cons c text ih =>
    rw [List.splitOn_cons_eq_if_modifyHead, List.count_cons]
    split <;> simp [ih]

private theorem length_piecesOf (text : String) :
    (piecesOf text).length = text.toList.count '\n' + 1 := by
  rw [piecesOf, List.length_map, length_splitOn_newline]

private theorem piecesOf_of_notMem {text : String} (h : '\n' ∉ text.toList) : piecesOf text =
    [text] := by
  simp [piecesOf, List.splitOn_eq_singleton h]

private theorem piecesOf_ended (text rest : String) :
    piecesOf (text ++ "\n" ++ rest) = piecesOf text ++ piecesOf rest := by
  simp [piecesOf, List.splitOn_append_cons_self]

/-- Texts that are each ended by a newline make the lines of all their pieces. -/
theorem linesOf_join (texts : List String) :
    linesOf (String.join (texts.map (· ++ "\n"))) = texts.flatMap piecesOf := by
  have hpieces :
      piecesOf (String.join (texts.map (· ++ "\n"))) = texts.flatMap piecesOf ++ [""] := by
    induction texts with
    | nil => rfl
    | cons text texts ih =>
      rw [List.map_cons, String.join_cons, piecesOf_ended, ih, List.flatMap_cons, List.append_assoc]
  rw [linesOf, hpieces, List.dropLast_concat]

namespace DecodeError

def key : DecodeError → ByteArray
  | nonUtf8String key | unrecognizedType key _ => key

def newlines (e : DecodeError) : Nat := e.key.data.toList.count 10

private theorem count_newline_toString (n : Int) : (toString n).toList.count '\n' = 0 := by
  have hdigits (k : Nat) : '\n' ∉ k.repr.toList := by
    rw [Nat.toList_repr]
    exact fun h => absurd (Nat.isDigit_of_mem_toDigits (by decide) (by decide) h) (by decide)
  rw [List.count_eq_zero, Int.toString_eq_repr]
  cases n with
  | ofNat k => exact hdigits k
  | negSucc k =>
    rw [Int.repr, String.toList_append, List.mem_append, not_or]
    exact ⟨by decide, hdigits _⟩

private theorem count_newline_message (e : DecodeError) :
    e.message.toList.count '\n' = e.newlines := by
  cases e with
  | nonUtf8String key =>
    have hbefore : "STRING property '".toList.count '\n' = 0 := by decide
    have hafter : "' has non-UTF-8 data".toList.count '\n' = 0 := by decide
    show ("STRING property '" ++ Utf8.lossy key ++ "' has non-UTF-8 data").toList.count '\n' = _
    rw [String.toList_append, String.toList_append, List.count_append, List.count_append,
      Utf8.count_newline_lossy, hbefore, hafter, Nat.zero_add]
    rfl
  | unrecognizedType key typeCode =>
    have hbefore : "'".toList.count '\n' = 0 := by decide
    have hbetween : "' property type is unrecognized, type ".toList.count '\n' = 0 := by decide
    have hafter : " received.".toList.count '\n' = 0 := by decide
    show ("'" ++ Utf8.lossy key ++ "' property type is unrecognized, type " ++ toString typeCode ++
      " received.").toList.count '\n' = _
    simp only [String.toList_append, List.count_append, Utf8.count_newline_lossy, hbefore, hbetween,
      hafter, count_newline_toString, Nat.zero_add, Nat.add_zero]
    rfl

end DecodeError

section

variable (skipped : List DecodeError)

private theorem linesOf_decodeReport :
    linesOf (decodeReport skipped) = skipped.flatMap fun e => piecesOf e.message := by
  have htexts : skipped.map (fun e => e.message ++ "\n") =
      (skipped.map DecodeError.message).map (· ++ "\n") := by
    rw [List.map_map]
    rfl
  rw [decodeReport, htexts, linesOf_join, List.flatMap_map]

private theorem length_linesOf_decodeReport :
    (linesOf (decodeReport skipped)).length =
      skipped.length + (skipped.map DecodeError.newlines).sum := by
  rw [linesOf_decodeReport]
  induction skipped with
  | nil => rfl
  | cons e skipped ih =>
    rw [List.flatMap_cons, List.length_append, ih, length_piecesOf,
      DecodeError.count_newline_message, List.map_cons, List.sum_cons, List.length_cons]
    omega

theorem linesOf_decodeReport_eq_iff :
    linesOf (decodeReport skipped) = skipped.map DecodeError.message ↔
      ∀ e ∈ skipped, e.newlines = 0 := by
  constructor
  · intro hlines
    have hlength := congrArg List.length hlines
    rw [length_linesOf_decodeReport, List.length_map] at hlength
    have hsum : (skipped.map DecodeError.newlines).sum = 0 := by omega
    simpa [List.sum_eq_zero_iff_forall_eq_nat] using hsum
  · intro hnone
    rw [linesOf_decodeReport, List.map_eq_flatMap]
    refine List.flatMap_congr fun e he => piecesOf_of_notMem ?_
    rw [← List.count_eq_zero, DecodeError.count_newline_message, hnone e he]

end

def Delivery.diagnostic? : Delivery → Option String
  | notification (.diagnostic text) => some text
  | _ => none

/-- Whatever the keys of the properties that are skipped from a batch, one diagnostic reports them
all, and there is none where none are skipped. It has as many lines as there are skipped properties
and newlines in their keys, and its lines are the reports of the skipped properties if and only if
their keys have no newlines. -/
theorem skipped_reported_by_lines (messages : List Message) :
    let skipped := messages.flatMap Message.skipped
    ∃ steps : List TellStep,
      (∀ host : HostCode ν, (MessageEvent.push messages).tell host =
        Act.inHost (Act.tellSteps host steps)) ∧
      (TellStep.calls steps).filterMap Delivery.diagnostic? =
        (if skipped = [] then [] else [decodeReport skipped]) ∧
      linesOf (decodeReport skipped) = skipped.flatMap (fun e => piecesOf e.message) ∧
      (linesOf (decodeReport skipped)).length =
        skipped.length + (skipped.map DecodeError.newlines).sum ∧
      (linesOf (decodeReport skipped) = skipped.map DecodeError.message ↔
        ∀ e ∈ skipped, e.newlines = 0) := by
  intro skipped
  have hskipped : (receiveBatch messages).2 = skipped := (receiveBatch_records messages).2
  refine ⟨pushSteps (receiveBatch messages).1 skipped, fun host => ?_, ?_, linesOf_decodeReport _,
    length_linesOf_decodeReport _, linesOf_decodeReport_eq_iff _⟩
  · rw [tellPushed_eq, hskipped]
  · rw [calls_pushSteps]
    split <;> rfl

/-- The key of one property is shown over two lines. -/
theorem skipped_one_reported_by_two_lines :
    let messages : List Message := [.push ⟨0, "bmq://d/q", {}⟩ .zero .empty
      (some ⟨[(⟨#[97, 10, 98]⟩, .unrecognized 99)]⟩)]
    (messages.flatMap Message.skipped).length = 1 ∧
      (linesOf (decodeReport (messages.flatMap Message.skipped))).length = 2 ∧
      linesOf (decodeReport (messages.flatMap Message.skipped)) =
        ["'a", "b' property type is unrecognized, type 99 received."] := by
  intro messages
  refine ⟨rfl, ?_, ?_⟩
  · rw [length_linesOf_decodeReport]
    rfl
  · rw [linesOf_decodeReport]
    decide +kernel

end BrokerBridge
