import BrokerBridge.Duration
import BrokerBridge.Text.Blank

/-!
# Session settings

What a host may set for a session, which settings are refused, and the options that the
broker's client is given: each value that is set passes through, each other one takes the
client's default.
-/

namespace BrokerBridge

inductive Compression where
  | none | zlib
deriving DecidableEq, Repr

namespace Compression

def code : Compression → Int
  | none => 0
  | zlib => 1

def name : Compression → String
  | none => "none"
  | zlib => "zlib"

def ofCode? (c : Int) : Option Compression :=
  if c = 0 then some none else if c = 1 then some zlib else Option.none

end Compression

inductive TimedCall where
  | connect | disconnect | openQueue | configureQueue | closeQueue
deriving DecidableEq, Repr

namespace TimedCall

def all : List TimedCall := [connect, disconnect, openQueue, configureQueue, closeQueue]

theorem mem_all (c : TimedCall) : c ∈ all := by
  cases c <;> decide

def name : TimedCall → String
  | connect => "connect"
  | disconnect => "disconnect"
  | openQueue => "open_queue"
  | configureQueue => "configure_queue"
  | closeQueue => "close_queue"

end TimedCall

structure Timeouts (α : Type) where
  connect : α
  disconnect : α
  openQueue : α
  configureQueue : α
  closeQueue : α
deriving DecidableEq, Repr

namespace Timeouts

variable {α β γ : Type}

def get (t : Timeouts α) : TimedCall → α
  | .connect => t.connect
  | .disconnect => t.disconnect
  | .openQueue => t.openQueue
  | .configureQueue => t.configureQueue
  | .closeQueue => t.closeQueue

def ofFn (f : TimedCall → α) : Timeouts α :=
  ⟨f .connect, f .disconnect, f .openQueue, f .configureQueue, f .closeQueue⟩

@[simp] theorem get_ofFn (f : TimedCall → α) (c : TimedCall) : (ofFn f).get c = f c := by
  cases c <;> rfl

def orElse (t : Timeouts (Option α)) (defaults : Timeouts α) : Timeouts α :=
  ofFn fun c => (t.get c).getD (defaults.get c)

theorem get_orElse (t : Timeouts (Option α)) (defaults : Timeouts α) (c : TimedCall) :
    (t.orElse defaults).get c = (t.get c).getD (defaults.get c) :=
  get_ofFn _ c

end Timeouts

inductive LogFormat where
  | structuredJson | pretty
deriving DecidableEq, Repr

def LogFormat.name : LogFormat → String
  | structuredJson => "structured-json"
  | pretty => "pretty"

structure LogSettings where
  directory : String := "target/logs"
  format : LogFormat := .structuredJson
  filePrefix : Option String := none
  fileOutput : Bool := false
deriving DecidableEq, Repr

structure Settings where
  brokerUri : String := "tcp://localhost:30114"
  processName : Option String := none
  compression : Compression := .none
  processingThreads : Option Int := none
  blobBufferSize : Option Int := none
  channelHighWatermark : Option Int := none
  /-- The low and the high mark of the event queue. -/
  eventQueueWatermarks : Option (Int × Int) := none
  statsDumpInterval : Option Duration := none
  timeouts : Timeouts (Option Duration) := .ofFn fun _ => none
  monitorHostHealth : Bool := false
  warningsAsErrors : Bool := false
  logging : LogSettings := {}
deriving DecidableEq, Repr

inductive PositiveSetting where
  | processingThreads | blobBufferSize | channelHighWatermark
deriving DecidableEq, Repr

namespace PositiveSetting

def all : List PositiveSetting := [processingThreads, blobBufferSize, channelHighWatermark]

theorem mem_all (p : PositiveSetting) : p ∈ all := by
  cases p <;> decide

def name : PositiveSetting → String
  | processingThreads => "num_processing_threads"
  | blobBufferSize => "blob_buffer_size"
  | channelHighWatermark => "channel_high_watermark"

def get (s : Settings) : PositiveSetting → Option Int
  | processingThreads => s.processingThreads
  | blobBufferSize => s.blobBufferSize
  | channelHighWatermark => s.channelHighWatermark

end PositiveSetting

inductive SettingsFault where
  | emptyBrokerUri
  | notPositive (setting : PositiveSetting) (value : Int)
  | badWatermarks (low high : Int)
  | zeroTimeout (call : TimedCall)
deriving DecidableEq, Repr

def SettingsFault.message : SettingsFault → String
  | emptyBrokerUri => "broker_uri must not be empty"
  | notPositive setting value => s!"{setting.name} must be positive, was {value}"
  | badWatermarks low high =>
      s!"event_queue_watermarks must satisfy 0 <= low < high, got ({low}, {high})"
  | zeroTimeout call => s!"{call.name} timeout must be greater than 0.0, was 0"

namespace Settings

private def positiveFault? (s : Settings) (p : PositiveSetting) : Option SettingsFault :=
  match p.get s with
  | some v => if v ≤ 0 then some (.notPositive p v) else none
  | none => none

private def watermarkFault? (s : Settings) : Option SettingsFault :=
  match s.eventQueueWatermarks with
  | some (low, high) => if low < 0 ∨ high ≤ low then some (.badWatermarks low high) else none
  | none => none

private def timeoutFault? (s : Settings) (c : TimedCall) : Option SettingsFault :=
  match s.timeouts.get c with
  | some d => if d.isZero then some (.zeroTimeout c) else none
  | none => none

def fault? (s : Settings) : Option SettingsFault :=
  (if Text.isBlank s.brokerUri then some .emptyBrokerUri else none)
    <|> PositiveSetting.all.findSome? s.positiveFault?
    <|> s.watermarkFault?
    <|> TimedCall.all.findSome? s.timeoutFault?

structure Allowed (s : Settings) : Prop where
  brokerUri : Text.isBlank s.brokerUri = false
  positive : ∀ p v, PositiveSetting.get s p = some v → 0 < v
  watermarks : ∀ low high, s.eventQueueWatermarks = some (low, high) → 0 ≤ low ∧ low < high
  timeouts : ∀ c d, s.timeouts.get c = some d → 0 < d.nanos

private theorem positiveFault?_eq_none_iff {s : Settings} {p : PositiveSetting} :
    s.positiveFault? p = none ↔ ∀ v, p.get s = some v → 0 < v := by
  unfold positiveFault?
  cases p.get s with
  | none => simp
  | some v => simp

private theorem watermarkFault?_eq_none_iff {s : Settings} :
    s.watermarkFault? = none ↔
      ∀ low high, s.eventQueueWatermarks = some (low, high) → 0 ≤ low ∧ low < high := by
  unfold watermarkFault?
  cases s.eventQueueWatermarks with
  | none => simp
  | some marks =>
    obtain ⟨low, high⟩ := marks
    simp

private theorem timeoutFault?_eq_none_iff {s : Settings} {c : TimedCall} :
    s.timeoutFault? c = none ↔ ∀ d, s.timeouts.get c = some d → 0 < d.nanos := by
  unfold timeoutFault?
  cases s.timeouts.get c with
  | none => simp
  | some d => simp [Duration.isZero, Nat.pos_iff_ne_zero]

theorem fault?_eq_none_iff {s : Settings} : s.fault? = none ↔ s.Allowed := by
  simp only [fault?, Option.orElse_eq_orElse, Option.orElse_eq_or, Option.or_eq_none_iff,
    List.findSome?_eq_none_iff, positiveFault?_eq_none_iff, watermarkFault?_eq_none_iff,
    timeoutFault?_eq_none_iff, ite_eq_right_iff, reduceCtorEq, imp_false, Bool.not_eq_true,
    PositiveSetting.mem_all, TimedCall.mem_all, true_imp_iff]
  exact ⟨fun ⟨huri, hpositive, hmarks, htimeouts⟩ => ⟨huri, hpositive, hmarks, htimeouts⟩,
    fun h => ⟨h.brokerUri, h.positive, h.watermarks, h.timeouts⟩⟩

end Settings

structure ClientOptions where
  brokerUri : String
  processName : String
  processingThreads : Int
  blobBufferSize : Int
  channelHighWatermark : Int
  eventQueueLowWatermark : Int
  eventQueueHighWatermark : Int
  statsDumpInterval : Duration
  timeouts : Timeouts Duration
  monitorHostHealth : Bool
  /-- Whether the host's own health monitor is to be watched. -/
  hasMonitor : Bool
deriving DecidableEq, Repr

namespace ClientOptions

def defaultTimeouts : Timeouts Duration where
  connect := .ofSeconds 60
  disconnect := .ofSeconds 30
  openQueue := .ofSeconds 300
  configureQueue := .ofSeconds 300
  closeQueue := .ofSeconds 300

/-- The options for some settings; `executable` names the process when the settings do not. -/
def ofSettings (executable : String) (s : Settings) : ClientOptions where
  brokerUri := s.brokerUri
  processName := s.processName.getD executable
  processingThreads := s.processingThreads.getD 1
  blobBufferSize := s.blobBufferSize.getD 4096
  channelHighWatermark := s.channelHighWatermark.getD (128 * 1024 * 1024)
  eventQueueLowWatermark := (s.eventQueueWatermarks.getD (50, 2000)).1
  eventQueueHighWatermark := (s.eventQueueWatermarks.getD (50, 2000)).2
  statsDumpInterval := s.statsDumpInterval.getD (.ofSeconds 300)
  timeouts := s.timeouts.orElse defaultTimeouts
  monitorHostHealth := s.monitorHostHealth
  hasMonitor := false

def watching (o : ClientOptions) : ClientOptions :=
  { o with monitorHostHealth := true, hasMonitor := true }

end ClientOptions

end BrokerBridge
