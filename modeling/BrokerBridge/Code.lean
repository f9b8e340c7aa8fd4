/-!
# Named integer codes

The broker's client answers with small integers. A `CodeTable` gives each integer it knows
a name; a code outside the table still renders, so that a report never fails on a newer client.
-/

namespace BrokerBridge

structure CodeTable where
  entries : List (Int × String)
deriving Repr

namespace CodeTable

def unknownName : String := "(* UNKNOWN *)"

def name? (t : CodeTable) (c : Int) : Option String :=
  t.entries.lookup c

def name (t : CodeTable) (c : Int) : String :=
  (t.name? c).getD unknownName

/-- The name of a code followed by the code in parentheses. -/
def describe (t : CodeTable) (c : Int) : String :=
  t.name c ++ " (" ++ toString c ++ ")"

theorem name_of_name? {t : CodeTable} {c : Int} {n : String} (h : t.name? c = some n) :
    t.name c = n := by
  simp [name, h]

theorem name_of_name?_none {t : CodeTable} {c : Int} (h : t.name? c = none) :
    t.name c = unknownName := by
  simp [name, h]

end CodeTable

/-! ## Results of native calls -/

namespace Code

def success : Int := 0
def unknown : Int := -1
def timeout : Int := -2
def invalidArgument : Int := -7

def generic : CodeTable where
  entries := [(0, "SUCCESS"), (-1, "UNKNOWN"), (-2, "TIMEOUT"), (-3, "NOT_CONNECTED"),
    (-4, "CANCELED"), (-5, "NOT_SUPPORTED"), (-6, "REFUSED"), (-7, "INVALID_ARGUMENT"),
    (-8, "NOT_READY")]

private def alsoGeneric (own : List (Int × String)) : CodeTable :=
  ⟨generic.entries ++ own⟩

def openQueue : CodeTable :=
  alsoGeneric [(-100, "ALREADY_OPENED"), (-101, "ALREADY_IN_PROGRESS"), (-102, "INVALID_URI"),
    (-103, "INVALID_FLAGS"), (-104, "CORRELATIONID_NOT_UNIQUE")]

def alreadyOpened : Int := -100

def configureQueue : CodeTable :=
  alsoGeneric [(-100, "ALREADY_IN_PROGRESS"), (-101, "INVALID_QUEUE")]

def invalidQueue : Int := -101

def closeQueue : CodeTable :=
  alsoGeneric [(-100, "ALREADY_CLOSED"), (-101, "ALREADY_IN_PROGRESS"), (-102, "UNKNOWN_QUEUE"),
    (-103, "INVALID_QUEUE")]

def unknownQueue : Int := -102

def post : CodeTable :=
  alsoGeneric [(-100, "BW_LIMIT")]

def ack : CodeTable :=
  alsoGeneric [(-100, "LIMIT_MESSAGES"), (-101, "LIMIT_BYTES"), (-104, "STORAGE_FAILURE")]

def packing : CodeTable where
  entries := [(0, "SUCCESS"), (-1, "UNKNOWN"), (-100, "QUEUE_INVALID"), (-101, "QUEUE_READONLY"),
    (-102, "MISSING_CORRELATION_ID"), (-103, "EVENT_TOO_BIG"), (-104, "PAYLOAD_TOO_BIG"),
    (-105, "PAYLOAD_EMPTY"), (-106, "OPTION_TOO_BIG"), (-108, "QUEUE_SUSPENDED")]

end Code

/-! ## Kinds of events -/

inductive SessionEventKind where
  | error | timeout | canceled | undefined | connected | disconnected | connectionLost
  | reconnected | stateRestored | connectionTimeout | queueOpenResult | queueReopenResult
  | queueCloseResult | slowConsumerNormal | slowConsumerHighWatermark | queueConfigureResult
  | hostUnhealthy | hostHealthRestored | queueSuspended | queueResumed
deriving DecidableEq, Repr

namespace SessionEventKind

def all : List SessionEventKind :=
  [error, timeout, canceled, undefined, connected, disconnected, connectionLost, reconnected,
    stateRestored, connectionTimeout, queueOpenResult, queueReopenResult, queueCloseResult,
    slowConsumerNormal, slowConsumerHighWatermark, queueConfigureResult, hostUnhealthy,
    hostHealthRestored, queueSuspended, queueResumed]

def code : SessionEventKind → Int
  | error => -1
  | timeout => -2
  | canceled => -3
  | undefined => 0
  | connected => 1
  | disconnected => 2
  | connectionLost => 3
  | reconnected => 4
  | stateRestored => 5
  | connectionTimeout => 6
  | queueOpenResult => 7
  | queueReopenResult => 8
  | queueCloseResult => 9
  | slowConsumerNormal => 10
  | slowConsumerHighWatermark => 11
  | queueConfigureResult => 12
  | hostUnhealthy => 13
  | hostHealthRestored => 14
  | queueSuspended => 15
  | queueResumed => 16

def name : SessionEventKind → String
  | error => "ERROR"
  | timeout => "TIMEOUT"
  | canceled => "CANCELED"
  | undefined => "UNDEFINED"
  | connected => "CONNECTED"
  | disconnected => "DISCONNECTED"
  | connectionLost => "CONNECTION_LOST"
  | reconnected => "RECONNECTED"
  | stateRestored => "STATE_RESTORED"
  | connectionTimeout => "CONNECTION_TIMEOUT"
  | queueOpenResult => "QUEUE_OPEN_RESULT"
  | queueReopenResult => "QUEUE_REOPEN_RESULT"
  | queueCloseResult => "QUEUE_CLOSE_RESULT"
  | slowConsumerNormal => "SLOWCONSUMER_NORMAL"
  | slowConsumerHighWatermark => "SLOWCONSUMER_HIGHWATERMARK"
  | queueConfigureResult => "QUEUE_CONFIGURE_RESULT"
  | hostUnhealthy => "HOST_UNHEALTHY"
  | hostHealthRestored => "HOST_HEALTH_RESTORED"
  | queueSuspended => "QUEUE_SUSPENDED"
  | queueResumed => "QUEUE_RESUMED"

def table : CodeTable := ⟨all.map fun k => (k.code, k.name)⟩

def ofCode? (c : Int) : Option SessionEventKind :=
  all.find? (·.code == c)

/-- Events of these kinds name the queue they are about. -/
def carriesQueue : SessionEventKind → Bool
  | queueReopenResult | queueSuspended | queueResumed => true
  | _ => false

theorem mem_all (k : SessionEventKind) : k ∈ all := by cases k <;> decide

@[simp] theorem ofCode?_code (k : SessionEventKind) : ofCode? k.code = some k := by
  cases k <;> rfl

@[simp] theorem name?_code (k : SessionEventKind) : table.name? k.code = some k.name := by
  cases k <;> rfl

end SessionEventKind

inductive MessageEventKind where
  | undefined | ack | put | push
deriving DecidableEq, Repr

namespace MessageEventKind

def all : List MessageEventKind := [undefined, ack, put, push]

def code : MessageEventKind → Int
  | undefined => 0
  | ack => 1
  | put => 2
  | push => 3

def name : MessageEventKind → String
  | undefined => "UNDEFINED"
  | ack => "ACK"
  | put => "PUT"
  | push => "PUSH"

def table : CodeTable := ⟨all.map fun k => (k.code, k.name)⟩

def ofCode? (c : Int) : Option MessageEventKind :=
  all.find? (·.code == c)

@[simp] theorem ofCode?_code (k : MessageEventKind) : ofCode? k.code = some k := by
  cases k <;> rfl

end MessageEventKind

end BrokerBridge
