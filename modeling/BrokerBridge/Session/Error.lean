import BrokerBridge.Message.Guid
import BrokerBridge.Property.Codec
import BrokerBridge.Settings.Basic

/-!
# Failures of session operations

Each failure is kept as its cause. The text shown to the host is computed from it.
-/

namespace BrokerBridge

inductive QueueAction where
  | openQueue | configureQueue | closeQueue
deriving DecidableEq, Repr

namespace QueueAction

def verb : QueueAction → String
  | openQueue => "open"
  | configureQueue => "configure"
  | closeQueue => "close"

def codes : QueueAction → CodeTable
  | openQueue => Code.openQueue
  | configureQueue => Code.configureQueue
  | closeQueue => Code.closeQueue

end QueueAction

inductive FailedCall where
  /-- The session could not be created; the texts go from the outermost cause inwards. -/
  | create (causes : List String)
  | start
  | queue (action : QueueAction) (uri description : String)
  | post (uri : String)
  | confirm (guid : Guid)
deriving DecidableEq

def FailedCall.message (call : FailedCall) (code : Int) : String :=
  match call with
  | create causes => "Failed to create session: " ++ ": ".intercalate causes
  | start => s!"Failed to start session: {Code.generic.describe code}"
  | queue action uri description =>
      s!"Failed to {action.verb} {uri} queue: {action.codes.describe code}: {description}"
  | post uri => s!"Failed to post message to {uri} queue: {Code.post.describe code}"
  | confirm guid => s!"Failed to confirm message [{guid.render}]: {Code.generic.describe code}"

inductive ConfigFault where
  | settings (fault : SettingsFault)
  /-- The log could not be set up. -/
  | logging
deriving DecidableEq, Repr

def ConfigFault.message : ConfigFault → String
  | settings fault => fault.message
  | logging => "the log directory cannot be made"

inductive SessionError where
  | stopped
  | queueNotOpened (uri : String)
  | queueClosing (uri : String)
  /-- A native call ran out of time. -/
  | timedOut (call : FailedCall)
  /-- A native call failed with any other code. -/
  | failed (call : FailedCall) (code : Int)
  | invalidGuid
  | construction (code : Int)
  | property (error : PropertyError)
  | invalidConfig (fault : ConfigFault)
  | warning (text : String)
  | hostHealthNotMonitored
  | alreadyInstalled
deriving DecidableEq

namespace SessionError

def ofNative (call : FailedCall) (code : Int) : SessionError :=
  if code = Code.timeout then timedOut call else failed call code

def kind : SessionError → String
  | stopped => "SessionStopped"
  | queueNotOpened _ => "QueueNotOpened"
  | queueClosing _ => "QueueClosing"
  | timedOut _ => "BrokerTimeout"
  | failed .. => "GenericFailure"
  | invalidGuid => "InvalidGuid"
  | construction _ => "MessageConstruction"
  | property _ => "Property"
  | invalidConfig _ => "InvalidConfig"
  | warning _ => "Warning"
  | hostHealthNotMonitored => "HostHealthNotMonitored"
  | alreadyInstalled => "AlreadyInstalled"

def message : SessionError → String
  | stopped => "Method called after session was stopped"
  | queueNotOpened _ => "Queue not opened"
  | queueClosing uri =>
      "Attempting to confirm message on a closing queue. Please ensure that you are invoking " ++
        s!"configure with 0 max unconfirmed messages before closing the queue<{uri}>"
  | timedOut call => call.message Code.timeout
  | failed call code => call.message code
  | invalidGuid => "Invalid GUID provided"
  | construction code => s!"Failed to construct message: {Code.packing.describe code}"
  | property error => error.message
  | invalidConfig fault => s!"invalid session configuration: {fault.message}"
  | warning text => text
  | hostHealthNotMonitored =>
      "Queues cannot use suspends_on_bad_host_health if host health monitoring was disabled " ++
        "when the Session was created"
  | alreadyInstalled => "native log bridge already installed"

def resultCode : SessionError → Option Int
  | timedOut _ => some Code.timeout
  | failed _ code => some code
  | construction code => some code
  | _ => none

def isTimeout : SessionError → Bool
  | timedOut _ => true
  | _ => false

theorem message_ofNative (call : FailedCall) (code : Int) :
    (ofNative call code).message = call.message code := by
  unfold ofNative
  split
  · next h =>
    subst h
    rfl
  · rfl

theorem resultCode_ofNative (call : FailedCall) (code : Int) :
    (ofNative call code).resultCode = some code := by
  by_cases h : code = Code.timeout
  · simp only [ofNative, h, if_true, resultCode]
  · simp only [ofNative, h, if_false, resultCode]

theorem isTimeout_ofNative (call : FailedCall) (code : Int) :
    (ofNative call code).isTimeout = true ↔ code = Code.timeout := by
  by_cases h : code = Code.timeout
  · simp only [ofNative, h, if_true, isTimeout]
  · simp only [ofNative, h, if_false, isTimeout, Bool.false_eq_true]

end SessionError

end BrokerBridge
