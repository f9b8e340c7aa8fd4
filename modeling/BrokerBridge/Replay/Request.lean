import BrokerBridge.Host.Health
import BrokerBridge.Native.Call
import BrokerBridge.Replay.ScriptFile
import BrokerBridge.Session.Connect
import BrokerBridge.Session.Delivery
import BrokerBridge.Session.Operations

/-!
# Requests

What a rehearsal is asked to do, in its own steps or from inside the host's callbacks, and what
it answers.
-/

namespace BrokerBridge

inductive CodedCall where
  | start | openQueue | configureQueue | closeQueue | post | confirm
deriving DecidableEq, Repr

namespace CodedCall

def all : List CodedCall := [start, openQueue, configureQueue, closeQueue, post, confirm]

def name : CodedCall → String
  | start => "start"
  | openQueue => "open_queue"
  | configureQueue => "configure_queue"
  | closeQueue => "close_queue"
  | post => "post"
  | confirm => "confirm"

end CodedCall

inductive SessionRequest where
  | start (timeout : Option Duration)
  | stop (warn : Bool)
  /-- Stop on another thread while an operation is running. -/
  | stopElsewhere (warn : Bool)
  | openQueue (uri : String) (read write : Bool) (options : QueueOptions)
      (timeout : Option Duration)
  | configureQueue (uri : String) (options : QueueOptions) (timeout : Option Duration)
  | closeQueue (uri : String) (timeout : Option Duration)
  | queueOptions (uri : String)
  | post (uri : String) (payload : ByteArray) (properties : Option PropertySet)
      (onAck : Option Correlation)
  | confirm (uri : String) (guid : ByteArray)
  | isStarted

inductive StageRequest where
  | setCodes (codes : List (CodedCall × Int))
  | closeOnGet (value : Bool)
  | push (batch : List ScriptedPush)
  | ack (batch : List ScriptedAck)
  | loadScript (files : Files) (path : String)
  | expect (call : NativeCall)
  | checkSatisfied
  | holders (token : Correlation)
  /-- Every report of the bridge itself so far. -/
  | reports
  | setHealth (health : HealthState)

inductive Request where
  | session (r : SessionRequest)
  | stage (r : StageRequest)
  /-- Confirm every message of the batch being delivered. -/
  | confirmAll

def SessionRequest.name : SessionRequest → String
  | start _ => "start"
  | stop _ => "stop"
  | stopElsewhere _ => "stop_elsewhere"
  | openQueue .. => "open"
  | configureQueue .. => "configure"
  | closeQueue .. => "close"
  | queueOptions _ => "get_options"
  | post .. => "post"
  | confirm .. => "confirm"
  | isStarted => "is_started"

def StageRequest.name : StageRequest → String
  | setCodes _ => "codes"
  | closeOnGet _ => "close_on_get"
  | push _ => "push"
  | ack _ => "ack"
  | loadScript .. => "load_script"
  | expect _ => "expect"
  | checkSatisfied => "assert_satisfied"
  | holders _ => "holders"
  | reports => "diagnostics"
  | setHealth .healthy => "set_healthy"
  | setHealth .unhealthy => "set_unhealthy"

def Request.name : Request → String
  | session r => r.name
  | stage r => r.name
  | confirmAll => "confirm_all"

inductive Answer where
  | none
  | done
  | flag (b : Bool)
  | count (n : Nat)
  | listeners (n : Nat)
  | texts (l : List String)
  | queueOptions (o : QueueOptions)
  /-- With the monitor's state at that moment, whether the client was made with the options of
  the connection, and whether the session is started. -/
  | connected (c : Connection) (health : HealthState) (sameOptions started : Bool)
  | dropped (wasThere : Bool)
  | failed (e : SessionError)
  | postFailed (f : PostFailure)
  | badScript (f : ScriptFault)
  | panicked (cause : Panic)
  /-- There is no session. -/
  | noSession
  /-- Not carried out where it is asked for. -/
  | refused

structure Reaction where
  kind : DeliveryKind
  request : Request
  answer : Answer

/-- What the host's own code did: the requests its callbacks made, in the order in which they
were answered, and the tokens it has made. -/
structure HostDiary where
  reactions : List Reaction := []
  tokens : List Correlation := []

end BrokerBridge
