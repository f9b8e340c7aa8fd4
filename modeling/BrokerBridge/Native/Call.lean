import BrokerBridge.Message.Basic
import BrokerBridge.Property.Codec

/-!
# Native calls

A call made on the broker's client, with its arguments, as a rehearsal records and expects it.
-/

namespace BrokerBridge

inductive NativeCall where
  | start (timeout : Duration)
  | stop
  | openQueue (uri : String) (flags : QueueFlags) (options : QueueOptions) (timeout : Duration)
  | configureQueue (uri : String) (options : QueueOptions) (timeout : Duration)
  | closeQueue (uri : String) (timeout : Duration)
  /-- A queue closed by the client itself right after it was looked up. -/
  | closeOnGet (uri : String)
  /-- The first message of a posted event. -/
  | post (uri : String) (payload : ByteArray) (properties : PropertySet)
      (compression : Compression)
  | confirm (uri : String) (guid : Guid)

namespace NativeCall

def name : NativeCall → String
  | start _ => "start"
  | stop => "stop"
  | openQueue .. => "openQueueSync"
  | configureQueue .. => "configureQueueSync"
  | closeQueue .. | closeOnGet _ => "closeQueueSync"
  | post .. => "post"
  | confirm .. => "confirmMessage"

/-- The call that posts an event. Properties that cannot be decoded are left out. -/
def ofPosted (e : MessageEvent) : NativeCall :=
  match e.messages with
  | [] => .post "" .empty .empty .none
  | m :: _ =>
      .post m.queue.uri m.payload
        (match m.properties with
          | some wire => (Property.decode wire).1
          | none => .empty)
        m.compression

/-- Property sets agree as maps, in whatever order they list their keys. -/
def sameProperties (s t : PropertySet) : Bool :=
  s.size == t.size && s.entries.all fun e => t.get? e.1 == some e.2

def agrees : NativeCall → NativeCall → Bool
  | start t, start t' => t == t'
  | stop, stop => true
  | openQueue u f o t, openQueue u' f' o' t' => u == u' && f == f' && o == o' && t == t'
  | configureQueue u o t, configureQueue u' o' t' => u == u' && o == o' && t == t'
  | closeQueue u t, closeQueue u' t' => u == u' && t == t'
  | closeOnGet u, closeOnGet u' => u == u'
  | post u p s c, post u' p' s' c' => u == u' && p == p' && sameProperties s s' && c == c'
  | confirm u g, confirm u' g' => u == u' && g == g'
  | _, _ => false

end NativeCall

end BrokerBridge
