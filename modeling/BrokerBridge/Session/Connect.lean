import BrokerBridge.Session.Run
import BrokerBridge.Settings.Load

/-!
# Making a session

Settings are checked before anything else happens. Then the log is set up, where that is asked
for, and last the client is created with the options that the settings stand for.
-/

namespace BrokerBridge

structure Connection where
  options : ClientOptions
  compression : Compression
deriving DecidableEq, Repr

namespace Settings

/-- The session that settings ask for. Watching a health monitor means that the host's health is
monitored. -/
def connection (s : Settings) (executable : String) (watching : Bool) :
    Except SessionError Connection :=
  match s.fault? with
  | some fault => .error (.invalidConfig (.settings fault))
  | none =>
      let options := ClientOptions.ofSettings executable s
      .ok ⟨if watching then options.watching else options, s.compression⟩

def installLog (s : Settings) (files : Files) : Except SessionError Files :=
  match s.fault? with
  | some fault => .error (.invalidConfig (.settings fault))
  | none =>
      match s.logging.install? files with
      | some files => .ok files
      | none => .error (.invalidConfig .logging)

end Settings

/-- The failure of a client that could not be created; the innermost cause comes first. -/
def SessionError.refusedConnection (causes : List String) : SessionError :=
  .ofNative (.create causes.reverse) Code.unknown

/-- What creates clients, given their options. Where it cannot create one it answers why, the
innermost cause first. -/
abbrev Connector (ν : Type) := ClientOptions → Act ν (Except (List String) Unit)

/-- Make a session, for which no log is set up. It is not started. -/
def Settings.connect {ν : Type} (s : Settings) (executable : String) (watching : Bool)
    (connector : Connector ν) : Act ν (Except SessionError Connection) := do
  match s.connection executable watching with
  | .error e => return .error e
  | .ok c =>
      match ← Act.outsideHost (connector c.options) with
      | .error causes => return .error (.refusedConnection causes)
      | .ok () =>
          Act.modifyGate fun _ => {}
          return .ok c

end BrokerBridge
