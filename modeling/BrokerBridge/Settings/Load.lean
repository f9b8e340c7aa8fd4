import BrokerBridge.Files
import BrokerBridge.Settings.Document

/-!
# Settings files

Where a host's settings come from: the file that the environment names, or else the first one of
some candidates that is there. Exactly one file is looked into.
-/

namespace BrokerBridge

structure LoadedSettings where
  settings : Settings
  source : String
deriving DecidableEq, Repr

namespace Settings

def ofFile (files : Files) (path : String) : Except SettingsError LoadedSettings := do
  match files.readText? path with
  | none => .error (.unreadable path)
  | some text => return ⟨← parse (some path) text, path⟩

/-- The file to look into. What the environment names goes first, unless it is blank. -/
def source? (files : Files) (named : Option String) (candidates : List String) : Option String :=
  (named.filter (!Text.isBlank ·)).or (candidates.find? files.exists?)

def load (files : Files) (named : Option String) (candidates : List String) :
    Except SettingsError LoadedSettings :=
  match source? files named candidates with
  | some path => ofFile files path
  | none => .error (.noFile candidates)

end Settings

/-- Set up the log of a process: the directory is made only where a file is written. None where
it cannot be made. -/
def LogSettings.install? (l : LogSettings) (files : Files) : Option Files :=
  if l.fileOutput then files.makeDirectories? l.directory else some files

end BrokerBridge
