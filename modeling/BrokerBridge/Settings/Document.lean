import BrokerBridge.Settings.Basic
import BrokerBridge.Text.Toml.Reader

/-!
# Settings documents

Settings as a host writes them down. A setting that is left out keeps its default, members that
are no settings are passed over, and the first value of a wrong form is a fault.
-/

namespace BrokerBridge

inductive UnknownCompression where
  | code (c : Int)
  | name (n : String)
deriving DecidableEq, Repr

def UnknownCompression.message : UnknownCompression → String
  | code c => s!"Invalid message compression type {c}"
  | name n => s!"Invalid message compression type '{n}'"

inductive SettingsError where
  /-- No settings are written there: the text, or the file that it came from, is malformed. -/
  | malformed (path : Option String) (compression : Option UnknownCompression)
  | unreadable (path : String)
  | noFile (inspected : List String)
  | refused (fault : SettingsFault)
deriving DecidableEq, Repr

def SettingsError.message : SettingsError → String
  | malformed none _ => "failed to parse session configuration"
  | malformed (some path) _ => s!"failed to parse config file {path}"
  | unreadable path => s!"unable to read config file {path}"
  | noFile inspected => "no configuration files found. inspected: " ++ ", ".intercalate inspected
  | refused fault => fault.message

/-- A compression by its name, in letters of either case. -/
def Compression.ofName? (n : String) : Option Compression :=
  let lower := n.map Char.toLower
  if lower = "none" then some .none else if lower = "zlib" then some .zlib else Option.none

namespace Settings

/-- A value read from a document. A value of a wrong form names the compression if it was one
that does not exist. -/
abbrev Read (α : Type) := Except (Option UnknownCompression) α

def misfit {α : Type} : Read α := .error none

def readText : TomlValue → Read String
  | .string s => .ok s
  | _ => misfit

def readBool : TomlValue → Read Bool
  | .boolean b => .ok b
  | _ => misfit

def readCount : TomlValue → Read Int
  | .integer i => if Word.isSigned 32 i then .ok i else misfit
  | _ => misfit

def readSeconds (v : TomlValue) : Read Duration :=
  let x? := match v with
    | .integer i => some (Float.ofInt i)
    | .float x => some x
    | _ => none
  match x?.bind Duration.ofFloat? with
  | some d => .ok d
  | none => misfit

def readCompression : TomlValue → Read Compression
  | .integer i =>
      if Word.isSigned 32 i then
        match Compression.ofCode? i with
        | some c => .ok c
        | none => .error (some (.code i))
      else misfit
  | .string s =>
      match Compression.ofName? s with
      | some c => .ok c
      | none => .error (some (.name s))
  | _ => misfit

/-- The first two counts of an array. -/
def readWatermarks : TomlValue → Read (Int × Int)
  | .array (low :: high :: _) => return (← readCount low, ← readCount high)
  | _ => misfit

def readFormatName (s : String) : Read LogFormat :=
  if s = LogFormat.structuredJson.name then .ok .structuredJson
  else if s = LogFormat.pretty.name then .ok .pretty
  else misfit

def isHollow : TomlValue → Bool
  | .array [] | .inline [] | .table _ [] => true
  | _ => false

/-- A format by its name, which may also be the one key of a table with nothing in it. -/
def readFormat : TomlValue → Read LogFormat
  | .string s => readFormatName s
  | .inline [(s, v)] | .table _ [(s, v)] => if isHollow v then readFormatName s else misfit
  | _ => misfit

/-- The members of a group of settings: by name, or by position in the order of `names`. -/
def readGroup (names : List String) : TomlValue → Read TomlEntries
  | .inline entries | .table _ entries => .ok entries
  | .array items => .ok (names.zip items)
  | .tables elements => .ok (names.zip (elements.map .inline))
  | .datetime => .ok []
  | _ => misfit

def readTimeout (t : Timeouts (Option Duration)) (entry : String × TomlValue) :
    Read (Timeouts (Option Duration)) :=
  match TimedCall.all.find? (·.name == entry.1) with
  | none => .ok t
  | some call => do
      let d ← readSeconds entry.2
      return .ofFn fun c => if c = call then some d else t.get c

def readTimeouts (v : TomlValue) : Read (Timeouts (Option Duration)) := do
  (← readGroup (TimedCall.all.map (·.name)) v).foldlM readTimeout (.ofFn fun _ => none)

def readLogSetting (l : LogSettings) (entry : String × TomlValue) : Read LogSettings :=
  match entry with
  | ("directory", v) => return { l with directory := ← readText v }
  | ("format", v) => return { l with format := ← readFormat v }
  | ("file_prefix", v) => return { l with filePrefix := some (← readText v) }
  | ("file_output", v) => return { l with fileOutput := ← readBool v }
  | _ => .ok l

def readLogging (v : TomlValue) : Read LogSettings := do
  (← readGroup ["directory", "format", "file_prefix", "file_output"] v).foldlM readLogSetting {}

def readSetting (s : Settings) (entry : String × TomlValue) : Read Settings :=
  match entry with
  | ("broker_uri", v) => return { s with brokerUri := ← readText v }
  | ("process_name_override", v) => return { s with processName := some (← readText v) }
  | ("message_compression", v) => return { s with compression := ← readCompression v }
  | ("num_processing_threads", v) => return { s with processingThreads := some (← readCount v) }
  | ("blob_buffer_size", v) => return { s with blobBufferSize := some (← readCount v) }
  | ("channel_high_watermark", v) =>
      return { s with channelHighWatermark := some (← readCount v) }
  | ("event_queue_watermarks", v) =>
      return { s with eventQueueWatermarks := some (← readWatermarks v) }
  | ("stats_dump_interval", v) => return { s with statsDumpInterval := some (← readSeconds v) }
  | ("timeouts", v) => return { s with timeouts := ← readTimeouts v }
  | ("monitor_host_health", v) => return { s with monitorHostHealth := ← readBool v }
  | ("warnings_as_errors", v) => return { s with warningsAsErrors := ← readBool v }
  | ("logging", v) => return { s with logging := ← readLogging v }
  | _ => .ok s

def ofEntries (e : TomlEntries) : Read Settings := e.foldlM readSetting {}

def read (text : String) : Read Settings :=
  match TomlEntries.parse? text with
  | some e => ofEntries e
  | none => misfit

def checked (s : Settings) : Except SettingsError Settings :=
  match s.fault? with
  | none => .ok s
  | some fault => .error (.refused fault)

/-- The usable settings of a text, which came from a file or from elsewhere. -/
def parse (path : Option String) (text : String) : Except SettingsError Settings :=
  match read text with
  | .ok s => s.checked
  | .error compression => .error (.malformed path compression)

end Settings

end BrokerBridge
