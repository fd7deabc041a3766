import LibraryRegistry.ConfigFault
import LibraryRegistry.Files
import LibraryRegistry.Json.Shape

/-!
# Options

The settings as they are written down: each may be left out, and nothing is checked but their kinds.
Options from several sources are laid over each other before a configuration is made of them.
-/

namespace LibraryRegistry

/-- Settings that may each be left out. -/
@[ext]
structure Options where
  host : Option String := none
  port : Option Int64 := none
  /-- The deadline of a call in milliseconds. -/
  timeout : Option UInt64 := none
  /-- The deadline of connecting in milliseconds. -/
  connectTimeout : Option UInt64 := none
  deriving DecidableEq, Repr, Inhabited

namespace Options

open Json in
/-- Options in JSON. Other members than these four are refused. -/
def shape : Shape Options where
  title := "struct RegistryOptions"
  strict := true
  fields := [
    .storing "host" (.optional .text) fun o host => { o with host },
    .storing "port" (.optional .int64) fun o port => { o with port },
    .storing "timeout_ms" (.optional .uint64) fun o timeout => { o with timeout },
    .storing "connect_timeout_ms" (.optional .uint64) fun o connectTimeout =>
      { o with connectTimeout }]

/-- Reads options from JSON. -/
def ofJson (text : String) : Except ConfigFault Options :=
  match (shape.reader {}).parse text with
  | .error e => .error (.invalidOptions e)
  | .ok options => .ok options

/-- Reads options from a file. -/
def load (files : Files) (path : String) : Except ConfigFault Options :=
  match files.text path with
  | .error fault => .error (.unreadable path fault.message)
  | .ok text => ofJson text

/-- Lays other options over these: what the others set counts. -/
def merge (o other : Options) : Options where
  host := other.host <|> o.host
  port := other.port <|> o.port
  timeout := other.timeout <|> o.timeout
  connectTimeout := other.connectTimeout <|> o.connectTimeout

/-- Lays an options text over these options; a text that cannot be read changes nothing. -/
def layer (o : Options) (text : String) : Options :=
  match ofJson text with
  | .error _ => o
  | .ok other => o.merge other

/-- Lays options texts over these options one after the other. -/
def layerAll (o : Options) (texts : List String) : Options := texts.foldl layer o

/-- The outcome of each text that is laid over these options: the options so far, or what is wrong
with the text. -/
def history (o : Options) : List String → List (Except ConfigFault Options)
  | [] => []
  | text :: texts => (ofJson text).map o.merge :: history (o.layer text) texts

end Options

end LibraryRegistry
