import LibraryRegistry.Client
import LibraryRegistry.CommandLine.Reader
import LibraryRegistry.CommandLine.Values
import LibraryRegistry.Program.Run
import LibraryRegistry.Report

/-!
# The look-up program

Looks one library up and prints its record. The configuration comes from an options file, from
options on the command line, or from both; the command line counts more.

A run goes through the stages configuration, connection and call; the first that fails is reported. A
run takes a printer, since nothing fixes the order in which a record's maps are printed.
-/

namespace LibraryRegistry.Program.LookUp

open CommandLine

/-! ## The command line -/

/-- What the command line says. -/
structure Arguments where
  library : String := ""
  host : Option String := none
  port : Option Int64 := none
  /-- The path of the options file. -/
  config : Option String := none
  timeout : Option UInt64 := none
  connectTimeout : Option UInt64 := none
  /-- The headers in the order in which they were given. -/
  headers : List Header := []
  verbosity : Nat := 0
  quiet : Bool := false
  deriving DecidableEq, Repr

/-- The complaint about a header without a colon. -/
def headerForm : String := "Format must be 'key:value'"

/-- Reads a header: key and value around the first colon, without blanks at their ends. -/
def header (s : String) : Except ValueFault Header :=
  match splitAtFirst ':' s.toList with
  | (_, none) => .error (.rejected headerForm)
  | (key, some value) =>
    .ok (String.ofList (Text.trim key), String.ofList (Text.trim value))

/-- The command. -/
def command : Command Arguments where
  name := "plm-meta"
  version := "0.1.0"
  positional := some ⟨"library", fun a library => { a with library }⟩
  required := ["library"]
  parameters := [
    { long := "host", valueName := "HOST",
      action := .store <| storing anyText fun a host => { a with host := some host } },
    { long := "port", valueName := "PORT",
      action := .store <| storing int64 fun a port => { a with port := some port } },
    { long := "config", valueName := "CONFIG",
      action := .store <| storing path fun a config => { a with config := some config } },
    { long := "timeout-ms", valueName := "TIMEOUT_MS",
      action := .store <| storing uint64 fun a timeout => { a with timeout := some timeout } },
    { long := "connect-timeout-ms", valueName := "CONNECT_TIMEOUT_MS",
      action := .store <| storing uint64 fun a timeout =>
        { a with connectTimeout := some timeout } },
    { long := "header", short := some 'H', valueName := "HEADERS",
      action := .append <| storing header fun a h => { a with headers := a.headers ++ [h] } },
    { long := "verbose", short := some 'v',
      action := .count fun a => { a with verbosity := countUp a.verbosity } },
    { long := "quiet", short := some 'q',
      action := .switch fun a => { a with quiet := true } }] ++ standardParameters

namespace Arguments

/-- Reads the arguments. -/
def read (arguments : List String) : Except Fault Arguments := command.read {} arguments

/-- The options on the command line. -/
def options (a : Arguments) : Options where
  host := a.host
  port := a.port
  timeout := a.timeout
  connectTimeout := a.connectTimeout

/-- The options in the options file, if there is one. -/
def fileOptions (a : Arguments) (files : Files) : Except ConfigFault Options :=
  match a.config with
  | none => .ok {}
  | some path => Options.load files path

/-- The configuration that the arguments and the options file describe. -/
def clientConfig (a : Arguments) (files : Files) : Except ConfigFault Config := do
  let file ← a.fileOptions files
  let config ← Config.ofOptions (file.merge a.options)
  .ok (a.headers.foldl Config.withHeader config)

end Arguments

/-! ## The run -/

/-- What is around a run. -/
structure Environment where
  files : Files
  network : Network
  /-- Whether labels are coloured. -/
  color : Bool := false

/-- Who logs about connecting and calling. -/
def source : String := "registry_client::client"

/-- Logged before connecting. -/
def connecting (c : Config) : LogLine :=
  ⟨.debug, source, "connecting to registry endpoint=" ++ c.endpoint.render⟩

/-- Logged before a call. -/
def sending (c : Config) (library : String) : LogLine :=
  ⟨.debug, source, "sending metadata request library=" ++ library ++ " addr=" ++ c.endpoint.render⟩

/-- A run that fails. -/
def failed (r : Report) (log : List LogLine) : Run where
  exitCode := 1
  diagnostics := r.text ++ "\n"
  log := log

/-- A run that prints a record. -/
def printed (p : Printer) (r : Record) (log : List LogLine) : Run where
  exitCode := 0
  output := (Report.ofRecord r p).text ++ "\n"
  log := log

/-- The call of a run. -/
def callStage (e : Environment) (p : Printer) (c : Client) (library : String)
    (log : List LogLine) : Run :=
  let log := if library = "" then log else log ++ [sending c.config library]
  match (c.lookUp library).result with
  | .ok record => printed p record log
  | .error failure => failed (.ofFailure e.color failure) log

/-- All that a run does, with all that it could log. -/
def stages (e : Environment) (p : Printer) (a : Arguments) : Run :=
  match a.clientConfig e.files with
  | .error fault => failed (.ofConfigFault e.color fault) []
  | .ok config =>
    match Client.connect e.network config with
    | .error failure => failed (.ofFailure e.color failure) [connecting config]
    | .ok client => callStage e p client a.library [connecting config]

/-- A run with arguments that have been read. -/
def runWith (e : Environment) (a : Arguments) (p : Printer := .ascending) : Run :=
  let r := stages e p a
  { r with log := shownLines a.quiet a.verbosity r.log }

/-- A run of the program. -/
def run (e : Environment) (arguments : List String) (p : Printer := .ascending) : Attempt :=
  (Arguments.read arguments).map fun a => runWith e a p

end LibraryRegistry.Program.LookUp
