import LibraryRegistry.CommandLine.Reader
import LibraryRegistry.CommandLine.Values
import LibraryRegistry.Duration
import LibraryRegistry.Files
import LibraryRegistry.Program.Run
import LibraryRegistry.Registry

/-!
# The serving program

Serves the records of a file until it is interrupted. A run goes through the stages records, binding
and serving; the first that fails is reported together with its cause.
-/

namespace LibraryRegistry.Program.Serve

open CommandLine

/-- What the command line says. -/
structure Arguments where
  /-- The path of the file with the records. -/
  fixtures : String := ""
  host : String := "127.0.0.1"
  port : UInt16 := 7575
  verbosity : Nat := 0
  quiet : Bool := false
  deriving DecidableEq, Repr

/-- The command. -/
def command : Command Arguments where
  name := "registry-stub"
  version := "0.1.0"
  required := ["fixtures"]
  parameters := [
    { long := "fixtures", valueName := "FIXTURES",
      action := .store <| storing path fun a fixtures => { a with fixtures } },
    { long := "host", valueName := "HOST",
      action := .store <| storing anyText fun a host => { a with host } },
    { long := "port", valueName := "PORT",
      action := .store <| storing uint16 fun a port => { a with port } },
    { long := "verbose", short := some 'v',
      action := .count fun a => { a with verbosity := countUp a.verbosity } },
    { long := "quiet", short := some 'q',
      action := .switch fun a => { a with quiet := true } }] ++ standardParameters

/-- Reads the arguments. -/
def Arguments.read (arguments : List String) : Except Fault Arguments := command.read {} arguments

/-- What is around a run. -/
structure Environment where
  files : Files
  /-- The address at which a host and a port are bound, or why they cannot be. -/
  bind : String → UInt16 → Except String String

/-- The report of a failure and its cause. -/
def failureText (complaint cause : String) : String :=
  "Error: " ++ complaint ++ "\n\nCaused by:\n    " ++ cause ++ "\n"

/-- A run that fails. -/
def failed (complaint cause : String) (log : List LogLine) : Run where
  exitCode := 1
  diagnostics := failureText complaint cause
  log := log

/-- Logged when the records have been read. -/
def loaded (r : Registry) : LogLine :=
  ⟨.info, "registry_stub", "loaded fixtures libraries=" ++ toString r.size⟩

/-- Logged when the program can be called. -/
def listening (address : String) : LogLine :=
  ⟨.info, "registry_proto::stub", "stub registry listening addr=" ++ address⟩

/-- Logged when the program is interrupted. -/
def shuttingDown : LogLine := ⟨.info, "registry_stub", "shutting down"⟩

/-- The records that are served. -/
def registry (e : Environment) (a : Arguments) : Except (String × String) Registry :=
  match e.files.text a.fixtures with
  | .error fault => .error ("Failed to read fixtures '" ++ a.fixtures ++ "'", fault.message)
  | .ok text =>
    match Registry.ofJson text with
    | .error fault => .error (Registry.faultMessage fault, fault.message)
    | .ok registry => .ok registry

/-- All that a run does, without the calls that it answers, with all that it could log. -/
def stages (e : Environment) (a : Arguments) : Run :=
  match registry e a with
  | .error (complaint, cause) => failed complaint cause []
  | .ok registry =>
    match e.bind a.host a.port with
    | .error cause =>
      failed ("Failed to bind " ++ a.host ++ ":" ++ toString a.port.toNat) cause [loaded registry]
    | .ok address =>
      { exitCode := 0, log := [loaded registry, listening address, shuttingDown] }

/-- A run with arguments that have been read; more is shown than by other programs. -/
def runWith (e : Environment) (a : Arguments) : Run :=
  let r := stages e a
  { r with log := shownLines a.quiet (countUp a.verbosity) r.log }

/-- A run of the program that is interrupted in the end. -/
def run (e : Environment) (arguments : List String) : Attempt :=
  (Arguments.read arguments).map (runWith e)

end LibraryRegistry.Program.Serve
