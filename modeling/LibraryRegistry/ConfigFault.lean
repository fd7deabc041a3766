import LibraryRegistry.Json.Fault

/-!
# Faults of a configuration

Why an endpoint, an options text or the options themselves make no configuration.
-/

namespace LibraryRegistry

/-- What a deadline is set for. -/
inductive Deadline
  | call
  | connection
  deriving DecidableEq, Repr

/-- The option that sets a deadline. -/
def Deadline.option : Deadline → String
  | call => "timeout"
  | connection => "connect_timeout"

/-- Why there is no configuration. -/
inductive ConfigFault
  | missingHost
  | missingPort
  | emptyHost
  | invalidHost (host : String)
  | invalidPort (port : Int)
  | zeroDeadline (deadline : Deadline)
  /-- The options file cannot be read, for the given reason. -/
  | unreadable (path : String) (reason : String)
  | invalidOptions (e : Json.Error)
  deriving DecidableEq, Repr

/-- The wording of a fault. -/
def ConfigFault.message : ConfigFault → String
  | missingHost => "Missing required option 'host'"
  | missingPort => "Missing required option 'port'"
  | emptyHost => "Host must not be empty"
  | invalidHost host => "Host '" ++ host ++ "' is not a valid hostname or IP address"
  | invalidPort port => s!"Port {port} is out of range, expected 1-65535"
  | zeroDeadline deadline => "Option '" ++ deadline.option ++ "' must be greater than zero"
  | unreadable path reason => "Failed to read options file '" ++ path ++ "': '" ++ reason ++ "'"
  | invalidOptions e => "Invalid options: '" ++ e.message ++ "'"

end LibraryRegistry
