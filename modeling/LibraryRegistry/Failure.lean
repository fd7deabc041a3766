import LibraryRegistry.Rpc.Call

/-!
# Failures of a look-up

How a look-up can fail, as the client tells it.
-/

namespace LibraryRegistry

/-- Why a look-up failed. -/
inductive Failure
  | invalidRequest (complaint : String)
  | invalidEndpoint (uri : String) (cause : String)
  | connection (address : String) (cause : String)
  | timeout (address : String) (deadline : Duration)
  /-- The registry answered with an error. -/
  | remote (status : Rpc.Status)
  | request (fault : Rpc.CallFault)
  | runtime (cause : String)
  deriving DecidableEq, Repr

namespace Failure

/-- The wording of a failure. -/
def message : Failure → String
  | invalidRequest complaint => "Invalid request: " ++ complaint
  | invalidEndpoint uri cause => "Invalid registry URI '" ++ uri ++ "': '" ++ cause ++ "'"
  | connection address cause => "Failed to connect to '" ++ address ++ "': '" ++ cause ++ "'"
  | timeout address deadline => "No response from '" ++ address ++ "' within " ++ deadline.text
  | remote status =>
    "Registry returned an error: code=" ++ status.code.name ++ " message="
      ++ Text.quote status.message
  | request fault => "Failed to build the request: '" ++ fault.message ++ "'"
  | runtime cause => "Failed to start the client runtime: '" ++ cause ++ "'"

/-- The failure behind a status: a registry that is unavailable was not reached, and one that passed
a deadline did not answer in time. -/
def ofStatus (address : String) (deadline : Duration) (s : Rpc.Status) : Failure :=
  match s.code with
  | .unavailable => connection address s.text
  | .deadlineExceeded => timeout address deadline
  | _ => remote s

/-- The status with which the registry answered, if it did. -/
def status? : Failure → Option Rpc.Status
  | remote status => some status
  | _ => none

end Failure

end LibraryRegistry
