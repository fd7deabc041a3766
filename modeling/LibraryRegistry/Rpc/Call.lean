import LibraryRegistry.Config
import LibraryRegistry.Server

/-!
# Calls

One request and its answer. Before a request is sent, its path, then its headers in their order, then
the readiness of the server are looked at; the first fault ends the call and nothing is sent.
-/

namespace LibraryRegistry.Rpc

/-- Why a request was not sent. -/
inductive CallFault
  | notReady (reason : String)
  | invalidPath (path : String) (fault : Net.TargetFault)
  | invalidKey (key : String)
  | invalidValue (key : String)
  deriving DecidableEq, Repr

/-- The wording of a fault. -/
def CallFault.message : CallFault → String
  | notReady reason => "Internal error, the client was not ready: '" ++ reason ++ "'"
  | invalidPath path fault =>
    "Invalid gRPC method path '" ++ path ++ "': '" ++ fault.message ++ "'"
  | invalidKey key =>
    "Invalid metadata (header) key '" ++ key ++ "': 'invalid gRPC metadata key name'"
  | invalidValue key =>
    "Invalid metadata (header) value for key '" ++ key ++ "': 'failed to parse metadata value'"

/-- Adds a header, its key in lower case. -/
def addHeader (m : Metadata) (h : Header) : Except CallFault Metadata :=
  match headerKey? h.1 with
  | none => .error (.invalidKey h.1)
  | some key => if isHeaderValue h.2 then .ok (m.insert key h.2) else .error (.invalidValue h.1)

/-- The headers of a call. -/
def metadataOf (headers : List Header) : Except CallFault Metadata :=
  headers.foldlM addHeader .empty

/-- What came back for a request, and when. -/
structure Answer where
  result : Except Status Record
  delay : Duration

/-- Sends a look-up to a path of a server. -/
def call (server : Server) (path : String) (headers : List Header) (l : Lookup) :
    Except CallFault Answer :=
  match Net.Target.parse path with
  | .error fault => .error (.invalidPath path fault)
  | .ok target =>
    match metadataOf headers with
    | .error fault => .error fault
    | .ok metadata =>
      match server.unreadiness? with
      | some reason => .error (.notReady reason)
      | none =>
        match server.respond ⟨target, metadata.sent, encodeFrame l.encode⟩ with
        | .error reason => .ok ⟨.error ⟨.unknown, reason⟩, ⟨0⟩⟩
        | .ok response => .ok ⟨response.reply.result Record.decode, response.delay⟩

end LibraryRegistry.Rpc
