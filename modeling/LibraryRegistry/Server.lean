import LibraryRegistry.Duration
import LibraryRegistry.Net.Target
import LibraryRegistry.Record.Binary
import LibraryRegistry.Registry
import LibraryRegistry.Rpc.Reply

/-!
# Servers

What can be at the other end of a call: a registry, a few servers with fixed answers, and ones that
fail. A server is data; `Server.respond` says what comes back for a request, and when.
-/

namespace LibraryRegistry

/-- The path under which look-ups are answered. -/
def lookupPath : String := "/plm.registry.v1.RegistryService/Metadata"

/-- A request as it reaches a server. -/
structure Request where
  target : Net.Target
  metadata : Rpc.Metadata
  body : List UInt8
  deriving DecidableEq

/-- How a service answers a look-up. -/
inductive Service
  /-- A registry that answers after a while. -/
  | registry (records : Registry) (delay : Duration)
  /-- Sends the headers of the request back as the description of a record. -/
  | echo
  /-- Refuses every look-up. -/
  | refusing (status : Rpc.Status)
  deriving DecidableEq

/-- The other end of a call. -/
inductive Server
  | service (s : Service)
  /-- Never ready for a call, for the given reason. -/
  | notReady (reason : String)
  /-- Ready, but calls get lost, for the given reason. -/
  | failing (reason : String)
  /-- Answers everything with the same reply. -/
  | fixed (reply : Rpc.Reply)
  deriving DecidableEq

/-- A reply and how long it takes to come. -/
structure Response where
  reply : Rpc.Reply
  delay : Duration
  deriving DecidableEq

/-- The headers as lines `key=value` in ascending order. -/
def metadataLines (m : Rpc.Metadata) : List String :=
  (m.toList.map fun (key, value) => key ++ "=" ++ value).mergeSort fun a b => decide (a ≤ b)

namespace Service

/-- Answers a look-up. -/
def answer (s : Service) (metadata : Rpc.Metadata) (l : Lookup) : Except Rpc.Status Record :=
  match s with
  | .registry records _ => records.answer l
  | .echo =>
    .ok { name := l.library, description := "\n".intercalate (metadataLines metadata) }
  | .refusing status => .error status

/-- How long an answer takes. -/
def delay : Service → Duration
  | .registry _ delay => delay
  | _ => ⟨0⟩

/-- Reads the look-up of a request. -/
def readLookup (r : Request) : Except Rpc.Status Lookup :=
  match Rpc.encodingComplaint? (r.metadata.find? Rpc.encodingKey) with
  | some complaint => .error ⟨.unimplemented, complaint⟩
  | none => Rpc.readMessage .other Lookup.decode "Missing request message." r.body

/-- Responds to a request. Only look-ups take their time. -/
def respond (s : Service) (r : Request) : Response :=
  if r.target.path ≠ lookupPath then ⟨.ofStatus ⟨.unimplemented, ""⟩, ⟨0⟩⟩
  else
    match readLookup r with
    | .error status => ⟨.ofStatus status, ⟨0⟩⟩
    | .ok lookup =>
      match s.answer r.metadata lookup with
      | .error status => ⟨.ofStatus status, s.delay⟩
      | .ok record => ⟨.ofMessage record.encode, s.delay⟩

end Service

namespace Server

/-- Why a server is not ready, if it is not. -/
def unreadiness? : Server → Option String
  | notReady reason => some reason
  | _ => none

/-- What comes back for a request; a request may get lost for a reason. -/
def respond (s : Server) (r : Request) : Except String Response :=
  match s with
  | service s => .ok (s.respond r)
  | notReady reason | failing reason => .error reason
  | fixed reply => .ok ⟨reply, ⟨0⟩⟩

end Server

end LibraryRegistry
