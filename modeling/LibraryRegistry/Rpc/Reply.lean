import LibraryRegistry.Rpc.Frame
import LibraryRegistry.Rpc.Header
import LibraryRegistry.Text.Percent

/-!
# Replies

What a server sends back: headers, a body and trailers. How the call ended is told by the headers,
or else by the trailers: the number of a code and a percent-coded message. A call that failed is told
by the headers alone. A reply that tells nothing has been cut off.

Trailers come behind whole frames, as `ofMessage` has them; a body that breaks off has none.
-/

namespace LibraryRegistry.Rpc

/-- A reply. -/
structure Reply where
  headers : List (String × String) := []
  body : List UInt8 := []
  /-- What follows the body. -/
  trailers : List (String × String) := []
  deriving DecidableEq, Repr

namespace Reply

/-- The key of the header with the code. -/
def statusKey : String := "grpc-status"

/-- The key of the header with the message. -/
def messageKey : String := "grpc-message"

/-- The reply that tells a status. -/
def ofStatus (s : Status) : Reply where
  headers :=
    if s.message = "" then [(statusKey, toString s.code.number)]
    else [(statusKey, toString s.code.number),
      (messageKey, Text.percentEncode (Text.utf8 s.message))]

/-- The reply that carries a message. -/
def ofMessage (bytes : List UInt8) : Reply where
  body := encodeFrame bytes
  trailers := [(statusKey, toString Code.ok.number)]

/-- The first value of a key among headers or trailers. -/
def value? (headers : List (String × String)) (key : String) : Option String :=
  (headers.find? fun h => h.1.toList.map Char.toLower == key.toList).map (·.2)

/-- The text of a percent-coded message, or the complaint about it. -/
def decodeMessage (value : String) : Except String String :=
  let bytes := Text.percentDecode (Text.utf8 value)
  match Text.ofUtf8? bytes with
  | some s => .ok s
  | none => .error ((Text.Utf8Fault.find? bytes).elim "" Text.Utf8Fault.message)

/-- The status that headers or trailers tell, if they do. -/
def status? (headers : List (String × String)) : Option Status :=
  (value? headers statusKey).map fun code =>
    match decodeMessage ((value? headers messageKey).getD "") with
    | .ok message => ⟨.ofText code, message⟩
    | .error complaint =>
      ⟨.unknown, "Error deserializing status message header: " ++ complaint⟩

/-- The complaint about a reply without a message. -/
def noMessage : String := "Missing response message."

/-- The status of a reply that does not tell how the call ended. -/
def cutOff : Status :=
  ⟨.unknown, "protocol error: missing grpc-status trailer, stream was terminated without a final "
    ++ "status (possible truncation by a proxy or load balancer)"⟩

/-- Whether the trailers tell that the call went well. -/
def checkTrailers (r : Reply) : Except Status Unit :=
  match status? r.trailers with
  | none => .error cutOff
  | some status => if status.code = .ok then .ok () else .error status

/-- Reads the message of a reply whose trailers tell how the call ended. Faults of the body come
first. -/
def openResult {α : Type} (decode : List UInt8 → Except Wire.DecodeError α) (r : Reply) :
    Except Status α := do
  let messages ← readMessages .openReply decode r.body
  r.checkTrailers
  firstMessage noMessage messages

/-- Reads the message of a reply. -/
def result {α : Type} (decode : List UInt8 → Except Wire.DecodeError α) (r : Reply) :
    Except Status α :=
  match encodingComplaint? (value? r.headers encodingKey) with
  | some complaint => .error ⟨.unimplemented, complaint⟩
  | none =>
    match status? r.headers with
    | some status =>
      if status.code = .ok then readMessage .other decode noMessage r.body
      else .error status
    | none => r.openResult decode

end Reply

end LibraryRegistry.Rpc
