import LibraryRegistry.Dict
import LibraryRegistry.Text.Utf8

/-!
# Headers

What goes with a call or a reply beside its body. The keys of a call's headers are tokens without
regard to case, their values are printable texts; of a repeated key the last value counts. A few
keys belong to the protocol and cannot be set.
-/

namespace LibraryRegistry.Rpc

/-- Most bytes of a key. -/
def maxKeyBytes : Nat := 65535

/-- A character of a token. -/
def isTokenChar (c : Char) : Bool :=
  c.isAlphanum || "!#$%&'*+-.^_\x60|~".toList.contains c

/-- The ending of the keys whose values are bytes. -/
def binaryEnding : List Char := ['-', 'b', 'i', 'n']

/-- The key of a header with a text value, in lower case; `none` if it is no such key. -/
def headerKey? (key : String) : Option String :=
  let cs := key.toList
  let lower := cs.map Char.toLower
  if !cs.isEmpty && cs.length ≤ maxKeyBytes && cs.all isTokenChar
      && !binaryEnding.isSuffixOf lower then
    some (String.ofList lower)
  else none

/-- A character that may stand in the value of a header. -/
def isValueChar (c : Char) : Bool := c == '\t' || (0x20 ≤ c.toNat && c.toNat ≠ 0x7F)

/-- A text that can be the value of a header. -/
def isHeaderValue (value : String) : Bool := value.toList.all isValueChar

/-- The headers of a call, with keys in lower case. -/
abbrev Metadata := Dict String

/-- The keys that the protocol sets itself. -/
def reservedKeys : List String :=
  ["te", "content-type", "grpc-message", "grpc-message-type", "grpc-status"]

/-- The headers as they are sent: those of the caller without the reserved keys, and those of the
protocol. -/
def Metadata.sent (m : Metadata) : Metadata :=
  let kept := m.toList.filter fun h => !reservedKeys.contains h.1
  ((Dict.ofList kept).insert "te" "trailers").insert "content-type" "application/grpc"

/-- The key of the header that names how messages are compressed. -/
def encodingKey : String := "grpc-encoding"

/-- The complaint about a compression, given the header that names it. There is none but the one that
leaves messages as they are. -/
def encodingComplaint? (encoding : Option String) : Option String :=
  match encoding with
  | none => none
  | some "identity" => none
  | some e => some ("Content is compressed with \x60" ++ e ++ "\x60 which isn't supported")

end LibraryRegistry.Rpc
