import LibraryRegistry.ConfigFault
import LibraryRegistry.Net.Ipv6
import LibraryRegistry.Net.Uri
import LibraryRegistry.Text.Blank

/-!
# Endpoints

Where a registry listens: a host and a port. A host is good if the URI made from it reads back as
this host, this port and no path; a host with colons has to be an IPv6 literal.
-/

namespace LibraryRegistry

/-- The host without one pair of brackets around it. -/
def bareHost (host : List Char) : List Char :=
  match host with
  | '[' :: rest => if rest.getLast? = some ']' then rest.dropLast else host
  | _ => host

/-- The host and the port, with brackets around an IPv6 literal that has none. -/
def renderAddress (host : String) (port : UInt16) : String :=
  if host.toList.contains ':' && host.toList.head? != some '[' then
    "[" ++ host ++ "]:" ++ toString port.toNat
  else host ++ ":" ++ toString port.toNat

/-- The URI of an address. -/
def renderUri (host : String) (port : UInt16) : String := "http://" ++ renderAddress host port

/-- A text without the opening brackets in front and the closing ones at the end. -/
def dropBrackets (cs : List Char) : List Char :=
  ((cs.dropWhile (· == '[')).reverse.dropWhile (· == ']')).reverse

/-- Whether host and port make a URI that reads back as this host and this port. -/
def isAddress (host : String) (port : UInt16) : Bool :=
  let bare := bareHost host.toList
  if bare.contains ':' && !Net.Ipv6.isLiteral bare then false
  else
    match Net.Uri.parse? (renderUri host port) with
    | none => false
    | some uri =>
      dropBrackets uri.host == bare && uri.port? == some port && uri.path == "/"

/-- The address of a registry. -/
structure Endpoint where
  host : String
  port : UInt16
  notBlank : Text.isAllBlank host = false
  port_ne_zero : port ≠ 0
  isAddress : isAddress host port = true
  deriving DecidableEq

namespace Endpoint

/-- The endpoint at a host and a port. -/
def ofHostPort (host : String) (port : UInt16) : Except ConfigFault Endpoint :=
  if hb : Text.isAllBlank host = true then .error .emptyHost
  else if hp : port = 0 then .error (.invalidPort 0)
  else if ha : LibraryRegistry.isAddress host port = true then
    .ok ⟨host, port, by simpa using hb, hp, ha⟩
  else .error (.invalidHost host)

/-- The text of an endpoint. -/
def render (e : Endpoint) : String := renderAddress e.host e.port

/-- The URI of an endpoint. -/
def uri (e : Endpoint) : String := renderUri e.host e.port

end Endpoint

end LibraryRegistry
