import LibraryRegistry.Duration
import LibraryRegistry.Endpoint
import LibraryRegistry.Options

/-!
# Configurations

All that a client has to know: the endpoint, the deadlines of a call and of connecting, which are
never zero, and the headers that go with each call.
-/

namespace LibraryRegistry

/-- A header of a call: its key and its value. -/
abbrev Header := String × String

/-- The settings of a client. -/
structure Config where
  endpoint : Endpoint
  /-- The deadline of a call. -/
  timeout : Duration := .ofSeconds 30
  /-- The deadline of connecting. -/
  connectTimeout : Duration := .ofSeconds 5
  /-- The headers of each call, in the order in which they were added. -/
  headers : List Header := []
  timeout_ne_zero : timeout.nanos ≠ 0 := by decide
  connectTimeout_ne_zero : connectTimeout.nanos ≠ 0 := by decide
  deriving DecidableEq

namespace Config

/-- The configuration for an endpoint with the usual deadlines and no headers. -/
def ofEndpoint (endpoint : Endpoint) : Config where
  endpoint := endpoint

/-- The configuration for a host and a port. -/
def ofHostPort (host : String) (port : UInt16) : Except ConfigFault Config :=
  (Endpoint.ofHostPort host port).map ofEndpoint

/-- A deadline of a configuration. -/
def deadline (c : Config) : Deadline → Duration
  | .call => c.timeout
  | .connection => c.connectTimeout

/-- The configuration with another deadline. -/
def setDeadline (c : Config) (k : Deadline) (d : Duration) (h : d.nanos ≠ 0) : Config :=
  match k with
  | .call => { c with timeout := d, timeout_ne_zero := h }
  | .connection => { c with connectTimeout := d, connectTimeout_ne_zero := h }

/-- Sets a deadline, unless it is zero. -/
def withDeadline (c : Config) (k : Deadline) (d : Duration) : Except ConfigFault Config :=
  if h : d.nanos = 0 then .error (.zeroDeadline k) else .ok (c.setDeadline k d h)

/-- Sets the deadline of a call. -/
def withTimeout (c : Config) (timeout : Duration) : Except ConfigFault Config :=
  c.withDeadline .call timeout

/-- Sets the deadline of connecting. -/
def withConnectTimeout (c : Config) (timeout : Duration) : Except ConfigFault Config :=
  c.withDeadline .connection timeout

/-- Adds a header behind those that are there. -/
def withHeader (c : Config) (header : Header) : Config :=
  { c with headers := c.headers ++ [header] }

/-- A port number of sixteen bits. -/
def portOfInt (port : Int) : Except ConfigFault UInt16 :=
  if 0 ≤ port ∧ port ≤ 65535 then .ok (UInt16.ofNat port.toNat) else .error (.invalidPort port)

/-- Sets a deadline in milliseconds, if there is one. -/
def setMillis (k : Deadline) (ms : Option UInt64) (c : Config) : Except ConfigFault Config :=
  match ms with
  | none => .ok c
  | some ms => c.withDeadline k (.ofMillis ms.toNat)

/-- The configuration that options describe. Faults are looked for in the order host, port,
endpoint, deadline of a call, deadline of connecting. -/
def ofOptions (o : Options) : Except ConfigFault Config := do
  let host ← o.host.elim (.error .missingHost) .ok
  let port ← o.port.elim (.error .missingPort) .ok
  let port ← portOfInt port.toInt
  let c ← ofHostPort host port
  let c ← setMillis .call o.timeout c
  setMillis .connection o.connectTimeout c

/-- Reads a configuration from JSON. -/
def ofJson (text : String) : Except ConfigFault Config := Options.ofJson text >>= ofOptions

/-- Reads a configuration from a file. -/
def load (files : Files) (path : String) : Except ConfigFault Config :=
  Options.load files path >>= ofOptions

/-! ## Changes -/

/-- A change of a configuration. -/
inductive Step
  | timeout (d : Duration)
  | connectTimeout (d : Duration)
  | header (h : Header)
  deriving DecidableEq, Repr

/-- Makes one change. -/
def apply (c : Config) : Step → Except ConfigFault Config
  | .timeout d => c.withTimeout d
  | .connectTimeout d => c.withConnectTimeout d
  | .header h => .ok (c.withHeader h)

/-- Makes changes one after the other and gives the outcome of each; a change that fails leaves the
configuration as it was. -/
def history (c : Config) : List Step → List (Except ConfigFault Config)
  | [] => []
  | s :: steps =>
    match c.apply s with
    | .error fault => .error fault :: history c steps
    | .ok c' => .ok c' :: history c' steps

/-- Makes changes one after the other up to the first that fails. -/
def applyAll (c : Config) (steps : List Step) : Except ConfigFault Config := steps.foldlM apply c

end Config

end LibraryRegistry
