import LibraryRegistry.Failure

/-!
# The client

A client pairs a configuration with a server and looks libraries up. Each look-up is one call, which
is given up when its answer takes longer than the deadline; time is only counted, nothing waits.

A `Network` says who can be reached where. Connecting eagerly fails at once if nobody is there; a lazy
client finds out at its first call.
-/

namespace LibraryRegistry

/-- The servers that can be reached, by their endpoints. -/
abbrev Network := Endpoint → Option Server

/-- The network in which nobody can be reached. -/
def Network.unreachable : Network := fun _ => none

/-- A client of a registry. -/
structure Client where
  config : Config
  server : Server

namespace Client

/-- The complaint about an endpoint where nobody listens. -/
def transportError : String := "transport error"

/-- Connects at once. -/
def connect (network : Network) (config : Config) : Except Failure Client :=
  match network config.endpoint with
  | none => .error (.connection config.endpoint.render transportError)
  | some server => .ok ⟨config, server⟩

/-- Connects at the first call. -/
def connectLazily (network : Network) (config : Config) : Client :=
  ⟨config, (network config.endpoint).getD (.notReady transportError)⟩

/-- The outcome of a look-up. -/
structure Outcome where
  result : Except Failure Record
  /-- Whether the server got the request. -/
  reached : Bool

/-- Looks a library up. -/
def lookUp (c : Client) (library : String) : Outcome :=
  let address := c.config.endpoint.render
  if library = "" then ⟨.error (.invalidRequest Registry.emptyName), false⟩
  else
    match Rpc.call c.server lookupPath c.config.headers { library } with
    | .error (.notReady reason) => ⟨.error (.connection address reason), false⟩
    | .error fault => ⟨.error (.request fault), false⟩
    | .ok answer =>
      if c.config.timeout.nanos < answer.delay.nanos then
        ⟨.error (.timeout address c.config.timeout), true⟩
      else
        match answer.result with
        | .ok record => ⟨.ok record, true⟩
        | .error status => ⟨.error (.ofStatus address c.config.timeout status), true⟩

/-- Looks libraries up one after the other. -/
def lookUpAll (c : Client) (libraries : List String) : List Outcome := libraries.map c.lookUp

/-- How many requests the server has got after each of some calls, beside those before. -/
def reachedCounts (before : Nat) : (reached : List Bool) → List Nat
  | [] => []
  | true :: reached => (before + 1) :: reachedCounts (before + 1) reached
  | false :: reached => before :: reachedCounts before reached

end Client

end LibraryRegistry
