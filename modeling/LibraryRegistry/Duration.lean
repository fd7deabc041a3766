import LibraryRegistry.Powers

/-!
# Spans of time

A span is a number of nanoseconds. Its text names the largest unit of `s`, `ms`, `µs`, `ns` of which
it holds at least one, as an exact decimal number without trailing zeros (`1.5s`, `50ms`, `0ns`).
-/

namespace LibraryRegistry

/-- A span of time in nanoseconds. -/
@[ext]
structure Duration where
  nanos : Nat
  deriving DecidableEq, Repr, Inhabited

namespace Duration

/-- A span of whole milliseconds. -/
def ofMillis (ms : Nat) : Duration := ⟨ms * 1000000⟩

/-- A span of whole seconds. -/
def ofSeconds (seconds : Nat) : Duration := ⟨seconds * 1000000000⟩

/-- The decimal digits of `n / 10 ^ places` behind the point, without trailing zeros, for
`n < 10 ^ places`. -/
def fraction : (places n : Nat) → List Char
  | 0, _ => []
  | places + 1, n =>
    if n = 0 then []
    else Nat.digitChar (n / 10 ^ places) :: fraction places (n % 10 ^ places)

/-- Writes `whole + part / 10 ^ places` and a unit. -/
def inUnit (whole places part : Nat) (unit : String) : String :=
  if part = 0 then toString whole ++ unit
  else toString whole ++ "." ++ String.ofList (fraction places part) ++ unit

/-- The span as a number of its largest unit. -/
def text (d : Duration) : String :=
  if 1000000000 ≤ d.nanos then inUnit (d.nanos / 1000000000) 9 (d.nanos % 1000000000) "s"
  else if 1000000 ≤ d.nanos then inUnit (d.nanos / 1000000) 6 (d.nanos % 1000000) "ms"
  else if 1000 ≤ d.nanos then inUnit (d.nanos / 1000) 3 (d.nanos % 1000) "µs"
  else inUnit d.nanos 0 0 "ns"

end Duration

end LibraryRegistry
