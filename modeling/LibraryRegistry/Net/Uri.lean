import LibraryRegistry.Net.Target
import LibraryRegistry.Text.Integer

/-!
# URIs of the http scheme

A URI is `http://`, an authority and maybe a target. The authority ends at the first `/`, `?` or `#`;
it holds an optional user part before its last `@`, a host, which may be in brackets, and an
optional port behind its last colon.

`Authority.scan` reads the authority character by character and keeps count of what may come only
once or only in order: brackets, colons and percent signs.
-/

namespace LibraryRegistry.Net

namespace Authority

/-- A character that has no part in the structure of an authority. -/
def isPlain (c : Char) : Bool :=
  c.isAlphanum || "!$&'()*+,-.;=_~".toList.contains c

/-- What has been seen of an authority. Colons and percent signs are forgotten at an `@` and at a
closing bracket. -/
structure Seen where
  colons : Nat := 0
  opened : Bool := false
  closed : Bool := false
  percent : Bool := false
  /-- The last character was an `@`. -/
  atSign : Bool := false
  deriving DecidableEq, Repr

/-- Most colons that may follow each other without an `@` or a closing bracket. -/
def maxColons : Nat := 8

/-- Takes in one character; `none` if it cannot stand there. -/
def Seen.step (seen : Seen) (c : Char) : Option Seen :=
  if c = ':' then
    if maxColons ≤ seen.colons then none
    else some { seen with colons := seen.colons + 1, atSign := false }
  else if c = '[' then
    if seen.percent || seen.opened then none else some { seen with opened := true, atSign := false }
  else if c = ']' then
    if !seen.opened || seen.closed then none
    else some { seen with closed := true, colons := 0, percent := false, atSign := false }
  else if c = '@' then some { seen with colons := 0, percent := false, atSign := true }
  else if c = '%' then some { seen with percent := true, atSign := false }
  else if isPlain c then some { seen with atSign := false }
  else none

/-- Whether an authority may be over: brackets are balanced, at most one colon is left for a port,
nothing is missing behind an `@`, and no percent sign stands in the host. -/
def Seen.isComplete (seen : Seen) : Bool :=
  seen.opened == seen.closed && seen.colons ≤ 1 && !seen.atSign && !seen.percent

/-- A character that ends an authority. -/
def isEnd (c : Char) : Bool := c == '/' || c == '?' || c == '#'

/-- Splits an authority from what follows it; `none` if there is no well-formed one. -/
def split? (cs : List Char) : Option (List Char × List Char) := do
  let authority := cs.takeWhile fun c => !isEnd c
  let seen ← authority.foldlM Seen.step {}
  if seen.isComplete && authority ≠ [] then
    some (authority, cs.dropWhile fun c => !isEnd c)
  else none

/-- The part behind the last of the given character, all if there is none. -/
def afterLast (c : Char) (cs : List Char) : List Char :=
  (cs.reverse.takeWhile (· ≠ c)).reverse

/-- The host of an authority: in brackets up to the closing one, else up to the first colon. -/
def host (authority : List Char) : List Char :=
  let hostPort := afterLast '@' authority
  match hostPort with
  | '[' :: _ => hostPort.takeWhile (· ≠ ']') ++ [']']
  | _ => hostPort.takeWhile (· ≠ ':')

/-- The port of an authority: a number of sixteen bits behind the last colon. -/
def port? (authority : List Char) : Option UInt16 :=
  if authority.contains ':' then
    match Text.readNat 65535 (afterLast ':' authority) with
    | .ok n => some n.toUInt16
    | .error _ => none
  else none

end Authority

/-- A URI of the http scheme. -/
structure Uri where
  authority : List Char
  target : Target
  deriving DecidableEq, Repr

namespace Uri

/-- Most bytes of a URI. -/
def maxBytes : Nat := 65534

/-- The path of a URI without one. -/
def noTarget : Target := ⟨"", none⟩

/-- Reads a URI of the http scheme. -/
def parse? (s : String) : Option Uri :=
  if maxBytes < s.utf8ByteSize then none
  else
    match s.toList with
    | 'h' :: 't' :: 't' :: 'p' :: ':' :: '/' :: '/' :: rest => do
      let (authority, rest) ← Authority.split? rest
      if rest = [] then some ⟨authority, noTarget⟩
      else
        match Target.parse (String.ofList rest) with
        | .ok target => some ⟨authority, target⟩
        | .error _ => none
    | _ => none

/-- The host. -/
def host (u : Uri) : List Char := Authority.host u.authority

/-- The port. -/
def port? (u : Uri) : Option UInt16 := Authority.port? u.authority

/-- The path; a missing one counts as `/`. -/
def path (u : Uri) : String := u.target.path

end Uri

end LibraryRegistry.Net
