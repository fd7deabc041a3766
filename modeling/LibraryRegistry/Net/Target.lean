/-!
# Request targets

The path and the query of a request. A path may start with a slash or be missing in front of a query
or fragment; a single `*` is a target, too. A fragment is cut off unread.
-/

namespace LibraryRegistry.Net

/-- Why a text is no request target. -/
inductive TargetFault
  | empty
  | noSlash
  | invalidChar
  deriving DecidableEq, Repr

/-- The wording of a fault. -/
def TargetFault.message : TargetFault → String
  | empty => "empty string"
  | noSlash => "path does not start with slash"
  | invalidChar => "invalid uri character"

/-- The path and the query of a request. -/
structure Target where
  rawPath : String
  query : Option String
  deriving DecidableEq, Repr

namespace Target

/-- A character that may stand in a path as it is. -/
def isPathChar (c : Char) : Bool :=
  let n := c.toNat
  n == 0x21 || n == 0x22 || (0x24 ≤ n && n ≤ 0x3B) || n == 0x3D || (0x40 ≤ n && n ≤ 0x5F) ||
    (0x61 ≤ n && n ≤ 0x7E) || 0x80 ≤ n

/-- A character that may stand in a query as it is. -/
def isQueryChar (c : Char) : Bool :=
  let n := c.toNat
  n == 0x21 || (0x24 ≤ n && n ≤ 0x3B) || n == 0x3D || (0x3F ≤ n && n ≤ 0x7E) || 0x80 ≤ n

/-- Splits a target, without looking at its first character, into the path, the query behind the
first `?`, and the fragment behind the first `#`, which is dropped. -/
def split (cs : List Char) : List Char × Option (List Char) :=
  let unfragmented := cs.takeWhile (· ≠ '#')
  let path := unfragmented.takeWhile (· ≠ '?')
  match unfragmented.dropWhile (· ≠ '?') with
  | [] => (path, none)
  | _ :: query => (path, some query)

/-- Whether a target may start with these characters. -/
def startsWell : List Char → Bool
  | '/' :: _ | '?' :: _ | '#' :: _ => true
  | cs => cs == ['*']

/-- Reads a target. -/
def parse (s : String) : Except TargetFault Target :=
  let cs := s.toList
  if cs = [] then .error .empty
  else if !startsWell cs then .error .noSlash
  else
    let (path, query) := split cs
    if path.all isPathChar && query.all (List.all · isQueryChar) then
      .ok ⟨String.ofList path, query.map String.ofList⟩
    else .error .invalidChar

/-- The path; a missing one counts as `/`. -/
def path (t : Target) : String := if t.rawPath = "" then "/" else t.rawPath

end Target

end LibraryRegistry.Net
