import LibraryRegistry.Text.Hexadecimal
import LibraryRegistry.Text.Integer

/-!
# IPv6 literals

Eight groups of one to four hexadecimal digits with colons between them. One `::` may stand for a
run of at least one zero group, and the last two groups may be a dotted quad of numbers from 0 to
255 without leading zeros.

Groups are read from the left as far as they go; then the literal must be over, or a `::` and the
groups behind it must follow.
-/

namespace LibraryRegistry.Net.Ipv6

/-- Reads a group: the hexadecimal digits in front, at most four. -/
def group? (cs : List Char) : Option (List Char) :=
  let digits := cs.takeWhile Text.isHexDigit
  if digits ≠ [] && digits.length ≤ 4 then some (cs.dropWhile Text.isHexDigit) else none

/-- The value of decimal digits. -/
def decimalValue (digits : List Char) : Nat :=
  digits.foldl (fun n c => 10 * n + Text.digitValue c) 0

/-- Reads a number from 0 to 255 without leading zeros: the decimal digits in front. -/
def octet? (cs : List Char) : Option (List Char) :=
  let digits := cs.takeWhile Char.isDigit
  if digits ≠ [] && digits.length ≤ 3 && decimalValue digits ≤ 255
      && (digits.head? != some '0' || digits.length == 1) then
    some (cs.dropWhile Char.isDigit)
  else none

/-- Reads one character. -/
def char? (c : Char) : List Char → Option (List Char)
  | d :: rest => if d = c then some rest else none
  | [] => none

/-- Reads a dotted quad. -/
def quad? (cs : List Char) : Option (List Char) := do
  let cs ← octet? cs
  let cs ← char? '.' cs >>= octet?
  let cs ← char? '.' cs >>= octet?
  char? '.' cs >>= octet?

/-- What reading groups came to: how many there are (a quad counts twice), whether a quad ended them,
and what follows. -/
structure Groups where
  count : Nat
  quad : Bool
  rest : List Char

/-- Reads up to `room` groups with colons between them, a quad only where two groups have room. -/
def groups : (room : Nat) → (first : Bool) → List Char → Groups
  | 0, _, cs => ⟨0, false, cs⟩
  | room + 1, first, cs =>
    let start := if first then some cs else char? ':' cs
    match if room = 0 then none else start >>= quad? with
    | some rest => ⟨2, true, rest⟩
    | none =>
      match start >>= group? with
      | some rest =>
        let more := groups room false rest
        ⟨more.count + 1, more.quad, more.rest⟩
      | none => ⟨0, false, cs⟩

/-- Recognises IPv6 literals. -/
def isLiteral (cs : List Char) : Bool :=
  let front := groups 8 true cs
  if front.count = 8 then front.rest.isEmpty
  else if front.quad then false
  else
    match front.rest with
    | ':' :: ':' :: rest => (groups (7 - front.count) true rest).rest.isEmpty
    | _ => false

end LibraryRegistry.Net.Ipv6
