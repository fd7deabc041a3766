/-!
# White space

The characters with the Unicode property White_Space, and texts without them at their ends.
-/

namespace LibraryRegistry.Text

/-- `true` on the characters with the property White_Space. -/
def isBlank (c : Char) : Bool :=
  let n := c.toNat
  (0x09 ≤ n && n ≤ 0x0D) || n == 0x20 || n == 0x85 || n == 0xA0 || n == 0x1680 ||
    (0x2000 ≤ n && n ≤ 0x200A) || n == 0x2028 || n == 0x2029 || n == 0x202F || n == 0x205F ||
    n == 0x3000

/-- Drops the white space at both ends. -/
def trim (cs : List Char) : List Char :=
  ((cs.dropWhile isBlank).reverse.dropWhile isBlank).reverse

/-- A text of white space only, the empty one included. -/
def isAllBlank (s : String) : Bool := s.toList.all isBlank

end LibraryRegistry.Text
