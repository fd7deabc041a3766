import LibraryRegistry.Powers

/-!
# Variable-length integers

A number is written in groups of seven bits, least group first; every byte but the last has its
high bit set. Numbers are below `2 ^ 64`, so there are at most ten groups and the tenth holds one bit.
-/

namespace LibraryRegistry.Wire.Varint

/-- Writes a number in as few groups as it needs. -/
def encode (n : Nat) : List UInt8 :=
  if n < 128 then [n.toUInt8] else (n % 128 + 128).toUInt8 :: encode (n / 128)

/-- The number of groups, from the position of the highest bit. -/
def size (n : Nat) : Nat := ((n ||| 1).log2 * 9 + 73) / 64

/-- Reads a number of at most `more + 1` groups; the last group of a ten-group number is `0` or `1`. -/
def decodeGroups : (more : Nat) → List UInt8 → Option (Nat × List UInt8)
  | _, [] => none
  | 0, b :: rest => if b < 2 then some (b.toNat, rest) else none
  | more + 1, b :: rest =>
    if b < 128 then some (b.toNat, rest)
    else (decodeGroups more rest).map fun (high, rest) => (b.toNat - 128 + 128 * high, rest)

/-- Reads a number and returns what follows it; `none` if the bytes end inside the number or it does
not stay below `2 ^ 64`. -/
def decode? (bytes : List UInt8) : Option (Nat × List UInt8) := decodeGroups 9 bytes

theorem decodeGroups_length : ∀ {more n : Nat} {bytes rest : List UInt8},
    decodeGroups more bytes = some (n, rest) → rest.length < bytes.length
  | _, _, [], _, h => by simp [decodeGroups] at h
  | 0, _, b :: bytes, _, h => by
    unfold decodeGroups at h
    split at h
    · cases h; simp
    · cases h
  | more + 1, n, b :: bytes, rest, h => by
    unfold decodeGroups at h
    split at h
    · cases h; simp
    · obtain ⟨⟨high, rest'⟩, hd, he⟩ := Option.map_eq_some_iff.1 h
      cases he
      exact Nat.lt_succ_of_lt (decodeGroups_length hd)

/-- Reading a number takes at least one byte. -/
theorem decode?_length {n : Nat} {bytes rest : List UInt8} (h : decode? bytes = some (n, rest)) :
    rest.length < bytes.length :=
  decodeGroups_length h

end LibraryRegistry.Wire.Varint
