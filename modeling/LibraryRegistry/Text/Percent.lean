import LibraryRegistry.Text.Hexadecimal

/-!
# Percent coding

Bytes as printable ASCII characters: `%XX` stands for the byte with the hexadecimal code `XX`. A
percent sign that is not followed by two hexadecimal digits stands for itself.
-/

namespace LibraryRegistry.Text

/-- A byte that is not written as itself. -/
def isReservedByte (b : UInt8) : Bool :=
  b < 0x21 || 0x7E < b || "\"#<>\x60?\x7b\x7d%".toList.contains (Char.ofNat b.toNat)

/-- Writes one byte. -/
def percentByte (b : UInt8) : List Char :=
  if isReservedByte b then
    ['%', (Nat.digitChar (b.toNat / 16)).toUpper, (Nat.digitChar (b.toNat % 16)).toUpper]
  else [Char.ofNat b.toNat]

/-- Writes bytes. -/
def percentEncode (bytes : List UInt8) : String := String.ofList (bytes.flatMap percentByte)

/-- The value of a byte as a hexadecimal digit. -/
def byteHexValue? (b : UInt8) : Option Nat := hexValue? (Char.ofNat b.toNat)

/-- The byte with the two given hexadecimal digits. -/
def hexByte? (high low : UInt8) : Option UInt8 := do
  let h ← byteHexValue? high
  let l ← byteHexValue? low
  some (UInt8.ofNat (16 * h + l))

/-- Reads bytes. -/
def percentDecode : List UInt8 → List UInt8
  | [] => []
  | [b] => [b]
  | [b, c] => [b, c]
  | b :: high :: low :: rest =>
    if b = 0x25 then
      match hexByte? high low with
      | some c => c :: percentDecode rest
      | none => b :: percentDecode (high :: low :: rest)
    else b :: percentDecode (high :: low :: rest)

end LibraryRegistry.Text
