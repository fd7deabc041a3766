/-!
# UTF-8

Texts as bytes and back. `ofUtf8?` reads what `utf8` writes; `Utf8Fault.find?` tells where bytes stop
being a text, for messages that say so.
-/

namespace LibraryRegistry.Text

/-- The UTF-8 bytes of a text. -/
def utf8 (s : String) : List UInt8 := s.toByteArray.data.toList

/-- The text with the given UTF-8 bytes, if they are well formed. -/
def ofUtf8? (bytes : List UInt8) : Option String :=
  let array : ByteArray := ⟨bytes.toArray⟩
  if h : array.IsValidUTF8 then some (String.ofByteArray array h) else none

@[simp] theorem ofUtf8?_utf8 (s : String) : ofUtf8? (utf8 s) = some s := by
  have h : (⟨(utf8 s).toArray⟩ : ByteArray) = s.toByteArray := by simp [utf8]
  simp only [ofUtf8?, h]
  exact dif_pos s.isValidUTF8

theorem utf8_injective {s t : String} (h : utf8 s = utf8 t) : s = t := by
  have := ofUtf8?_utf8 s
  rw [h, ofUtf8?_utf8] at this
  exact (Option.some.inj this).symm

@[simp] theorem length_utf8 (s : String) : (utf8 s).length = s.utf8ByteSize := by
  rfl

/-! ## Where bytes stop being a text -/

/-- The first fault in bytes that are no text. -/
inductive Utf8Fault
  /-- The bytes end inside the character that starts at this index. -/
  | incomplete (start : Nat)
  /-- This many bytes from this index cannot start a character. -/
  | invalid (length start : Nat)
  deriving DecidableEq, Repr

namespace Utf8Fault

/-- The wording of a fault. -/
def message : Utf8Fault → String
  | incomplete start => s!"incomplete utf-8 byte sequence from index {start}"
  | invalid length start => s!"invalid utf-8 sequence of {length} bytes from index {start}"

/-- A byte that continues a character. -/
def isContinuation (b : UInt8) : Bool := 0x80 ≤ b && b < 0xC0

/-- The second bytes that may follow the first byte of a longer character: no form longer than
needed, no surrogate, nothing above U+10FFFF. -/
def mayFollow (first second : UInt8) : Bool :=
  if first == 0xE0 then 0xA0 ≤ second && second < 0xC0
  else if first == 0xED then 0x80 ≤ second && second < 0xA0
  else if first == 0xF0 then 0x90 ≤ second && second < 0xC0
  else if first == 0xF4 then 0x80 ≤ second && second < 0x90
  else isContinuation second

/-- The number of bytes of a character, by its first byte; `0` if no character starts so. -/
def width (first : UInt8) : Nat :=
  if first < 0x80 then 1
  else if first < 0xC2 then 0
  else if first < 0xE0 then 2
  else if first < 0xF0 then 3
  else if first < 0xF5 then 4
  else 0

/-- The bytes of one character after its first two: how many are still to come, how many were read. -/
def tail (start : Nat) : (missing read : Nat) → List UInt8 → Except Utf8Fault (List UInt8)
  | 0, _, rest => .ok rest
  | _ + 1, _, [] => .error (incomplete start)
  | missing + 1, read, b :: rest =>
    if isContinuation b then tail start missing (read + 1) rest
    else .error (invalid read start)

theorem tail_length {start : Nat} : ∀ {missing read : Nat} {bytes rest : List UInt8},
    tail start missing read bytes = .ok rest → rest.length ≤ bytes.length
  | 0, _, _, _, h => by cases h; exact Nat.le_refl _
  | _ + 1, _, [], _, h => by cases h
  | missing + 1, read, b :: bytes, rest, h => by
    unfold tail at h
    split at h
    · exact Nat.le_succ_of_le (tail_length h)
    · cases h

/-- The first fault at or after the given index, `none` for the bytes of a text. -/
def findFrom (index : Nat) : List UInt8 → Option Utf8Fault
  | [] => none
  | first :: rest =>
    match width first with
    | 0 => some (invalid 1 index)
    | 1 => findFrom (index + 1) rest
    | w + 2 =>
      match rest with
      | [] => some (incomplete index)
      | second :: rest =>
        if mayFollow first second then
          match h : tail index w 2 rest with
          | .error fault => some fault
          | .ok rest => findFrom (index + w + 2) rest
        else some (invalid 1 index)
termination_by bytes => bytes.length
decreasing_by
  · simp
  · have := tail_length h; simp only [List.length_cons]; omega

/-- The first fault in the given bytes. -/
def find? (bytes : List UInt8) : Option Utf8Fault := findFrom 0 bytes

end Utf8Fault

end LibraryRegistry.Text
