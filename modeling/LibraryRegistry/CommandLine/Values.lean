import LibraryRegistry.CommandLine.Command
import LibraryRegistry.Powers
import LibraryRegistry.Text.Integer

/-!
# Values of options

Numbers, paths and the options that every command has.
-/

namespace LibraryRegistry.CommandLine

variable {σ α : Type}

/-- Stores what a reader makes of a value. -/
def storing (read : String → Except ValueFault α) (store : σ → α → σ) (settings : σ)
    (value : String) : Except ValueFault σ :=
  (read value).map (store settings)

/-- A fault of an integer as one of a value. -/
def ofIntegerFault : Except Text.IntegerFault α → Except ValueFault α
  | .ok a => .ok a
  | .error fault => .error (.rejected fault.message)

/-- Reads a signed integer of 64 bits. -/
def int64 (s : String) : Except ValueFault Int64 :=
  (ofIntegerFault (Text.readInt (2 ^ 63) (2 ^ 63 - 1) s.toList)).map Int64.ofInt

/-- Reads an unsigned integer of 64 bits. -/
def uint64 (s : String) : Except ValueFault UInt64 :=
  (ofIntegerFault (Text.readNat (2 ^ 64 - 1) s.toList)).map UInt64.ofNat

/-- Reads an unsigned integer of 16 bits, first without regard to its size. -/
def uint16 (s : String) : Except ValueFault UInt16 :=
  match ofIntegerFault (Text.readInt (2 ^ 63) (2 ^ 63 - 1) s.toList) with
  | .error fault => .error fault
  | .ok n =>
    if 0 ≤ n ∧ n ≤ 65535 then .ok (UInt16.ofNat n.toNat)
    else .error (.rejected s!"{n} is not in 0..=65535")

/-- Reads any text. -/
def anyText (s : String) : Except ValueFault String := .ok s

/-- Reads the path of a file. -/
def path (s : String) : Except ValueFault String := if s = "" then .error .empty else .ok s

/-- The highest count of an option. -/
def maxCount : Nat := 255

/-- Counts one more, up to the highest count. -/
def countUp (n : Nat) : Nat := min (n + 1) maxCount

/-- The options that every command has. -/
def standardParameters : List (Parameter σ) :=
  [{ long := "help", short := some 'h', action := .help },
    { long := "version", short := some 'V', action := .version }]

end LibraryRegistry.CommandLine
