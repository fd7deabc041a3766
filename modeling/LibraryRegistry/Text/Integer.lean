/-!
# Integers in decimal

Whole numbers written with ASCII digits and an optional sign, within given bounds. Reading goes from
left to right and stops at the first fault: a character that is no digit, or a digit that takes the
number past its bound.
-/

namespace LibraryRegistry.Text

/-- Why a text is no integer within the bounds. -/
inductive IntegerFault
  | empty
  | invalidDigit
  | tooLarge
  | tooSmall
  deriving DecidableEq, Repr

/-- The wording of a fault. -/
def IntegerFault.message : IntegerFault → String
  | empty => "cannot parse integer from empty string"
  | invalidDigit => "invalid digit found in string"
  | tooLarge => "number too large to fit in target type"
  | tooSmall => "number too small to fit in target type"

/-- The value of a decimal digit. -/
def digitValue (c : Char) : Nat := c.toNat - 48

/-- Reads digits behind a number read so far, up to `limit`; `past` is the fault of going past it. -/
def readDigits (limit : Nat) (past : IntegerFault) : (sofar : Nat) → List Char →
    Except IntegerFault Nat
  | n, [] => .ok n
  | n, c :: cs =>
    if c.isDigit then
      if limit < 10 * n + digitValue c then .error past
      else readDigits limit past (10 * n + digitValue c) cs
    else .error .invalidDigit

/-- Reads digits, at least one. -/
def readMagnitude (limit : Nat) (past : IntegerFault) : List Char → Except IntegerFault Nat
  | [] => .error .invalidDigit
  | cs => readDigits limit past 0 cs

/-- Reads a number from `0` to `max`; a plus sign may stand in front. -/
def readNat (max : Nat) : List Char → Except IntegerFault Nat
  | [] => .error .empty
  | '+' :: cs => readMagnitude max .tooLarge cs
  | cs => readMagnitude max .tooLarge cs

/-- Reads a number from `-below` to `max`; a sign may stand in front. -/
def readInt (below max : Nat) : List Char → Except IntegerFault Int
  | [] => .error .empty
  | '+' :: cs => (readMagnitude max .tooLarge cs).map Int.ofNat
  | '-' :: cs => (readMagnitude below .tooSmall cs).map fun n => -Int.ofNat n
  | cs => (readMagnitude max .tooLarge cs).map Int.ofNat

end LibraryRegistry.Text
