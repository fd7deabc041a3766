import LibraryRegistry.Decimal.Shortest
import LibraryRegistry.Text.Quoted
import LibraryRegistry.Text.Utf8

/-!
# Faults of JSON texts

What can be wrong with a JSON text, and where. While reading, a fault is placed by the number of
bytes that are left behind it (`Fault`); for the reader of a message that becomes a line and a
column (`Error`). Columns count bytes, so a place may lie inside a character.
-/

namespace LibraryRegistry.Json

/-- A number as it was read: whole numbers of 64 bits are kept exactly, all others are rounded. -/
inductive Number
  | whole (n : Int)
  | floating (negative : Bool) (value : Decimal.Binary64)
  deriving DecidableEq, Repr

/-- What was found where something else should have been. -/
inductive Found
  | null
  | boolean (b : Bool)
  | number (n : Number)
  | text (s : String)
  | list
  | object
  deriving DecidableEq, Repr

/-- Numbers that are not whole are written positionally from `1e-5` up to sixteen digits before the
point. -/
def floatFormat : Decimal.Format := ⟨-5, 15⟩

/-- The wording of what was found. -/
def Found.message : Found → String
  | null => "null"
  | boolean b => s!"boolean \x60{b}\x60"
  | number (.whole n) => s!"integer \x60{n}\x60"
  | number (.floating negative value) =>
    s!"floating point \x60{floatFormat.write negative value}\x60"
  | text s => "string " ++ Text.quote s
  | list => "sequence"
  | object => "map"

/-- What is wrong with a JSON text. -/
inductive Cause
  | endInValue
  | endInString
  | endInList
  | endInObject
  | expectedColon
  | expectedCommaInList
  | expectedCommaInObject
  | expectedWord
  | expectedValue
  | invalidEscape
  | invalidNumber
  | numberOutOfRange
  | controlCharacter
  | keyNotString
  | loneSurrogate
  | unfinishedSurrogate
  | trailingComma
  | trailingCharacters
  | invalidType (found : Found) (expected : String)
  | invalidValue (found : Found) (expected : String)
  | invalidLength (length : Nat) (expected : String)
  | unknownField (name : String) (known : List String)
  | duplicateField (name : String)
  deriving DecidableEq, Repr

/-- A name between grave accents. -/
def ticked (name : String) : String := "\x60" ++ name ++ "\x60"

/-- The wording of a cause. -/
def Cause.message : Cause → String
  | endInValue => "EOF while parsing a value"
  | endInString => "EOF while parsing a string"
  | endInList => "EOF while parsing a list"
  | endInObject => "EOF while parsing an object"
  | expectedColon => "expected " ++ ticked ":"
  | expectedCommaInList => "expected " ++ ticked "," ++ " or " ++ ticked "]"
  | expectedCommaInObject => "expected " ++ ticked "," ++ " or " ++ ticked "\x7d"
  | expectedWord => "expected ident"
  | expectedValue => "expected value"
  | invalidEscape => "invalid escape"
  | invalidNumber => "invalid number"
  | numberOutOfRange => "number out of range"
  | controlCharacter => "control character (\\u0000-\\u001F) found while parsing a string"
  | keyNotString => "key must be a string"
  | loneSurrogate => "lone leading surrogate in hex escape"
  | unfinishedSurrogate => "unexpected end of hex escape"
  | trailingComma => "trailing comma"
  | trailingCharacters => "trailing characters"
  | invalidType found expected => "invalid type: " ++ found.message ++ ", expected " ++ expected
  | invalidValue found expected => "invalid value: " ++ found.message ++ ", expected " ++ expected
  | invalidLength length expected => s!"invalid length {length}, expected " ++ expected
  | unknownField name known =>
    "unknown field " ++ ticked name ++ ", expected one of "
      ++ ", ".intercalate (known.map ticked)
  | duplicateField name => "duplicate field " ++ ticked name

/-! ## Places -/

/-- The number of bytes of the characters that are left. -/
def bytesLeft (cs : List Char) : Nat := (cs.map Char.utf8Size).foldr (· + ·) 0

/-- A fault while reading: its cause and the number of bytes behind it. -/
structure Fault where
  cause : Cause
  left : Nat
  deriving DecidableEq, Repr

namespace Fault

/-- A fault in front of what is left. -/
def before (cause : Cause) (cs : List Char) : Fault := ⟨cause, bytesLeft cs⟩

/-- A fault at the first byte of what is left, or at the end if nothing is left. -/
def atFirst (cause : Cause) (cs : List Char) : Fault := ⟨cause, bytesLeft cs - 1⟩

/-- A fault at the end of the text. -/
def atEnd (cause : Cause) : Fault := ⟨cause, 0⟩

end Fault

/-- A place in a text: lines count from one, columns count the bytes since the line began. -/
structure Place where
  line : Nat
  column : Nat
  deriving DecidableEq, Repr

/-- The place behind the given bytes. -/
def Place.behind (bytes : List UInt8) : Place :=
  ⟨1 + bytes.count 10, (bytes.reverse.takeWhile (· != 10)).length⟩

/-- What is wrong with a text, and where. -/
structure Error where
  cause : Cause
  place : Place
  deriving DecidableEq, Repr

/-- The wording of an error. -/
def Error.message (e : Error) : String :=
  e.cause.message ++ s!" at line {e.place.line} column {e.place.column}"

/-- The fault as an error of the whole text. -/
def Fault.toError (text : String) (f : Fault) : Error :=
  let bytes := Text.utf8 text
  ⟨f.cause, Place.behind (bytes.take (bytes.length - f.left))⟩

end LibraryRegistry.Json
