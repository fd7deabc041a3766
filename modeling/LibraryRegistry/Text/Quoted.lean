import LibraryRegistry.Text.Ignorable
import LibraryRegistry.Text.Unprintable

/-!
# Quoted texts

A text between quotation marks on one line, with nothing in it that does not show: quotation marks,
backslashes and the usual control characters have short escapes, and every other character that
cannot be seen for itself is written as its code in braces.
-/

namespace LibraryRegistry.Text

/-- The code of a character as an escape. -/
def codeEscape (c : Char) : List Char :=
  '\\' :: 'u' :: '\x7b' :: (Nat.toDigits 16 c.toNat ++ ['\x7d'])

/-- The halfwidth voiced sound marks. They extend the character before them, but take a place of their
own beside it. -/
def isHalfwidthMark (c : Char) : Bool := c == '\uff9e' || c == '\uff9f'

/-- A character that cannot be seen for itself: it shows nothing, or it is drawn onto the character
before it. -/
def isHidden (c : Char) : Bool :=
  (isExtending c && !isHalfwidthMark c) || isIgnorable c || isUnprintable c

/-- Writes one character of a quoted text. -/
def quoteChar (c : Char) : List Char :=
  if c = '\x00' then ['\\', '0']
  else if c = '\t' then ['\\', 't']
  else if c = '\r' then ['\\', 'r']
  else if c = '\n' then ['\\', 'n']
  else if c = '\\' then ['\\', '\\']
  else if c = '"' then ['\\', '"']
  else if isHidden c then codeEscape c
  else [c]

/-- Writes a text between quotation marks. -/
def quote (s : String) : String :=
  String.ofList ('"' :: (s.toList.flatMap quoteChar ++ ['"']))

end LibraryRegistry.Text
