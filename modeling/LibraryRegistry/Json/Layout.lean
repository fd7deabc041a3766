import LibraryRegistry.Json.Text

/-!
# Indented JSON

Each member of an object stands on a line of its own, two spaces further in than the object; an
object without members is written as a pair of braces.
-/

namespace LibraryRegistry.Json

/-- A value to be written, as a function of how many levels in it stands. -/
abbrev Layout := Nat → List Char

namespace Layout

/-- A text. -/
def text (s : String) : Layout := fun _ => writeText s

/-- The beginning of a line at the given level. -/
def newline (level : Nat) : List Char := '\n' :: List.replicate (2 * level) ' '

/-- A member of an object on a line of its own. -/
def member (level : Nat) (m : String × Layout) : List Char :=
  newline level ++ writeText m.1 ++ [':', ' '] ++ m.2 level

/-- The members behind the first one, each behind a comma. -/
def moreMembers (level : Nat) (members : List (String × Layout)) : List Char :=
  members.flatMap fun m => ',' :: member level m

/-- An object with the given members in their order. -/
def object (members : List (String × Layout)) : Layout := fun level =>
  match members with
  | [] => ['\x7b', '\x7d']
  | m :: members =>
    '\x7b' :: (member (level + 1) m ++ moreMembers (level + 1) members ++ newline level ++ ['\x7d'])

/-- A dictionary, given as its entries in the order in which they are to be written. -/
def entries {α : Type} (value : α → Layout) (es : List (String × α)) : Layout :=
  object (es.map fun (key, a) => (key, value a))

end Layout

end LibraryRegistry.Json
