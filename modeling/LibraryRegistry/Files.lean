import LibraryRegistry.Text.Utf8

/-!
# Files

What a program sees of the files around it: a function from paths to contents or faults. A
`WorkingDirectory` holds a few entries; paths are looked up in it name by name, as a system does it.
-/

namespace LibraryRegistry

/-- Why a file cannot be read as a text. -/
inductive FileFault
  | missing
  | forbidden
  | notDirectory
  | isDirectory
  | nameTooLong
  | nulInName
  | notUtf8
  deriving DecidableEq, Repr

/-- The wording of a fault. -/
def FileFault.message : FileFault → String
  | missing => "No such file or directory (os error 2)"
  | forbidden => "Permission denied (os error 13)"
  | notDirectory => "Not a directory (os error 20)"
  | isDirectory => "Is a directory (os error 21)"
  | nameTooLong => "File name too long (os error 36)"
  | nulInName => "file name contained an unexpected NUL byte"
  | notUtf8 => "stream did not contain valid UTF-8"

/-- The contents behind each path. -/
abbrev Files := String → Except FileFault (List UInt8)

/-- The text of a file. -/
def Files.text (files : Files) (path : String) : Except FileFault String :=
  match files path with
  | .error fault => .error fault
  | .ok bytes =>
    match Text.ofUtf8? bytes with
    | some s => .ok s
    | none => .error .notUtf8

/-! ## A working directory -/

/-- What a name in a directory stands for. -/
inductive DirectoryEntry
  | file (bytes : List UInt8)
  | directory
  deriving DecidableEq, Repr

/-- The entries of a working directory. The directories in it are empty. -/
structure WorkingDirectory where
  entries : List (String × DirectoryEntry)

namespace WorkingDirectory

/-- Most bytes of a name. -/
def maxNameBytes : Nat := 255

/-- Most bytes of a path. -/
def maxPathBytes : Nat := 4095

/-- How far a path has led. -/
inductive Position
  | working
  | inside
  | outside
  | file (bytes : List UInt8)

/-- The directory around a position. -/
def Position.parent : Position → Position
  | inside => working
  | _ => outside

/-- What a name stands for at a position. -/
def entry (w : WorkingDirectory) (p : Position) (name : String) : Except FileFault Position :=
  match p with
  | .working =>
    match w.entries.lookup name with
    | none => .error .missing
    | some .directory => .ok .inside
    | some (.file bytes) => .ok (.file bytes)
  | _ => .error .missing

/-- Goes on by one name of a path. -/
def step (w : WorkingDirectory) (p : Position) (name : String) : Except FileFault Position :=
  match p with
  | .file _ => .error .notDirectory
  | _ =>
    if name = "" || name = "." then .ok p
    else if name = ".." then .ok p.parent
    else if maxNameBytes < name.utf8ByteSize then .error .nameTooLong
    else w.entry p name

/-- The contents behind a path. Nothing is known of what lies outside. -/
def files (w : WorkingDirectory) : Files := fun path =>
  if path.toList.contains '\x00' then .error .nulInName
  else if path = "" then .error .missing
  else if maxPathBytes < path.utf8ByteSize then .error .nameTooLong
  else
    let start := if path.toList.head? = some '/' then Position.outside else .working
    match (path.splitOn "/").foldlM w.step start with
    | .error fault => .error fault
    | .ok (.file bytes) => .ok bytes
    | .ok _ => .error .isDirectory

end WorkingDirectory

end LibraryRegistry
