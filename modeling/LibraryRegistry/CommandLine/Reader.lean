import LibraryRegistry.CommandLine.Command

/-!
# Reading arguments

Arguments are read from left to right and the first fault ends it. The value of an option is looked
at when the next option or argument has its turn, so a value that stands apart from its option may
be overtaken by an unknown argument behind it. Behind `--` every argument is one without a name.

`Command.read` folds `Progress.take` over the arguments.
-/

namespace LibraryRegistry.CommandLine

variable {σ : Type}

/-- How far the arguments have been read. -/
structure Progress (σ : Type) where
  settings : σ
  /-- The names of what was given. -/
  given : List String := []
  /-- The last option with its value, if that has come, as long as it has not been looked at. -/
  pending : Option (Parameter σ × Option String) := none
  /-- Whether only arguments without names follow. -/
  escaped : Bool := false

/-- What the form of an argument says. -/
inductive Form
  | long (name : List Char) (value : Option (List Char))
  | short (names : List Char)
  | plain
  deriving DecidableEq, Repr

/-- Splits a text at the first of the given character. -/
def splitAtFirst (c : Char) (cs : List Char) : List Char × Option (List Char) :=
  match cs.dropWhile (· ≠ c) with
  | [] => (cs, none)
  | _ :: rest => (cs.takeWhile (· ≠ c), some rest)

/-- The form of an argument. -/
def Form.ofArgument (a : List Char) : Form :=
  match a with
  | '-' :: '-' :: rest =>
    let (name, value) := splitAtFirst '=' rest
    .long name value
  | '-' :: c :: rest => .short (c :: rest)
  | _ => .plain

namespace Progress

/-- Changes the settings by an option with the given name. -/
def change (p : Progress σ) (name : String) (settings : σ) : Progress σ :=
  { p with settings, given := name :: p.given }

/-- Changes the settings by an option that has come with a value. -/
def changeBy (p : Progress σ) (o : Parameter σ)
    (f : σ → String → Except ValueFault σ) (value : Option String) :
    Except Fault (Progress σ) :=
  match value with
  | none => .error .missingValue
  | some v =>
    match f p.settings v with
    | .ok settings => .ok (p.change o.long settings)
    | .error .empty => .error .missingValue
    | .error (.rejected complaint) => .error (.invalidValue o.label complaint)

/-- Takes in an option with its value, if it has come. -/
def occur (p : Progress σ) (o : Parameter σ) (value : Option String) :
    Except Fault (Progress σ) :=
  match o.action with
  | .help => .error .help
  | .version => .error .version
  | .switch f =>
    if p.given.contains o.long then .error .repeated
    else .ok (p.change o.long (f p.settings))
  | .count f => .ok (p.change o.long (f p.settings))
  | .store f =>
    if value.isSome && p.given.contains o.long then .error .repeated else p.changeBy o f value
  | .append f => p.changeBy o f value

/-- Looks at the pending option. -/
def settle (p : Progress σ) : Except Fault (Progress σ) :=
  match p.pending with
  | none => .ok p
  | some (o, value) => { p with pending := none }.occur o value

/-- Takes in an option behind the pending one. -/
def next (p : Progress σ) (o : Parameter σ) (value : Option String) :
    Except Fault (Progress σ) := do
  let p ← p.settle
  p.occur o value

/-- Waits for the value of an option behind the pending one. -/
def await (p : Progress σ) (o : Parameter σ) : Except Fault (Progress σ) := do
  let p ← p.settle
  .ok { p with pending := some (o, none) }

/-- Takes in an option with the value that is attached to it, if there is one. -/
def attach (p : Progress σ) (o : Parameter σ) (value : Option (List Char)) :
    Except Fault (Progress σ) :=
  match value with
  | none => p.await o
  | some v => p.next o (some (String.ofList v))

/-- Takes in an option by its long name. -/
def takeLong (c : Command σ) (p : Progress σ) (name : List Char) (value : Option (List Char)) :
    Except Fault (Progress σ) :=
  match c.parameters.find? (·.long.toList == name) with
  | none => .error .unknownArgument
  | some o =>
    if o.action.takesValue then p.attach o value
    else if value.isSome then .error .unwantedValue
    else p.next o none

/-- The value that is attached to a short name; an equals sign may stand between. -/
def attachedValue (cs : List Char) : Option (List Char) :=
  match cs with
  | [] => none
  | '=' :: rest => some rest
  | _ => some cs

/-- Takes in options by their short names. -/
def takeShort (c : Command σ) (p : Progress σ) : List Char → Except Fault (Progress σ)
  | [] => .ok p
  | name :: rest =>
    match c.parameters.find? (·.short == some name) with
    | none => .error .unknownArgument
    | some o =>
      if o.action.takesValue then p.attach o (attachedValue rest)
      else
        match p.next o none with
        | .error f => .error f
        | .ok p => takeShort c p rest

/-- Takes in an argument without a name. There is room for one. -/
def takePositional (c : Command σ) (p : Progress σ) (a : String) : Except Fault (Progress σ) :=
  match c.positional with
  | none => .error .unknownArgument
  | some positional =>
    if p.given.contains positional.name then .error .unknownArgument
    else do
      let p ← p.settle
      .ok (p.change positional.name (positional.change p.settings a))

/-- Takes in an argument that is no option: the value of the option in front of it, if that waits for
one. -/
def takePlain (c : Command σ) (p : Progress σ) (a : String) : Except Fault (Progress σ) :=
  match p.pending with
  | some (o, none) => .ok { p with pending := some (o, some a) }
  | _ => p.takePositional c a

/-- Takes in one argument. -/
def take (c : Command σ) (p : Progress σ) (a : String) : Except Fault (Progress σ) :=
  if p.escaped then p.takePositional c a
  else if a = "--" then .ok { p with escaped := true }
  else
    match Form.ofArgument a.toList with
    | .long name value => p.takeLong c name value
    | .short names => p.takeShort c names
    | .plain => p.takePlain c a

end Progress

/-- Reads the arguments of a command over its usual settings. -/
def Command.read (c : Command σ) (settings : σ) (arguments : List String) : Except Fault σ := do
  let p ← arguments.foldlM (Progress.take c) { settings }
  let p ← p.settle
  if c.required.all p.given.contains then .ok p.settings else .error .missingArgument

end LibraryRegistry.CommandLine
