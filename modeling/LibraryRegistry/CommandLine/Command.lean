/-!
# Commands

A command has options, which are given by a long name behind two dashes or by a short one behind a
single dash, and maybe one argument without a name. What they do to the settings of the command is
part of their description.
-/

namespace LibraryRegistry.CommandLine

/-- Why the value of an option is refused. -/
inductive ValueFault
  /-- There has to be something. -/
  | empty
  | rejected (complaint : String)
  deriving DecidableEq, Repr

/-- What an option does to settings of type `σ`. -/
inductive Action (σ : Type)
  /-- Takes no value and may be given once. -/
  | switch (change : σ → σ)
  /-- Takes no value and may be given any number of times. -/
  | count (change : σ → σ)
  /-- Takes a value and may be given once. -/
  | store (change : σ → String → Except ValueFault σ)
  /-- Takes a value and may be given any number of times. -/
  | append (change : σ → String → Except ValueFault σ)
  | help
  | version

/-- Whether an option takes a value. -/
def Action.takesValue {σ : Type} : Action σ → Bool
  | store _ | append _ => true
  | _ => false

/-- An option of a command. -/
structure Parameter (σ : Type) where
  long : String
  short : Option Char := none
  /-- The name of its value in messages. -/
  valueName : String := ""
  action : Action σ

/-- How messages name an option with a value. -/
def Parameter.label {σ : Type} (o : Parameter σ) : String :=
  "--" ++ o.long ++ " <" ++ o.valueName ++ ">"

/-- An argument without a name. -/
structure Positional (σ : Type) where
  name : String
  change : σ → String → σ

/-- A command. -/
structure Command (σ : Type) where
  name : String
  version : String
  parameters : List (Parameter σ)
  positional : Option (Positional σ) := none
  /-- The names of what has to be given. -/
  required : List String := []

/-- Why arguments are not taken, or what is asked for instead. -/
inductive Fault
  | unknownArgument
  | missingArgument
  | repeated
  | missingValue
  | unwantedValue
  | invalidValue (label complaint : String)
  | help
  | version
  deriving DecidableEq, Repr

/-- The exit code: nothing is wrong with asking for help or the version. -/
def Fault.exitCode : Fault → Nat
  | help | version => 0
  | _ => 2

/-- The text that tells the version of a command. -/
def Command.versionText {σ : Type} (c : Command σ) : String :=
  c.name ++ " " ++ c.version ++ "\n"

end LibraryRegistry.CommandLine
