import LibraryRegistry.Text.Quoted

/-!
# Statuses

How a call ended: a code and a message. The codes are numbered from 0 to 16; every other number
counts as unknown.
-/

namespace LibraryRegistry.Rpc

/-- The code of a status. -/
inductive Code
  | ok
  | cancelled
  | unknown
  | invalidArgument
  | deadlineExceeded
  | notFound
  | alreadyExists
  | permissionDenied
  | resourceExhausted
  | failedPrecondition
  | aborted
  | outOfRange
  | unimplemented
  | internal
  | unavailable
  | dataLoss
  | unauthenticated
  deriving DecidableEq, Repr

namespace Code

/-- All codes in the order of their numbers. -/
def all : List Code :=
  [ok, cancelled, unknown, invalidArgument, deadlineExceeded, notFound, alreadyExists,
    permissionDenied, resourceExhausted, failedPrecondition, aborted, outOfRange, unimplemented,
    internal, unavailable, dataLoss, unauthenticated]

/-- The number of a code. -/
def number (c : Code) : Nat := all.idxOf c

/-- The code with a number. -/
def ofNumber (n : Int) : Code := if n < 0 then unknown else all[n.toNat]?.getD unknown

/-- The code whose number is written in the given text, without a sign or leading zeros. -/
def ofText (s : String) : Code := (all.find? fun c => toString c.number == s).getD unknown

/-- The name of a code. -/
def name : Code → String
  | ok => "Ok"
  | cancelled => "Cancelled"
  | unknown => "Unknown"
  | invalidArgument => "InvalidArgument"
  | deadlineExceeded => "DeadlineExceeded"
  | notFound => "NotFound"
  | alreadyExists => "AlreadyExists"
  | permissionDenied => "PermissionDenied"
  | resourceExhausted => "ResourceExhausted"
  | failedPrecondition => "FailedPrecondition"
  | aborted => "Aborted"
  | outOfRange => "OutOfRange"
  | unimplemented => "Unimplemented"
  | internal => "Internal"
  | unavailable => "Unavailable"
  | dataLoss => "DataLoss"
  | unauthenticated => "Unauthenticated"

/-- What a code means. -/
def description : Code → String
  | ok => "The operation completed successfully"
  | cancelled => "The operation was cancelled"
  | unknown => "Unknown error"
  | invalidArgument => "Client specified an invalid argument"
  | deadlineExceeded => "Deadline expired before operation could complete"
  | notFound => "Some requested entity was not found"
  | alreadyExists => "Some entity that we attempted to create already exists"
  | permissionDenied =>
    "The caller does not have permission to execute the specified operation"
  | resourceExhausted => "Some resource has been exhausted"
  | failedPrecondition =>
    "The system is not in a state required for the operation's execution"
  | aborted => "The operation was aborted"
  | outOfRange => "Operation was attempted past the valid range"
  | unimplemented => "Operation is not implemented or not supported"
  | internal => "Internal error"
  | unavailable => "The service is currently unavailable"
  | dataLoss => "Unrecoverable data loss or corruption"
  | unauthenticated =>
    "The request does not have valid authentication credentials"

end Code

/-- How a call ended. -/
structure Status where
  code : Code
  message : String
  deriving DecidableEq, Repr

/-- A status as the cause of a failure; an empty message is left out. -/
def Status.text (s : Status) : String :=
  "code: '" ++ s.code.description ++ "'"
    ++ if s.message = "" then "" else ", message: " ++ Text.quote s.message

end LibraryRegistry.Rpc
