import FileSharing.Text

/-!
# Failures

An operation of the stack that cannot be carried out answers with a `Failure`:
an error code and a text.  Codes belong to this library's own category; some of
them stand for a generic condition of the system.

## Main definitions

* `ErrorCode` — the codes, `ErrorCode.describe` their texts.
* `Condition` — the generic conditions, `ErrorCode.condition?` the one a code
  stands for.
* `Failure`, `Outcome` — a failed operation, and the answer of one that may fail.
-/

namespace FileSharing

/-- Why an operation failed. -/
inductive ErrorCode where
  /-- No error. -/
  | success
  /-- Nothing more is known. -/
  | unknown
  /-- A value handed in is not acceptable. -/
  | invalidArgument
  /-- The operation does not fit the current state. -/
  | invalidState
  /-- The operation is not available at all. -/
  | notSupported
  /-- A signaling message could not be built or read. -/
  | payloadError
  /-- A message could not be delivered. -/
  | networkError
  /-- An answer did not come in time. -/
  | timeout
  /-- No session has the given identity. -/
  | sessionNotFound
  /-- The service cannot take the request now. -/
  | serviceNotAvailable
  /-- The content is above the size limit. -/
  | contentTooLarge
  /-- The content is no longer on the content server. -/
  | contentExpired
  /-- Stored data has the wrong form. -/
  | invalidData
  /-- A file does not exist. -/
  | fileNotFound
  /-- A file may not be written. -/
  | fileAccessDenied
  deriving DecidableEq, Repr, Inhabited

/-- The generic conditions that error codes stand for. -/
inductive Condition where
  /-- The network cannot be reached. -/
  | networkUnreachable
  /-- The time allowed has passed. -/
  | timedOut
  /-- A file is too large. -/
  | fileTooLarge
  /-- A file or directory does not exist. -/
  | noSuchFile
  /-- Access is not permitted. -/
  | permissionDenied
  /-- An argument is not valid. -/
  | invalidArgument
  deriving DecidableEq, Repr

/-- The name of the category that generic conditions belong to. -/
def Condition.category : Text := "generic"

namespace ErrorCode

/-- The name of the category that the codes belong to. -/
def category : Text := "rcs"

/-- All codes in the order of their numbers. -/
def all : List ErrorCode :=
  [success, unknown, invalidArgument, invalidState, notSupported, payloadError, networkError,
    timeout, sessionNotFound, serviceNotAvailable, contentTooLarge, contentExpired, invalidData,
    fileNotFound, fileAccessDenied]

/-- The number of a code: its place in `all`. -/
def number (c : ErrorCode) : Nat := all.idxOf c

/-- The code with a number, if the number is assigned. -/
def ofNumber? (n : Int) : Option ErrorCode := if n < 0 then none else all[n.toNat]?

/-- The code's text. -/
def describe : ErrorCode → Text
  | success => "Success"
  | unknown => "Unknown error"
  | invalidArgument => "Invalid argument"
  | invalidState => "Invalid state"
  | notSupported => "Not supported"
  | payloadError => "Payload error"
  | networkError => "Network error"
  | timeout => "Timeout"
  | sessionNotFound => "Session not found"
  | serviceNotAvailable => "Service not available"
  | contentTooLarge => "Content too large"
  | contentExpired => "Content expired"
  | invalidData => "Invalid data"
  | fileNotFound => "File not found"
  | fileAccessDenied => "File access denied"

/-- The generic condition a code stands for; the other codes are conditions of
their own. -/
def condition? : ErrorCode → Option Condition
  | networkError => some .networkUnreachable
  | timeout => some .timedOut
  | contentTooLarge => some .fileTooLarge
  | fileNotFound => some .noSuchFile
  | fileAccessDenied => some .permissionDenied
  | invalidArgument => some .invalidArgument
  | invalidData => some .invalidArgument
  | _ => none

end ErrorCode

/-- The text of an error number: numbers that no code has read as unknown. -/
def describeNumber (n : Int) : Text := ((ErrorCode.ofNumber? n).getD .unknown).describe

/-- A failed operation: the code and what there is to say about it. -/
structure Failure where
  /-- Why it failed. -/
  code : ErrorCode
  /-- What there is to say; it may hold any byte. -/
  message : Text
  deriving DecidableEq, Repr, Inhabited

namespace Failure

/-- The message as callers see it, which ends at the first NUL. -/
def what (f : Failure) : Text := f.message.visible

/-- The line that is logged where a failure arises. -/
def logLine (f : Failure) : Text := "[" ++ f.code.describe ++ "] " ++ f.message

/-- What asking a success for its failure fails with. -/
def noFailure : Failure := ⟨.invalidState, "Result contains no error"⟩

end Failure

/-- The answer of an operation that may fail. -/
abbrev Outcome (α : Type) := Except Failure α

namespace Outcome

/-- Whether the operation succeeded. -/
def succeeded {α : Type} : Outcome α → Bool
  | .ok _ => true
  | .error _ => false

/-- The failure of an outcome; asking a success for it fails. -/
def failure {α : Type} : Outcome α → Outcome Failure
  | .ok _ => .error Failure.noFailure
  | .error f => .ok f

end Outcome

end FileSharing
