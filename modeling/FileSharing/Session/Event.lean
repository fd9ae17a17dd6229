import FileSharing.Content
import FileSharing.Sip.Dialog

/-!
# What happens to a file transfer

The transfer engine reports events of a transfer to its session, the session
calls its listeners back, and it drives the transfer through a control.  Exactly
three callbacks are terminal: they tell a listener that the session is over.

## Main definitions

* `AbortReason`, `TransferError` — why a session ends.
* `EngineEvent` — what the engine reports, `Callback` — what listeners are told.
* `Callback.isTerminal` — the callbacks after which a session is over.
* `ControlCall` — what a control can be asked to do.
-/

namespace FileSharing

/-- Why a session is aborted. -/
inductive AbortReason where
  /-- The system wants it. -/
  | bySystem
  /-- The user wants it. -/
  | byUser
  /-- The other party ended it. -/
  | byRemote
  /-- Something took too long. -/
  | byTimeout
  /-- Nothing happened for too long. -/
  | byInactivity
  /-- The connection was lost. -/
  | byConnectionLoss
  /-- A number that stands for no reason. -/
  | unassigned (number : Int)
  deriving DecidableEq, Repr, Inhabited

namespace AbortReason

/-- The name of a reason. -/
def name : AbortReason → Text
  | bySystem => "TERMINATION_BY_SYSTEM"
  | byUser => "TERMINATION_BY_USER"
  | byRemote => "TERMINATION_BY_REMOTE"
  | byTimeout => "TERMINATION_BY_TIMEOUT"
  | byInactivity => "TERMINATION_BY_INACTIVITY"
  | byConnectionLoss => "TERMINATION_BY_CONNECTION_LOST"
  | unassigned _ => "UNKNOWN"

/-- The reason with a number. -/
def ofNumber : Int → AbortReason
  | 0 => bySystem
  | 1 => byUser
  | 2 => byRemote
  | 3 => byTimeout
  | 4 => byInactivity
  | 5 => byConnectionLoss
  | n => unassigned n

end AbortReason

/-- An error that a collaborator reports for a transfer. -/
structure TransferError where
  /-- What went wrong. -/
  code : Int
  /-- What there is to say about it. -/
  message : Text
  deriving DecidableEq, Repr, Inhabited

/-- An error with nothing to say about it. -/
def TransferError.bare (code : Int) : TransferError := ⟨code, []⟩

/-- The error of a download whose file is no longer on the content server. -/
def TransferError.expired : TransferError := ⟨125, "File expired on content server"⟩

/-- What the engine reports for a transfer. -/
inductive EngineEvent where
  /-- Data flows. -/
  | started
  /-- So many bytes of the whole have been moved. -/
  | progress (current total : Nat)
  /-- The user has paused the transfer. -/
  | pausedByUser
  /-- The system has paused the transfer. -/
  | pausedBySystem
  /-- The transfer goes on. -/
  | resumed
  /-- The transfer may not be sent now. -/
  | notAllowed
  /-- The file has been moved as a whole. -/
  | transferred
  /-- The transfer has failed. -/
  | failed (error : TransferError)
  deriving DecidableEq, Repr

/-- What a listener is told. -/
inductive Callback where
  /-- The session has started. -/
  | started
  /-- The session was aborted. -/
  | aborted (reason : AbortReason)
  /-- So many bytes of the whole have been moved. -/
  | progress (current total : Nat)
  /-- The transfer may not be sent now. -/
  | notAllowed
  /-- The user has paused the transfer. -/
  | pausedByUser
  /-- The system has paused the transfer. -/
  | pausedBySystem
  /-- The transfer goes on. -/
  | resumed
  /-- The content server has the file, until the given times. -/
  | transferred (content : Content) (fileExpiry iconExpiry : Int)
  /-- The transfer has failed. -/
  | failed (error : TransferError)
  deriving DecidableEq, Repr

namespace Callback

/-- Whether a callback tells that the session is over. -/
def isTerminal : Callback → Bool
  | aborted _ => true
  | transferred _ _ _ => true
  | failed _ => true
  | _ => false

/-- The name of a callback in the log. -/
def name : Callback → Text
  | started => "onSessionStarted"
  | aborted _ => "onSessionAborted"
  | progress _ _ => "onTransferProgress"
  | notAllowed => "onTransferNotAllowedToSend"
  | pausedByUser => "onFileTransferPausedByUser"
  | pausedBySystem => "onFileTransferPausedBySystem"
  | resumed => "onFileTransferResumed"
  | transferred _ _ _ => "onFileTransfered"
  | failed _ => "onTransferError"

end Callback

/-- What a control can be asked to do with its transfer. -/
inductive ControlCall where
  /-- Start it. -/
  | start
  /-- Pause it. -/
  | pause
  /-- Let it go on. -/
  | resume
  /-- Give it up. -/
  | cancel
  deriving DecidableEq, Repr

end FileSharing
