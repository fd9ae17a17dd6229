import FileSharing.Stack

/-!
# Operations

Everything that a client, the transfer engine or the signaling side can do to a
stack, as data.  Operations on one session come with its name, so a client that
holds a session can use it whether or not it is registered.

## Main definitions

* `TransferOp`, `SessionOp`, `ServiceOp` — on a file transfer, on any session, and
  on the file transfer service.
* `Op` — all operations, `Reply` — their answers.
-/

namespace FileSharing

/-- What can be done to the session of a file transfer. -/
inductive TransferOp where
  /-- Add a listener. -/
  | addListener (l : Option Listener)
  /-- Remove a listener. -/
  | removeListener (l : Option Listener)
  /-- Let another clock tell whether a download has expired. -/
  | setClock (clock : Clock)
  /-- Report an event of the engine. -/
  | engine (event : EngineEvent)
  /-- Start an upload. -/
  | start
  /-- Accept an invitation. -/
  | accept
  /-- Decline an invitation. -/
  | reject
  /-- Pause the transfer. -/
  | pause
  /-- Let the transfer go on. -/
  | resume
  /-- Give the transfer up and tell the listeners. -/
  | abort (reason : AbortReason)
  /-- End the session without telling the listeners. -/
  | close (reason : AbortReason)
  deriving DecidableEq, Repr

/-- What can be done to any session. -/
inductive SessionOp where
  /-- Give the session a dialog. -/
  | setDialog (dialog : Sip.Dialog)
  /-- Mark the session as interrupted. -/
  | interrupt
  /-- Close the session's media. -/
  | closeMedia
  /-- Receive a request to end the dialog. -/
  | bye (request : Sip.Message)
  /-- End the dialog of a plain session. -/
  | closePlain (reason : AbortReason)
  /-- Take a plain session out of the registry. -/
  | removePlain
  deriving DecidableEq, Repr

/-- A file that another party announces. -/
structure Invitation where
  /-- The other party. -/
  contact : Contact
  /-- The other party's address; empty for the usual one. -/
  uri : Text
  /-- The file. -/
  content : Content
  /-- Its icon. -/
  icon : Option Content
  /-- The conversation that the file belongs to. -/
  contribution : Text
  /-- The name of the transfer; empty for a new one. -/
  id : Text
  /-- When it was announced; zero for now. -/
  timestamp : Int
  /-- When the file expires. -/
  fileExpiry : Int
  /-- When the icon expires. -/
  iconExpiry : Int
  /-- The dialog that the announcement came in. -/
  dialog : Option Sip.Dialog
  deriving DecidableEq, Repr

/-- What can be asked of the file transfer service. -/
inductive ServiceOp where
  /-- Send a file. -/
  | send (contact : Contact) (content : Content) (icon : Option Content)
  /-- Receive an invitation. -/
  | invite (invitation : Invitation)
  /-- Accept an invitation. -/
  | accept (id : Text)
  /-- Decline an invitation. -/
  | reject (id : Text)
  /-- Pause a transfer. -/
  | pause (id : Text)
  /-- Let a transfer go on. -/
  | resume (id : Text)
  /-- Give a transfer up. -/
  | abort (id : Text)
  /-- Mark a transfer as read in the message history. -/
  | markRead (id : Text)
  /-- Attach a listener to all transfers, present and future. -/
  | addListener (l : Option Listener)
  /-- Detach a listener from all transfers. -/
  | removeListener (l : Option Listener)
  /-- Turn auto-accept on or off. -/
  | setAutoAccept (on : Bool)
  /-- Turn auto-accept in roaming on or off. -/
  | setAutoAcceptInRoaming (on : Bool)
  /-- Choose what is done with images, by number. -/
  | setResize (number : Int64)
  deriving DecidableEq, Repr

/-- An operation on a stack. -/
inductive Op where
  /-- Make a session; it is not registered. -/
  | create (draft : Draft)
  /-- Do something to any session. -/
  | session (r : Ref) (op : SessionOp)
  /-- Do something to the session of a file transfer. -/
  | transfer (r : Ref) (op : TransferOp)
  /-- Register a session. -/
  | register (r : Option Ref)
  /-- Take the session of this name out of the registry. -/
  | unregister (id : Text)
  /-- Receive a request from the signaling side that should end a dialog. -/
  | receiveBye (request : Sip.Message)
  /-- Say whether the client wants to hear of sessions leaving the registry. -/
  | watch (on : Bool)
  /-- Run the first capability refresh that waits. -/
  | refreshOne
  /-- Run capability refreshes until none waits. -/
  | refreshAll
  /-- Ask the file transfer service for something. -/
  | service (op : ServiceOp)
  deriving DecidableEq, Repr

/-- The answer of an operation. -/
inductive Reply where
  /-- There is nothing to answer. -/
  | nothing
  /-- Yes or no. -/
  | flag (b : Bool)
  /-- Whether it could be done. -/
  | outcome (o : Outcome Unit)
  /-- A new session. -/
  | session (o : Outcome Ref)
  /-- There is no such session, or the operation does not apply to it. -/
  | notApplicable
  deriving Repr

end FileSharing
