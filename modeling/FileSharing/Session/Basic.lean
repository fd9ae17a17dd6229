import FileSharing.Contact
import FileSharing.ListenerSet
import FileSharing.Session.Event

/-!
# Sessions

A session is a relation to one contact.  It may have a dialog, and it goes
through two one-way marks: *interrupted*, from which its teardown is under way,
and *removed*, from which it has asked to be taken out of the registry.  A
session for a file transfer has a `Transfer` besides; a session without one is
called plain.

## Main definitions

* `Phase`, `Role`, `Transfer`, `Session` — a session and its parts.
* `Draft`, `Session.ofDraft` — what a session is made from, and the new session.
* `Ending` — what can end a transfer, `Ending.callback` what listeners are told
  of it.
-/

namespace FileSharing

/-- The name of a session among all that were ever made. -/
abbrev Ref := Nat

/-- The name of a listener. -/
abbrev Listener := Nat

/-- Whether data has begun to flow. -/
inductive Phase where
  /-- Not yet. -/
  | pending
  /-- The engine has reported the start of the transfer. -/
  | established
  deriving DecidableEq, Repr, Inhabited

namespace Phase

/-- The name of a phase. -/
def name : Phase → Text
  | pending => "PENDING"
  | established => "ESTABLISHED"

/-- The name of the phase with a number, where the number is assigned. -/
def nameOf : (number : Int) → Text
  | 0 => pending.name
  | 1 => established.name
  | _ => "UNKNOWN"

end Phase

/-- Which clock tells a download whether its file has expired. -/
inductive Clock where
  /-- The system's clock. -/
  | system
  /-- A clock handed in by the client. -/
  | assigned
  deriving DecidableEq, Repr, Inhabited

/-- This side's part in a transfer. -/
inductive Role where
  /-- Only the control of an upload is driven; nothing starts it. -/
  | generic
  /-- The file is uploaded. -/
  | outgoing
  /-- The file is downloaded after the invitation has been accepted. -/
  | incoming (clock : Clock)
  deriving DecidableEq, Repr, Inhabited

/-- Which way the engine moves a file. -/
inductive Movement where
  /-- To the content server. -/
  | upload
  /-- From the content server. -/
  | download
  deriving DecidableEq, Repr

/-- The movement that a role asks the engine for. -/
def Role.movement : Role → Movement
  | generic => .upload
  | outgoing => .upload
  | incoming _ => .download

/-- The part of a session that is about its file. -/
structure Transfer where
  /-- The file. -/
  content : Content
  /-- Its icon. -/
  icon : Option Content
  /-- The conversation that the file belongs to. -/
  contribution : Text
  /-- When the file expires, in milliseconds; zero if nobody knows. -/
  fileExpiry : Int
  /-- When the icon expires. -/
  iconExpiry : Int
  /-- This side's part. -/
  role : Role
  /-- Whether data has begun to flow. -/
  phase : Phase
  /-- Whether the upload was started, or the invitation accepted. -/
  begun : Bool
  /-- Whether the file has been moved as a whole. -/
  delivered : Bool
  /-- The listeners. -/
  listeners : ListenerSet Listener
  /-- The number of the engine's transfer, if the engine gave a control for it. -/
  control : Option Nat
  deriving DecidableEq, Repr, Inhabited

/-- A session. -/
structure Session where
  /-- The name under which it is registered. -/
  id : Text
  /-- The other party. -/
  contact : Contact
  /-- The other party's address. -/
  uri : Text
  /-- When it was made, in milliseconds. -/
  timestamp : Int
  /-- Its dialog. -/
  dialog : Option Sip.Dialog
  /-- Whether its teardown is under way. -/
  interrupted : Bool
  /-- Whether it has asked to be taken out of the registry. -/
  removed : Bool
  /-- What it is about; nothing for a plain session. -/
  transfer : Option Transfer
  deriving DecidableEq, Repr, Inhabited

/-! ### New sessions -/

/-- What the file part of a session is made from. -/
structure FileDraft where
  /-- The file. -/
  content : Content
  /-- Its icon. -/
  icon : Option Content
  /-- The conversation that the file belongs to. -/
  contribution : Text
  /-- When the file expires. -/
  fileExpiry : Int
  /-- When the icon expires. -/
  iconExpiry : Int
  /-- This side's part. -/
  role : Role
  deriving DecidableEq, Repr

/-- What a session is made from. -/
structure Draft where
  /-- The name under which it will be registered. -/
  id : Text
  /-- The other party. -/
  contact : Contact
  /-- The other party's address. -/
  uri : Text
  /-- When it is made. -/
  timestamp : Int
  /-- Its file; none for a plain session. -/
  file : Option FileDraft
  deriving DecidableEq, Repr

/-- A new transfer.  The content server says when an upload expires, so an
outgoing transfer does not know it. -/
def Transfer.ofDraft (d : FileDraft) : Transfer :=
  let (fileExpiry, iconExpiry) :=
    match d.role with
    | .outgoing => (0, 0)
    | _ => (d.fileExpiry, d.iconExpiry)
  { content := d.content, icon := d.icon, contribution := d.contribution,
    fileExpiry := fileExpiry, iconExpiry := iconExpiry, role := d.role, phase := .pending,
    begun := false, delivered := false, listeners := .empty, control := none }

/-- A new session. -/
def Session.ofDraft (d : Draft) : Session :=
  { id := d.id, contact := d.contact, uri := d.uri, timestamp := d.timestamp, dialog := none,
    interrupted := false, removed := false, transfer := d.file.map Transfer.ofDraft }

/-- The call of a session's dialog; empty without a dialog. -/
def Session.callId (s : Session) : Text := (s.dialog.map Sip.Dialog.callId).getD []

/-! ### Endings -/

/-- By what the end of a file transfer is claimed. -/
inductive Ending where
  /-- This side gives the transfer up. -/
  | abort (reason : AbortReason)
  /-- Something went wrong. -/
  | error (e : TransferError)
  /-- The file has been moved. -/
  | delivery
  /-- The other party ends the dialog. -/
  | bye
  deriving DecidableEq, Repr

/-- What the listeners of a transfer are told about its end. -/
def Ending.callback (t : Transfer) : Ending → Callback
  | abort reason => .aborted reason
  | error e => .failed e
  | delivery => .transferred t.content t.fileExpiry t.iconExpiry
  | bye => .aborted .byRemote

/-! ### Expiry -/

/-- Whether a file has expired at a time; one without expiry never does. -/
def Transfer.expiredAt (t : Transfer) (now : Int) : Bool := 0 < t.fileExpiry && t.fileExpiry ≤ now

end FileSharing
