import FileSharing.Registry

/-!
# The end of a session

Whatever ends the session of a file transfer first claims its end by marking it
as interrupted; who comes later finds the mark and does nothing.  The winner
tells the listeners, ends the dialog where that is called for, and takes the
session out of the registry.

## Main definitions

* `Act.interrupt`, `Act.claim` — the mark, and claiming the end of a transfer.
* `Act.closeDialog`, `Act.leave`, `Act.close` — ending the dialog, leaving the
  registry, and both.
* `Act.abort`, `Act.fails`, `Act.delivered` — the ends by choice, error and
  success.
* `Act.bye` — a request of the other party to end the dialog.
-/

namespace FileSharing.Act

variable {E : Environment}

/-! ### Marks -/

/-- Mark a session as interrupted. -/
def interrupt (r : Ref) : Act E Unit := do
  let s ← session r
  if s.interrupted then return
  update r fun s => { s with interrupted := true }
  emit (.interrupted r)
  debug (ascii "Session " ++ s.id ++ " interrupted")

/-- Whether a session still takes what the log calls `what`; one whose teardown
is under way does not. -/
def accepts (r : Ref) (what : Text) : Act E Bool := do
  let s ← session r
  if s.interrupted then
    debug (ascii "Session " ++ s.id ++ " is torn down, dropping " ++ what)
    return false
  else
    return true

/-- Claim the end of a transfer; false if something else was first. -/
def claim (r : Ref) (ending : Ending) (what : Text) : Act E Bool := do
  if ← accepts r what then
    interrupt r
    emit (.claimed r ending)
    return true
  else
    return false

/-- Leave the registry, once. -/
def leave (r : Ref) : Act E Unit := do
  let s ← session r
  if s.removed then return
  update r fun s => { s with removed := true }
  unregister s.id

/-! ### The dialog -/

/-- Send the request that ends a dialog, which counts it. -/
def sendBye (r : Ref) (d : Sip.Dialog) : Act E (Outcome Unit) := do
  let (request, d) := d.bye
  update r fun s => { s with dialog := some d }
  debug d.byeLog
  sendRequest r request

/-- End the dialog of a session.  Nothing is sent without an established dialog,
nor where the other party has ended it already. -/
def closeDialog (r : Ref) (reason : AbortReason) : Act E (Outcome Unit) := do
  let s ← session r
  info (ascii "Close session " ++ s.id ++ " (" ++ reason.name ++ ")")
  match s.dialog with
  | none => return .ok ()
  | some d =>
    if !d.isEstablished || reason = .byRemote then return .ok ()
    else sendBye r d

/-- The response to a request that ends a session's dialog.  A session without a
dialog answers from the dialog that the request itself describes, under a new
tag. -/
def byeResponse (r : Ref) (request : Sip.Message) : Act E Sip.Message := do
  match (← session r).dialog with
  | some d => return d.respond request 200
  | none => do
    let tag ← ask E.newTag
    return (Sip.Dialog.ofRequest request tag).respond request 200

/-- Close the media of a session; those of a transfer are not the session's. -/
def closeMedia (r : Ref) : Act E Unit := do
  let s ← session r
  if s.transfer.isNone then emit (.mediaClosed s.id)

/-- Answer a request that ends a session's dialog: whatever the session is, it
is interrupted and its media are closed. -/
def answerBye (r : Ref) (request : Sip.Message) : Act E (Outcome Unit) := do
  let s ← session r
  info (ascii "Receive BYE for session " ++ s.id ++ " from " ++ s.contact.value)
  interrupt r
  closeMedia r
  sendResponse (some r) (← byeResponse r request)

/-! ### The end of a transfer -/

/-- End a session without telling its listeners.  It leaves the registry even
if its dialog cannot be ended, and the failure is answered. -/
def close (r : Ref) (reason : AbortReason) : Act E (Outcome Unit) := do
  interrupt r
  let result ← closeDialog r reason
  warnOnFailure ("Failed to close session " ++ (← session r).id ++ ": ") result
  leave r
  return result

/-- Tell the control of a transfer, if there is one, that the transfer is given
up. -/
def cancel (r : Ref) : Act E Unit := do
  match (← transfer r).control with
  | none => return
  | some number => do
    let result ← drive r number .cancel
    warnOnFailure ("Failed to cancel transfer " ++ (← session r).id ++ ": ") result

/-- Give a transfer up: its control is told, then its listeners, and the session
is closed. -/
def abort (r : Ref) (reason : AbortReason) : Act E (Outcome Unit) := do
  if ← claim r (.abort reason) "abort" then
    info (ascii "Abort session " ++ (← session r).id ++ " (" ++ reason.name ++ ")")
    cancel r
    notify r (.aborted reason)
    close r reason
  else
    return .ok ()

/-- A transfer ends by an error. -/
def fails (r : Ref) (e : TransferError) : Act E Unit := do
  if ← claim r (.error e) "error" then
    info (ascii "Transfer error: " ++ Text.signed e.code ++ ", reason=" ++ e.message)
    notify r (.failed e)
    leave r

/-- A transfer ends because the file has been moved. -/
def delivered (r : Ref) : Act E Unit := do
  if ← claim r .delivery "transferred" then
    updateTransfer r fun t => { t with delivered := true }
    let s ← session r
    info (ascii "File " ++ s.id ++ " transferred to content server")
    let t ← transfer r
    notify r (.transferred t.content t.fileExpiry t.iconExpiry)
    leave r

/-- Ask later, from the event loop, what a contact is capable of. -/
def queueRefresh (c : Contact) : Act E Unit :=
  change fun s => { s with refreshes := s.refreshes ++ [c] }

/-- A transfer ends because the other party ended the dialog.  The request is
answered even if something else was first. -/
def endByBye (r : Ref) (request : Sip.Message) : Act E (Outcome Unit) := do
  if ← claim r .bye "BYE" then
    let s ← session r
    let result ← answerBye r request
    warnOnFailure ("Failed to answer BYE for session " ++ s.id ++ ": ") result
    notify r (.aborted .byRemote)
    leave r
    queueRefresh s.contact
    emit (.byeDone r s.contact)
    return result
  else
    answerBye r request

/-- Receive a request to end a session's dialog. -/
def bye (r : Ref) (request : Sip.Message) : Act E (Outcome Unit) := do
  if (← session r).transfer.isSome then endByBye r request else answerBye r request

end FileSharing.Act
