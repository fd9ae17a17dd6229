import FileSharing.Session.Request

/-!
# The services

The messaging service routes requests of the signaling side to the sessions in
the registry and runs the capability refreshes they leave behind.  The file
transfer service is what a client uses: it makes transfers within the limits of
its settings and finds them by name.

## Main definitions

* `Act.receiveBye` — routing a request that should end a dialog.
* `Act.refreshOne`, `Act.refreshAll` — capability refreshes.
* `Act.sendFile`, `Act.invite` — new transfers.
* `Act.serve` — all requests to the file transfer service.
-/

namespace FileSharing.Act

variable {E : Environment}

/-! ### Routing -/

/-- The response to a request for an unknown dialog. -/
def unknownDialog (request : Sip.Message) : Sip.Message :=
  let h := request.headers
  (Sip.Message.response 481 []).withHeaders fun out =>
    out.set "From" h.sender
      |>.set "To" h.receiver
      |>.set "Call-ID" h.callId
      |>.set "CSeq" h.cseq

/-- Receive a request that should end a dialog: the session of its call gets it,
and a request for no session is answered here. -/
def receiveBye (request : Sip.Message) : Act E Reply := do
  if !request.isBye then return .outcome (← fail .invalidArgument "Not a BYE request")
  else
    match ← findByCall? request.callId with
    | some r => askSession r (.bye request)
    | none => do
      warn ("BYE for unknown dialog " ++ request.callId)
      warnOnFailure "Failed to answer BYE: " (← sendResponse none (unknownDialog request))
      return .outcome
        (← fail .sessionNotFound ("No session for Call-ID " ++ request.callId))

/-! ### Capability refreshes -/

/-- Ask for a contact's capabilities; a failure is logged and stays here. -/
def refresh (c : Contact) : Act E Unit := do
  emit (.capabilities c)
  let result ← report (← ask (E.askCapabilities c))
  warnOnFailure (ascii "Capability refresh for " ++ c.value ++ " failed: ") result

/-- Run the first refresh that waits; answers whether there was one. -/
def refreshOne : Act E Bool := do
  match (← stack).refreshes with
  | [] => return false
  | c :: cs => do
    change fun s => { s with refreshes := cs }
    refresh c
    return true

/-- Run refreshes as often as a list has entries. -/
def refreshEach : List Contact → Act E Unit
  | [] => return
  | _ :: cs => do
    let _ ← refreshOne
    refreshEach cs

/-- Run refreshes until none waits.  A refresh leaves none behind, so there are
as many as wait now. -/
def refreshAll : Act E Unit := do refreshEach (← stack).refreshes

/-! ### New transfers -/

/-- Whether the settings leave room for a file: it must not be too large, and
there must be a free place for a transfer.  A large file is worth a warning. -/
def checkCapacity (c : Content) : Act E (Outcome Unit) := do
  let settings := (← stack).settings
  if 0 < settings.maxSize ∧ settings.maxSize < c.size then
    fail .contentTooLarge (ascii "File " ++ c.name ++ " exceeds the maximum size of "
      ++ Text.decimal settings.maxSize.toNat ++ " bytes")
  else do
    if 0 < settings.warnSize ∧ settings.warnSize < c.size then
      warn (ascii "File " ++ c.name ++ " is larger than the warning size ("
        ++ Text.decimal c.size.toNat ++ " > " ++ Text.decimal settings.warnSize.toNat ++ ")")
    let used := (← stack).transfers.length
    if 0 < settings.maxSessions ∧ settings.maxSessions.toNat ≤ used then
      fail .serviceNotAvailable (ascii "Maximum number of file transfers reached ("
        ++ Text.decimal settings.maxSessions.toNat ++ ")")
    else
      return .ok ()

/-- Attach the service's listeners to a new transfer. -/
def attachListeners (r : Ref) : Act E Unit := do
  let ls := (← stack).listeners.members
  updateTransfer r fun t =>
    { t with listeners := ls.foldl (fun set l => (set.add (some l)).2) t.listeners }

/-- The icon that goes with a file: one for an image, where icons are supported. -/
def keepIcon (c : Content) (icon : Option Content) : Act E (Option Content) := do
  match icon with
  | none => return none
  | some i => do
    if c.isImage && (← stack).settings.iconSupported then return some i
    debug (ascii "Dropping file icon for " ++ c.name ++ " (" ++ c.encoding ++ ")")
    return none

/-- Start a registered upload; one that cannot be started is closed. -/
def launch (r : Ref) : Act E (Outcome Ref) := do
  emit (.asked (.transfer r .start))
  match ← startUpload r with
  | .ok _ => return .ok r
  | .error f => do
    emit (.asked (.transfer r (.close .bySystem)))
    let closed ← close r .bySystem
    warnOnFailure (ascii "Failed to close transfer " ++ (← session r).id ++ ": ") closed
    return .error f

/-- Make the session of an upload. -/
def prepareUpload (contact : Contact) (content : Content) (icon : Option Content) :
    Act E Ref := do
  let icon ← keepIcon content icon
  let id ← ask E.newTransferId
  let time ← ask (E.now .system)
  let r ← create
    { id := id, contact := contact, uri := contact.uri, timestamp := time,
      file := some ⟨content, icon, [], 0, 0, .outgoing⟩ }
  attachListeners r
  return r

/-- Send a file to a contact. -/
def sendFile (contact : Contact) (content : Content) (icon : Option Content) :
    Act E (Outcome Ref) := do
  if contact.isNone then fail .invalidArgument "Contact is required"
  else
    match ← checkCapacity content with
    | .error f => return .error f
    | .ok _ => do
      let r ← prepareUpload contact content icon
      match ← register (some r) with
      | .error f => return .error f
      | .ok _ => do
        info (ascii "Transfer file " ++ content.name ++ " to " ++ contact.value ++ " (transfer "
          ++ (← session r).id ++ ")")
        launch r

/-- The name for the session of an invitation; a new one where none is given. -/
def invitedId (i : Invitation) : Act E Text :=
  if i.id.isEmpty then ask E.newTransferId else return i.id

/-- When an invitation was announced; now where that is not said. -/
def invitedAt (i : Invitation) : Act E Int :=
  if i.timestamp = 0 then ask (E.now .system) else return i.timestamp

/-- Make the session of an invitation.  What the other party left out is filled
in. -/
def prepareDownload (i : Invitation) : Act E Ref := do
  let id ← invitedId i
  let time ← invitedAt i
  let r ← create
    { id := id, contact := i.contact, uri := if i.uri.isEmpty then i.contact.uri else i.uri,
      timestamp := time,
      file := some ⟨i.content, i.icon, i.contribution, i.fileExpiry, i.iconExpiry,
        .incoming .system⟩ }
  update r fun s => { s with dialog := i.dialog }
  attachListeners r
  return r

/-- Receive an invitation; it waits to be accepted or declined. -/
def invite (i : Invitation) : Act E (Outcome Ref) := do
  if i.contact.isNone then fail .invalidArgument "Invitation without contact"
  else
    match ← checkCapacity i.content with
    | .error f => do
      warn (ascii "Refusing invitation from " ++ i.contact.value ++ ": " ++ f.what)
      return .error f
    | .ok _ => do
      let r ← prepareDownload i
      match ← register (some r) with
      | .error f => return .error f
      | .ok _ => do
        info (ascii "Received file " ++ i.content.name ++ " from " ++ i.contact.value
          ++ " (transfer " ++ (← session r).id ++ ")")
        return .ok r

/-! ### Transfers by name -/

/-- Pass an operation on to the transfer registered under a name. -/
def withTransfer (id : Text) (op : TransferOp) : Act E Reply := do
  match (← stack).findTransfer? id with
  | some r => askTransfer r op
  | none => return .outcome (← fail .sessionNotFound ("Unknown file transfer: " ++ id))

/-- Pass an operation on to the incoming transfer registered under a name. -/
def withInvitation (id : Text) (op : TransferOp) : Act E Reply := do
  match (← stack).findIncoming? id with
  | some r => askTransfer r op
  | none => return .outcome (← fail .sessionNotFound ("No pending invitation: " ++ id))

/-- Mark a transfer as read in the message history. -/
def markRead (id : Text) : Act E (Outcome Unit) := do
  if id.isEmpty then fail .invalidArgument "Transfer id is required"
  else
    emit (.markRead id)
    report (← ask (E.markRead id))

/-! ### Listeners -/

/-- Pass an operation on to some transfers, one after another. -/
def askEach (op : TransferOp) : List Ref → Act E Unit
  | [] => return
  | r :: rs => do
    let _ ← askTransfer r op
    askEach op rs

/-- Attach a listener to all transfers; answers whether it is new. -/
def addServiceListener (l : Option Listener) : Act E Bool := do
  let (isNew, ls) := (← stack).listeners.add l
  if isNew then
    change fun s => { s with listeners := ls }
    askEach (.addListener l) (← stack).transfers
  return isNew

/-- Detach a listener from all transfers; answers whether it was known. -/
def removeServiceListener (l : Option Listener) : Act E Bool := do
  let (wasKnown, ls) := (← stack).listeners.remove l
  if wasKnown then
    change fun s => { s with listeners := ls }
    askEach (.removeListener l) (← stack).transfers
  return wasKnown

/-! ### Settings -/

/-- Change the settings. -/
def configure (f : Settings → Settings) : Act E Unit :=
  change fun s => { s with settings := f s.settings }

/-- The words for a flag in the log. -/
def switched (on : Bool) : Text := if on then "enabled" else "disabled"

/-- Turn auto-accept on or off; off also turns it off in roaming. -/
def setAutoAccept (on : Bool) : Act E (Outcome Unit) := do
  if !(← stack).settings.autoAcceptChangeable then
    fail .notSupported "Auto accept mode is not changeable"
  else
    configure fun s =>
      { s with autoAccept := on, autoAcceptInRoaming := on && s.autoAcceptInRoaming }
    info ("Auto accept " ++ switched on)
    return .ok ()

/-- Turn auto-accept in roaming on or off, which needs auto-accept to be on. -/
def setAutoAcceptInRoaming (on : Bool) : Act E (Outcome Unit) := do
  let settings := (← stack).settings
  if !settings.autoAcceptChangeable then
    fail .notSupported "Auto accept mode is not changeable"
  else if !settings.autoAccept then
    fail .invalidState "Auto accept in roaming requires auto accept"
  else
    configure fun s => { s with autoAcceptInRoaming := on }
    info ("Auto accept in roaming " ++ switched on)
    return .ok ()

/-- Choose what is done with images. -/
def setResize (number : Int64) : Act E (Outcome Unit) := do
  match ResizeOption.ofNumber number with
  | .error f => fail f.code f.message
  | .ok option => do
    configure fun s => { s with resize := option }
    info ("Image resize option set to " ++ option.name)
    return .ok ()

/-! ### All requests -/

/-- Carry out a request to the file transfer service. -/
def serve : ServiceOp → Act E Reply
  | .send contact content icon => return .session (← sendFile contact content icon)
  | .invite i => return .session (← invite i)
  | .accept id => withInvitation id .accept
  | .reject id => withInvitation id .reject
  | .pause id => withTransfer id .pause
  | .resume id => withTransfer id .resume
  | .abort id => withTransfer id (.abort .byUser)
  | .markRead id => return .outcome (← markRead id)
  | .addListener l => return .flag (← addServiceListener l)
  | .removeListener l => return .flag (← removeServiceListener l)
  | .setAutoAccept on => return .outcome (← setAutoAccept on)
  | .setAutoAcceptInRoaming on => return .outcome (← setAutoAcceptInRoaming on)
  | .setResize number => return .outcome (← setResize number)

end FileSharing.Act
