import FileSharing.Sip.Message

/-!
# Dialogs

A dialog ties the messages of one call together: both parties with their tags,
the address requests go to, and the number of the last request sent.

## Main definitions

* `Dialog`, `Dialog.ofRequest` — a dialog, and the one a received request opens.
* `Dialog.bye` — the request that ends the dialog.
* `Dialog.respond` — the response to a request received in the dialog.
-/

namespace FileSharing.Sip

/-- The identification of a dialog, as one of its parties sees it. -/
structure Dialog where
  /-- The call the dialog belongs to. -/
  callId : Text
  /-- This party's address. -/
  localParty : Text
  /-- The other party's address. -/
  remoteParty : Text
  /-- This party's tag. -/
  localTag : Text
  /-- The other party's tag, empty until it is known. -/
  remoteTag : Text
  /-- Where requests go. -/
  target : Text
  /-- The number of the last request sent. -/
  cseq : UInt32
  deriving DecidableEq, Repr, Inhabited

namespace Dialog

/-- A dialog whose requests go to the other party's address. -/
def start (callId localParty remoteParty localTag remoteTag : Text) (cseq : UInt32) : Dialog :=
  ⟨callId, localParty, remoteParty, localTag, remoteTag, remoteParty, cseq⟩

/-- The dialog that a request opens, seen by its receiver.  Requests go to the
address in its Contact field, or where the request itself went. -/
def ofRequest (request : Message) (localTag : Text) : Dialog :=
  let h := request.headers
  let contact := h.get "Contact"
  { start h.callId (addressOf h.receiver) (addressOf h.sender) localTag (tagOf h.sender) 1 with
    target := if contact.isEmpty then request.requestUri else addressOf contact }

/-- Whether the other party has confirmed the dialog. -/
def isEstablished (d : Dialog) : Bool := !d.remoteTag.isEmpty

/-- Whether a message belongs to the dialog's call. -/
def carries (d : Dialog) (m : Message) : Bool := m.callId == d.callId

/-- A party's field: the address in angle brackets and the tag. -/
def partyField (address tag : Text) : Text :=
  "<" ++ address ++ ">" ++ (if tag.isEmpty then [] else ascii ";tag=" ++ tag)

/-- The dialog after one more request. -/
def advance (d : Dialog) : Dialog := { d with cseq := d.cseq + 1 }

/-- The request that ends the dialog, numbered by the dialog's last request. -/
def byeRequest (d : Dialog) : Message :=
  (Message.request .bye d.target).withHeaders fun h =>
    h.set "Call-ID" d.callId
      |>.set "From" (ascii "<" ++ d.localParty ++ ">;tag=" ++ d.localTag)
      |>.set "To" (partyField d.remoteParty d.remoteTag)
      |>.setCSeq d.cseq Method.bye.name

/-- End the dialog: the request to send, and the dialog that has counted it. -/
def bye (d : Dialog) : Message × Dialog := (d.advance.byeRequest, d.advance)

/-- The line that is logged for the request a dialog has just counted. -/
def byeLog (d : Dialog) : Text :=
  "Created BYE for dialog " ++ d.callId ++ " (CSeq " ++ Text.decimal d.cseq.toNat ++ ")"

/-- The receiver's field of a response: a final response to a request without a
tag adds the dialog's own. -/
def answeredReceiver (d : Dialog) (receiver : Text) (code : Int) : Text :=
  if 200 ≤ code ∧ (tagOf receiver).isEmpty then receiver ++ ";tag=" ++ d.localTag else receiver

/-- The response to a request: it repeats the request's Via fields, sender, call
and sequence number. -/
def respond (d : Dialog) (request : Message) (code : Int) : Message :=
  let h := request.headers
  let vias : Headers := ⟨h.fields.filter (·.name = ascii "Via")⟩
  (Message.response code []).withHeaders fun _ =>
    vias.set "From" h.sender
      |>.set "Call-ID" h.callId
      |>.set "CSeq" h.cseq
      |>.set "To" (d.answeredReceiver h.receiver code)

end Dialog

end FileSharing.Sip
