import FileSharing.Failure
import FileSharing.Sip.Header

/-!
# Messages

A signaling message is a request or a response: a start line, header fields and
a body of any bytes.

## Main definitions

* `Method`, `Start`, `Message` — messages and their parts.
* `reasonFor` — the usual reason phrase of a status code.
* `Message.toText` — the written form.
-/

namespace FileSharing.Sip

/-- What a request asks for. -/
inductive Method where
  /-- Open a session. -/
  | invite
  /-- Confirm a final response. -/
  | ack
  /-- End a dialog. -/
  | bye
  /-- Withdraw a request. -/
  | cancel
  /-- Ask for capabilities. -/
  | options
  /-- Carry a text. -/
  | message
  /-- Change a session. -/
  | update
  /-- Any other method. -/
  | unknown
  deriving DecidableEq, Repr, Inhabited

namespace Method

/-- All methods in the order of their numbers. -/
def all : List Method := [invite, ack, bye, cancel, options, message, update, unknown]

/-- The method's name in a message. -/
def name : Method → Text
  | invite => "INVITE"
  | ack => "ACK"
  | bye => "BYE"
  | cancel => "CANCEL"
  | options => "OPTIONS"
  | message => "MESSAGE"
  | update => "UPDATE"
  | unknown => "UNKNOWN"

/-- The method of a name; names are compared exactly. -/
def ofName (name : Text) : Method := (all.find? fun m => m.name = name).getD unknown

/-- The method's number: its place in `all`. -/
def number (m : Method) : Nat := all.idxOf m

/-- The method with a number. -/
def ofNumber (n : Int) : Method := if n < 0 then unknown else (all[n.toNat]?).getD unknown

end Method

/-- The usual reason phrase of a status code. -/
def reasonFor : (code : Int) → Text
  | 100 => "Trying"
  | 180 => "Ringing"
  | 183 => "Session Progress"
  | 200 => "OK"
  | 202 => "Accepted"
  | 400 => "Bad Request"
  | 403 => "Forbidden"
  | 404 => "Not Found"
  | 408 => "Request Timeout"
  | 481 => "Call/Transaction Does Not Exist"
  | 486 => "Busy Here"
  | 487 => "Request Terminated"
  | 500 => "Server Internal Error"
  | 503 => "Service Unavailable"
  | 603 => "Decline"
  | _ => "Unknown"

/-- What the first line of a message says. -/
inductive Start where
  /-- A request and the address it goes to. -/
  | request (method : Method) (uri : Text)
  /-- A response and its reason phrase. -/
  | response (code : Int) (reason : Text)
  deriving DecidableEq, Repr

/-- A signaling message. -/
structure Message where
  /-- What the first line says. -/
  start : Start
  /-- The header fields. -/
  headers : Headers
  /-- The body. -/
  body : Text
  deriving DecidableEq, Repr

/-- The version that start lines carry. -/
def version : Text := "SIP/2.0"

/-- The end of a line as it is written. -/
def crlf : Text := [Text.cr, Text.lf]

/-- The name of the field with the length of the body. -/
def contentLength : Text := "Content-Length"

/-- The start line as it is written. -/
def Start.toText : Start → Text
  | .request method uri => method.name ++ " " ++ uri ++ " " ++ version ++ crlf
  | .response code reason => version ++ " " ++ Text.signed code ++ " " ++ reason ++ crlf

/-- A field as it is written. -/
def Field.toText (f : Field) : Text := f.name ++ ": " ++ f.value ++ crlf

namespace Message

/-- A request without fields and body. -/
def request (method : Method) (uri : Text) : Message := ⟨.request method uri, .empty, []⟩

/-- A response without fields and body.  An empty reason phrase becomes the
usual one. -/
def response (code : Int) (reason : Text) : Message :=
  ⟨.response code (if reason.isEmpty then reasonFor code else reason), .empty, []⟩

/-- The call a message belongs to. -/
def callId (m : Message) : Text := m.headers.callId

/-- Whether a message is a request to end a dialog. -/
def isBye (m : Message) : Bool :=
  match m.start with
  | .request .bye _ => true
  | _ => false

/-- The address a request goes to; empty for a response. -/
def requestUri (m : Message) : Text :=
  match m.start with
  | .request _ uri => uri
  | .response _ _ => []

/-- Replace the header fields. -/
def withHeaders (m : Message) (f : Headers → Headers) : Message := { m with headers := f m.headers }

/-- Give a message a body and the field with its length. -/
def setBody (m : Message) (body : Text) : Message :=
  { m with body := body, headers := m.headers.set contentLength (Text.decimal body.length) }

/-- A message as it is sent: start line, fields, the length of the body unless a
field gives it, an empty line and the body. -/
def toText (m : Message) : Text :=
  m.start.toText ++ m.headers.fields.flatMap Field.toText
    ++ (if m.headers.has contentLength then []
        else (⟨contentLength, Text.decimal m.body.length⟩ : Field).toText)
    ++ crlf ++ m.body

end Message

end FileSharing.Sip
