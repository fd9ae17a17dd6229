import FileSharing.Sip.Message

/-!
# Reading messages

A message is read line by line: the start line decides whether it can be read at
all, the lines up to the first empty one are header fields, and the rest is the
body.  Header lines without a colon are skipped.

## Main definitions

* `Start.read` — what the first line says.
* `Rest.read` — the fields, the skipped lines and the body.
* `Message.parse` — the message, `Message.readLog` the lines skipped for it.
-/

namespace FileSharing.Sip

/-- Read a start line.  It begins with the version in a response, whose code is
between 100 and 699 and whose reason is the rest of the line.  A request has a
method, an address and the version. -/
def Start.read (line : Text) : Outcome Start :=
  if line.isEmpty then
    .error ⟨.payloadError, "Invalid SIP message: empty start line"⟩
  else if Text.startsWith line version then
    let (_, rest) := Text.word line
    let (code, rest) := Text.readInt rest
    if code < 100 ∨ 699 < code then
      .error ⟨.payloadError, "Invalid SIP status line: " ++ line⟩
    else .ok (.response code rest.trim)
  else
    let (method, rest) := Text.word line
    let (uri, rest) := Text.word rest
    let (last, _) := Text.word rest
    if uri.isEmpty ∨ last ≠ version then
      .error ⟨.payloadError, "Invalid SIP request line: " ++ line⟩
    else .ok (.request (Method.ofName method) uri)

/-- What follows the start line of a message. -/
structure Rest where
  /-- The header fields, in order. -/
  fields : List Field
  /-- The header lines without a colon, in order. -/
  skipped : List Text
  /-- The body. -/
  body : Text
  deriving DecidableEq, Repr

/-- The colon, which ends a field's name. -/
def colon : UInt8 := 58

/-- Read what follows the start line. -/
def Rest.read (s : Text) : Rest :=
  match h : s.line? with
  | none => ⟨[], [], []⟩
  | some (line, rest) =>
    let line := line.dropCr
    if line.isEmpty then ⟨[], [], rest⟩
    else
      have := Text.length_lt_of_line? h
      let tail := Rest.read rest
      match Text.cutAtByte? colon line with
      | some (name, value) =>
        { tail with fields := ⟨canonicalName name, value.trim⟩ :: tail.fields }
      | none => { tail with skipped := line :: tail.skipped }
termination_by s.length

namespace Message

/-- The first line of a text, and what follows it; an empty text has an empty
first line. -/
def splitStart (s : Text) : Text × Text := s.line?.getD ([], [])

/-- Read a message. -/
def parse (s : Text) : Outcome Message :=
  let (line, rest) := splitStart s
  match Start.read line.trim with
  | .error f => .error f
  | .ok start =>
    let rest := Rest.read rest
    .ok ⟨start, ⟨rest.fields⟩, rest.body⟩

/-- The lines that are logged while a message is read: one for each skipped
header line, or the failure. -/
def readLog (s : Text) : List Text :=
  match parse s with
  | .error f => [f.logLine]
  | .ok _ =>
    (Rest.read (splitStart s).2).skipped.map ("Skipping malformed SIP header line: " ++ ·)

end Message

end FileSharing.Sip
