import FileSharing.Session.Teardown

/-!
# A transfer under way

The engine's events and the client's requests for one file transfer.  Events of a
session whose teardown is under way are dropped, and requests are refused; a
transfer can be paused and resumed only once data flows.

## Main definitions

* `Act.handle` — an event of the engine.
* `Act.startUpload`, `Act.accept`, `Act.reject` — how a transfer begins, or is
  declined.
* `Act.pause`, `Act.resume` — holding a transfer and letting it go on.
-/

namespace FileSharing

/-- What a transfer is called in the log; a generic one is not mentioned there. -/
def Role.noun? : Role → Option Text
  | generic => none
  | outgoing => some "upload"
  | incoming _ => some "download"

namespace Act

variable {E : Environment}

/-! ### Events of the engine -/

/-- The first report of data makes the session established. -/
def started (r : Ref) : Act E Unit := do
  if ← accepts r "started" then
    let s ← session r
    if (← transfer r).phase = .established then
      debug (ascii "Session " ++ s.id ++ " already established")
    else
      updateTransfer r fun t => { t with phase := .established }
      emit (.established r)
      info (ascii "Session " ++ s.id ++ " state changed: PENDING -> ESTABLISHED")
      notify r .started

/-- Pass an event on to the listeners. -/
def relay (r : Ref) (what : Text) (c : Callback) : Act E Unit := do
  if ← accepts r what then notify r c

/-- Handle an event of the engine. -/
def handle (r : Ref) : EngineEvent → Act E Unit
  | .started => started r
  | .progress current total => relay r "progress" (.progress current total)
  | .notAllowed => relay r "not allowed to send" .notAllowed
  | .pausedByUser => relay r "paused by user" .pausedByUser
  | .pausedBySystem => relay r "paused by system" .pausedBySystem
  | .resumed => relay r "resumed" .resumed
  | .transferred => delivered r
  | .failed e => fails r e

/-! ### Expiry -/

/-- Whether the file of a download has expired.  The clock is read only where
there is an expiry to compare with. -/
def isExpired (r : Ref) : Act E Bool := do
  let t ← transfer r
  match t.role with
  | .incoming clock =>
    if t.fileExpiry ≤ 0 then return false
    let time ← ask (E.now clock)
    emit (.clock r time)
    return t.expiredAt time
  | _ => return false

/-- A download ends because its file has expired. -/
def failExpired (r : Ref) : Act E (Outcome Unit) := do
  let s ← session r
  warn (ascii "File " ++ s.id ++ " expired on content server at "
    ++ Text.signed (← transfer r).fileExpiry)
  fails r .expired
  fail .contentExpired (ascii "File " ++ s.id ++ " is no longer available")

/-! ### Beginning -/

/-- The refusal of a request for a session whose teardown is under way. -/
def refuseTerminated (s : Session) : Act E (Outcome Unit) :=
  fail .invalidState (ascii "Session " ++ s.id ++ " is terminated")

/-- Start the control of a transfer; from then on the transfer has begun. -/
def begin (r : Ref) (number : Nat) : Act E (Outcome Unit) := do
  let result ← drive r number .start
  if Outcome.succeeded result then updateTransfer r fun t => { t with begun := true }
  return result

/-- Start an upload, once. -/
def startUpload (r : Ref) : Act E (Outcome Unit) := do
  let s ← session r
  let t ← transfer r
  if s.interrupted then refuseTerminated s
  else if t.begun then fail .invalidState (ascii "Upload " ++ s.id ++ " already started")
  else
    match t.control with
    | none => fail .serviceNotAvailable ("No upload available for " ++ s.id)
    | some number => do
      info (ascii "Start upload " ++ s.id ++ " of " ++ t.content.name ++ " ("
        ++ Text.decimal t.content.size.toNat ++ " bytes) to " ++ s.contact.value)
      begin r number

/-- Accept an invitation, once; a file that has expired ends the session. -/
def accept (r : Ref) : Act E (Outcome Unit) := do
  let s ← session r
  let t ← transfer r
  if s.interrupted then refuseTerminated s
  else if t.begun then fail .invalidState (ascii "Invitation " ++ s.id ++ " already accepted")
  else if ← isExpired r then failExpired r
  else
    match t.control with
    | none => fail .serviceNotAvailable ("No download available for " ++ s.id)
    | some number => do
      info (ascii "Accept invitation " ++ s.id ++ " from " ++ s.contact.value)
      begin r number

/-- Decline an invitation. -/
def reject (r : Ref) : Act E (Outcome Unit) := do
  let s ← session r
  info (ascii "Reject invitation " ++ s.id ++ " from " ++ s.contact.value)
  abort r .byUser

/-! ### Pausing -/

/-- Pass a request on to the control of a transfer.  The log calls the request
`verb`, and `title` at the start of a line.  An upload or download without a control
cannot be held; for a generic transfer there is then nothing to do. -/
def passOn (r : Ref) (title verb : Text) (call : ControlCall) : Act E (Outcome Unit) := do
  let s ← session r
  let t ← transfer r
  match t.role.noun? with
  | none =>
    match t.control with
    | none => return .ok ()
    | some number => drive r number call
  | some noun => do
    info (title ++ " " ++ noun ++ " " ++ s.id)
    match t.control with
    | none => fail .invalidState (ascii "No " ++ noun ++ " to " ++ verb)
    | some number => drive r number call

/-- Pause a transfer whose data flows. -/
def pause (r : Ref) : Act E (Outcome Unit) := do
  let s ← session r
  let t ← transfer r
  if s.interrupted then refuseTerminated s
  else if t.phase ≠ .established then
    fail .invalidState (ascii "Cannot pause transfer " ++ s.id ++ " before it started")
  else passOn r "Pause" "pause" .pause

/-- Let a transfer whose data has flowed go on; a download whose file has expired
ends instead. -/
def resume (r : Ref) : Act E (Outcome Unit) := do
  let s ← session r
  let t ← transfer r
  if s.interrupted then refuseTerminated s
  else if t.phase ≠ .established then
    fail .invalidState (ascii "Cannot resume transfer " ++ s.id ++ " before it started")
  else if ← isExpired r then failExpired r
  else passOn r "Resume" "resume" .resume

end Act

end FileSharing
