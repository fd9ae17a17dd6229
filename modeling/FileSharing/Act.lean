import FileSharing.Environment

/-!
# Actions of the stack

An operation of the stack is an action: it reads and changes the world and may
call collaborators that use the stack again.  How such a nested operation is
carried out is handed to the action from outside.

## Main definitions

* `Act` — actions, with the small ones that all operations are made of.
* `Act.play` — carrying out the program of a callback.
-/

namespace FileSharing

/-- An action in a world.  What it can read is how an operation is carried out
that a callback starts. -/
abbrev Act (E : Environment) : Type → Type :=
  ReaderT (Op → StateM (World E) Reply) (StateM (World E))

namespace Act

variable {E : Environment} {α : Type}

/-! ### State -/

/-- The stack as it is now. -/
def stack : Act E Stack := return (← get).stack

/-- Change the stack. -/
def change (f : Stack → Stack) : Act E Unit := modify fun w => { w with stack := f w.stack }

/-- A session as it is now. -/
def session (r : Ref) : Act E Session := return (← stack).session r

/-- The file part of a session as it is now. -/
def transfer (r : Ref) : Act E Transfer := return (← stack).transfer r

/-- The registered session that is found for a call now. -/
def findByCall? (callId : Text) : Act E (Option Ref) := return (← get).findByCall? callId

/-- Change a session. -/
def update (r : Ref) (f : Session → Session) : Act E Unit := change (·.update r f)

/-- Change the file part of a session. -/
def updateTransfer (r : Ref) (f : Transfer → Transfer) : Act E Unit := change (·.updateTransfer r f)

/-! ### Trace -/

/-- Write an event into the trace. -/
def emit (e : Event E.Note) : Act E Unit := modify fun w => { w with trace := w.trace ++ [e] }

/-- Log a line for the developer. -/
def debug (line : Text) : Act E Unit := emit (.log .debug line)

/-- Log a line on the ordinary course of events. -/
def info (line : Text) : Act E Unit := emit (.log .info line)

/-- Log a line on something unexpected. -/
def warn (line : Text) : Act E Unit := emit (.log .warn line)

/-- Log a line on something that should not have happened. -/
def error (line : Text) : Act E Unit := emit (.log .error line)

/-! ### Failing -/

/-- Fail; the failure is logged where it arises. -/
def fail (code : ErrorCode) (message : Text) : Act E (Outcome α) := do
  let f : Failure := ⟨code, message⟩
  debug f.logLine
  return .error f

/-- Turn what a collaborator answered into an outcome. -/
def report : Option Failure → Act E (Outcome Unit)
  | none => return .ok ()
  | some f => do
    debug f.logLine
    return .error f

/-- Log a warning that starts with `line` if something has failed. -/
def warnOnFailure (line : Text) : Outcome Unit → Act E Unit
  | .ok _ => return
  | .error f => warn (line ++ f.what)

/-! ### Collaborators -/

/-- Ask a collaborator that does not use the stack. -/
def ask (f : E.State → α × E.State) : Act E α :=
  modifyGet fun w =>
    let (a, client) := f w.client
    (a, { w with client := client })

/-- Carry out a program that may use the stack. -/
def play : Program E.State E.Note α → Act E α
  | .done a => return a
  | .call op next => do
    let r ← (← read) op
    play (next r)
  | .look next => do
    let w ← get
    play (next w.stack w.client)
  | .change f next => do
    modify fun w => { w with client := f w.client }
    play next
  | .write n next => do
    emit (.note n)
    play next

/-- Send a request of a session. -/
def sendRequest (r : Ref) (m : Sip.Message) : Act E (Outcome Unit) := do
  emit (.request r m)
  report (← ask (E.sendRequest m))

/-- Send a response of a session, or for none. -/
def sendResponse (r : Option Ref) (m : Sip.Message) : Act E (Outcome Unit) := do
  emit (.response r m)
  report (← ask (E.sendResponse m))

/-- Call the control of a session's transfer. -/
def drive (r : Ref) (number : Nat) (call : ControlCall) : Act E (Outcome Unit) := do
  emit (.control r number call)
  let result ← report (← play (E.control r number call))
  emit (.controlDone r number call (Outcome.succeeded result))
  return result

/-- Call listeners, one after another, for a session.  An exception is logged
and the next listener is called. -/
def callAll (r : Ref) (contact : Contact) (c : Callback) : List Listener → Act E Unit
  | [] => return
  | l :: ls => do
    emit (.callback r l contact c)
    match ← play (E.listener l r c) with
    | some message => error (listenerFailure c.name message)
    | none => pure ()
    callAll r contact c ls

/-- Call the listeners that a session has now. -/
def notify (r : Ref) (c : Callback) : Act E Unit := do
  let s ← session r
  let t ← transfer r
  emit (.fanout r c t.listeners.members)
  callAll r s.contact c t.listeners.members

end Act

end FileSharing
