import FileSharing.Log
import FileSharing.Operation

/-!
# The world around the stack

The stack works with collaborators that it knows nothing about: the signaling
transport, the transfer engine, the capability service, the message history, the
clocks, and the client's listeners.  Listeners, controls and the client's
removal callback may use the stack while it is calling them, so what they do is a
*program* over the stack's own operations.

The stack has one caller at a time: an operation begins while another one is carried
out only if a collaborator asks for it from within.  Operations of several callers at
once are not described.

Everything that passes between the stack and its surroundings is written down in
the trace of a `World`.

## Main definitions

* `Program` — what a callback does: operations on the stack, each chosen with
  the answers before it in view, and changes of the client's own state.
* `Environment` — the collaborators.
* `Event`, `World` — what is written down, and the state of everything.
-/

namespace FileSharing

/-- What a callback does before it returns.  `σ` is the state of the client, `ν`
the type of the notes it writes into the trace, and `α` what it returns. -/
inductive Program (σ ν α : Type) where
  /-- Return. -/
  | done (a : α)
  /-- Do something to the stack and go on with its answer. -/
  | call (op : Op) (next : Reply → Program σ ν α)
  /-- Look at the stack and at the client's state. -/
  | look (next : Stack → σ → Program σ ν α)
  /-- Change the client's state. -/
  | change (f : σ → σ) (next : Program σ ν α)
  /-- Write a note. -/
  | write (n : ν) (next : Program σ ν α)

namespace Program

variable {σ ν α β : Type}

/-- One program after another. -/
def bind : Program σ ν α → (α → Program σ ν β) → Program σ ν β
  | done a, f => f a
  | call op next, f => call op fun r => (next r).bind f
  | look next, f => look fun s c => (next s c).bind f
  | change g next, f => change g (next.bind f)
  | write n next, f => write n (next.bind f)

instance : Monad (Program σ ν) where
  pure := done
  bind := bind

/-- Whether a program does nothing to the stack but what `P` allows. -/
def Asks (P : Op → Prop) : Program σ ν α → Prop
  | done _ => True
  | call op next => P op ∧ ∀ r, (next r).Asks P
  | look next => ∀ s c, (next s c).Asks P
  | change _ next => next.Asks P
  | write _ next => next.Asks P

end Program

/-- The collaborators of a stack and the client that uses it.  A collaborator
that can fail answers with the failure. -/
structure Environment where
  /-- The state of all collaborators and of the client. -/
  State : Type
  /-- What a client writes into the trace. -/
  Note : Type
  /-- Send a request. -/
  sendRequest : Sip.Message → State → Option Failure × State
  /-- Send a response. -/
  sendResponse : Sip.Message → State → Option Failure × State
  /-- Ask for a contact's capabilities. -/
  askCapabilities : Contact → State → Option Failure × State
  /-- Mark a transfer as read. -/
  markRead : Text → State → Option Failure × State
  /-- Make the transfer with this number; answers whether there is a control. -/
  makeTransfer : Nat → State → Bool × State
  /-- The time of a clock, in milliseconds. -/
  now : Clock → State → Int × State
  /-- A new name for a transfer. -/
  newTransferId : State → Text × State
  /-- A new dialog tag. -/
  newTag : State → Text × State
  /-- Which session of a call is found, where the registry has one and `others` besides.
  It is searched in an order of its own, of which nothing is known but that it is the same
  for as long as nothing changes. -/
  pick : Stack → State → (others : Nat) → Fin (others + 1)
  /-- What a listener does when it is called; it may throw an exception of the
  standard class, with some text.  Exceptions of other kinds, which nobody would
  catch, are left out. -/
  listener : Listener → Ref → Callback → Program State Note (Option Text)
  /-- What the control of a transfer does when it is called for its session. -/
  control : Ref → Nat → ControlCall → Program State Note (Option Failure)
  /-- What the client does when a session has left the registry. -/
  removed : Text → Program State Note Unit

/-- What passes between a stack and its surroundings, or marks a point in the
life of a session. -/
inductive Event (ν : Type) where
  /-- A line is logged. -/
  | log (level : Level) (line : Text)
  /-- An operation is asked for; what a service asks of one of its sessions counts
  as well. -/
  | asked (op : Op)
  /-- A session is about to call its listeners, one after another. -/
  | fanout (r : Ref) (callback : Callback) (listeners : List Listener)
  /-- A listener is called by a session. -/
  | callback (r : Ref) (l : Listener) (contact : Contact) (callback : Callback)
  /-- The engine is asked for a transfer. -/
  | transfer (r : Ref) (number : Nat) (movement : Movement) (content : Content)
      (icon : Option Content)
  /-- The control of a transfer is called by its session. -/
  | control (r : Ref) (number : Nat) (call : ControlCall)
  /-- A download compares its expiry with the time. -/
  | clock (r : Ref) (time : Int)
  /-- A session sends a request. -/
  | request (r : Ref) (message : Sip.Message)
  /-- A response is sent, by a session or for none. -/
  | response (r : Option Ref) (message : Sip.Message)
  /-- A contact's capabilities are asked for. -/
  | capabilities (contact : Contact)
  /-- A transfer is marked as read. -/
  | markRead (id : Text)
  /-- The client is told that a session has left the registry. -/
  | removed (id : Text)
  /-- The media of a plain session are closed. -/
  | mediaClosed (id : Text)
  /-- The call of a control has returned. -/
  | controlDone (r : Ref) (number : Nat) (call : ControlCall) (succeeded : Bool)
  /-- A session enters the registry. -/
  | registered (id : Text) (r : Ref)
  /-- Data begins to flow. -/
  | established (r : Ref)
  /-- A session is interrupted. -/
  | interrupted (r : Ref)
  /-- The end of a file transfer is claimed. -/
  | claimed (r : Ref) (ending : Ending)
  /-- The request that claimed the end of a file transfer has been dealt with. -/
  | byeDone (r : Ref) (contact : Contact)
  /-- The client writes a note. -/
  | note (n : ν)

/-- The state of everything, and what has happened so far. -/
structure World (E : Environment) where
  /-- The stack. -/
  stack : Stack
  /-- The collaborators and the client. -/
  client : E.State
  /-- What has happened, in order. -/
  trace : List (Event E.Note)

/-- The registered session that is found for a call. -/
def World.findByCall? {E : Environment} (w : World E) (callId : Text) : Option Ref :=
  w.stack.findByCall? (E.pick w.stack w.client) callId

end FileSharing
