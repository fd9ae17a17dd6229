import FileSharing.Session.Basic
import FileSharing.Settings

/-!
# The stack

All state of the stack: the sessions ever made, the registry of the active ones,
the capability refreshes that wait in the event loop, and the file transfer
service with its settings and listeners.

A session that was made is never destroyed, as if its client kept hold of it: it can
be used after it has left the registry, for as long as the stack is there.

## Main definitions

* `Stack` — the state.
* `Stack.session`, `Stack.update` — a session, and changing it.
* `Stack.find?`, `Stack.ofCall`, `Stack.findByCall?`, `Stack.transfers` — the registry's
  look-ups.
-/

namespace FileSharing

/-- The state of the stack. -/
structure Stack where
  /-- The sessions ever made; a `Ref` is a place in this array. -/
  sessions : Array Session
  /-- The registered sessions under their names, the latest one first. -/
  registry : List (Text × Ref)
  /-- The contacts whose capabilities are to be asked for, in order. -/
  refreshes : List Contact
  /-- Whether the client wants to hear of sessions leaving the registry. -/
  watched : Bool
  /-- The settings of the file transfer service. -/
  settings : Settings
  /-- The listeners that are attached to every transfer of the service. -/
  listeners : ListenerSet Listener
  /-- The number of transfers that the engine was asked for. -/
  created : Nat
  deriving Inhabited

namespace Stack

/-- A stack on which nothing has happened. -/
def fresh (settings : Settings) : Stack := ⟨#[], [], [], false, settings, .empty, 0⟩

/-! ### Sessions -/

/-- A session; a name that was never given out reads as a default. -/
def session (s : Stack) (r : Ref) : Session := s.sessions[r]?.getD default

/-- The file part of a session; a plain session reads as a default. -/
def transfer (s : Stack) (r : Ref) : Transfer := (s.session r).transfer.getD default

/-- Change a session. -/
def update (s : Stack) (r : Ref) (f : Session → Session) : Stack :=
  { s with sessions := s.sessions.modify r f }

/-- Change the file part of a session. -/
def updateTransfer (s : Stack) (r : Ref) (f : Transfer → Transfer) : Stack :=
  s.update r fun x => { x with transfer := x.transfer.map f }

/-- Whether a name is that of a session for a file transfer. -/
def isTransfer (s : Stack) (r : Ref) : Bool := (s.sessions[r]?.bind Session.transfer).isSome

/-! ### The registry -/

/-- The session registered under a name. -/
def find? (s : Stack) (id : Text) : Option Ref := s.registry.lookup id

/-- The number of registered sessions. -/
def count (s : Stack) : Nat := s.registry.length

/-- The registered sessions whose dialogs belong to a call.  No session belongs to the
empty call. -/
def ofCall (s : Stack) (callId : Text) : List Ref :=
  if callId.isEmpty then []
  else (s.registry.map Prod.snd).filter fun r => (s.session r).callId = callId

/-- A registered session whose dialog belongs to a call, if there is one.  Which of
several it is, `pick` says: nothing is known of the order in which they are found. -/
def findByCall? (s : Stack) (pick : (others : Nat) → Fin (others + 1)) (callId : Text) :
    Option Ref :=
  match s.ofCall callId with
  | [] => none
  | r :: rs => some ((r :: rs).get (pick rs.length))

/-- The registered file transfers. -/
def transfers (s : Stack) : List Ref := (s.registry.map Prod.snd).filter s.isTransfer

/-- The file transfer registered under a name. -/
def findTransfer? (s : Stack) (id : Text) : Option Ref := (s.find? id).filter s.isTransfer

/-- The incoming transfer registered under a name. -/
def findIncoming? (s : Stack) (id : Text) : Option Ref :=
  (s.findTransfer? id).filter fun r =>
    match (s.transfer r).role with
    | .incoming _ => true
    | _ => false

/-- The outgoing transfer registered under a name. -/
def findOutgoing? (s : Stack) (id : Text) : Option Ref :=
  (s.findTransfer? id).filter fun r => (s.transfer r).role = .outgoing

end Stack

end FileSharing
