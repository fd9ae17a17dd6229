import FileSharing.Proofs.Fanouts
import FileSharing.Proofs.Growth

/-!
# The life of a session, as its listeners see it

What listeners are told of a file transfer follows from very little: whether data
has begun to flow, whether the transfer was begun, whether it has ended, and who
listens.  The machine of this module reads what is asked of a session, and says
which callbacks follow.  It knows nothing of dialogs, controls or the registry.

## Main definitions

* `Life` — what the machine knows of a session, `Session.life` of a given one.
* `Turn`, `Life.turn` — what is to come of an operation.
* `Task` — what the listeners are owed.
* `Life.step`, `Life.run` — the machine; it refuses an event that must not happen.

## Main results

* `Life.run_append` — a run goes on from where it was.
-/

namespace FileSharing

/-- What matters to the listeners of a session. -/
structure Life where
  /-- The other party. -/
  contact : Contact
  /-- What is fixed about the file. -/
  terms : Terms
  /-- Whether data has begun to flow. -/
  phase : Phase
  /-- Whether the transfer was begun. -/
  begun : Bool
  /-- Whether the session has ended. -/
  ended : Bool
  /-- Who listens. -/
  listeners : ListenerSet Listener
  deriving DecidableEq, Repr

/-- The life of a session so far. -/
def Session.life (x : Session) : Life :=
  let t := x.transfer.getD default
  ⟨x.contact, t.terms, t.phase, t.begun, x.interrupted, t.listeners⟩

/-- The life so far of the session with a name. -/
def Stack.life (s : Stack) (r : Ref) : Life := (s.session r).life

namespace Stack

variable (s : Stack) (r : Ref)

@[simp] theorem life_contact : (s.life r).contact = (s.session r).contact := rfl

@[simp] theorem life_terms : (s.life r).terms = (s.transfer r).terms := rfl

@[simp] theorem life_phase : (s.life r).phase = (s.transfer r).phase := rfl

@[simp] theorem life_begun : (s.life r).begun = (s.transfer r).begun := rfl

@[simp] theorem life_ended : (s.life r).ended = (s.session r).interrupted := rfl

@[simp] theorem life_listeners : (s.life r).listeners = (s.transfer r).listeners := rfl

end Stack

/-- What listeners are told of an ending. -/
def Terms.callback (t : Terms) : Ending → Callback
  | .abort reason => .aborted reason
  | .error e => .failed e
  | .delivery => .transferred t.content t.fileExpiry t.iconExpiry
  | .bye => .aborted .byRemote

theorem Ending.callback_eq (t : Transfer) (e : Ending) : e.callback t = t.terms.callback e := by
  cases e <;> rfl

/-- Whether a file can expire on this side: it is to be downloaded, and its expiry is
known. -/
def Terms.canExpire (t : Terms) : Bool := t.isIncoming && 0 < t.fileExpiry

/-- Whether a file has expired at a time. -/
def Terms.expiredAt (t : Terms) (now : Int) : Bool := 0 < t.fileExpiry && t.fileExpiry ≤ now

/-- The callbacks with which all of some listeners are called. -/
def callbacks {ν : Type} (r : Ref) (contact : Contact) (c : Callback) (ls : List Listener) :
    List (Event ν) :=
  ls.map fun l => .callback r l contact c

/-! ### What comes of an operation -/

/-- What comes of an operation on a session. -/
inductive Turn where
  /-- Nothing that listeners would notice. -/
  | nothing
  /-- The listeners are told of an event. -/
  | tell (c : Callback)
  /-- Data begins to flow, and the listeners are told. -/
  | establish
  /-- The session ends, and the listeners are told. -/
  | finish (e : Ending)
  /-- The session ends without a word. -/
  | close
  /-- The expiry is compared with the time, and the session ends if it has come. -/
  | compare
  /-- Someone begins to listen. -/
  | attach (l : Option Listener)
  /-- Someone no longer listens. -/
  | detach (l : Option Listener)
  deriving DecidableEq, Repr

/-- Whether an operation on a transfer only begins or ceases to listen. -/
def TransferOp.IsListening : TransferOp → Prop
  | .addListener _ => True
  | .removeListener _ => True
  | _ => False

/-- Whether someone begins or ceases to listen. -/
def Turn.IsListening : Turn → Prop
  | attach _ => True
  | detach _ => True
  | _ => False

namespace Life

/-- What comes of something that a session takes only until it has ended. -/
def unlessEnded (x : Life) (t : Turn) : Turn := if x.ended then .nothing else t

/-- What comes of a request that a download refuses once its file has expired. -/
def checked (x : Life) : Turn :=
  if x.terms.canExpire then x.unlessEnded .compare else .nothing

/-- What comes of an operation on a session. -/
def turn (x : Life) : TransferOp → Turn
  | .addListener l => .attach l
  | .removeListener l => .detach l
  | .setClock _ => .nothing
  | .engine .started => x.unlessEnded (if x.phase = .established then .nothing else .establish)
  | .engine (.progress current total) => x.unlessEnded (.tell (.progress current total))
  | .engine .pausedByUser => x.unlessEnded (.tell .pausedByUser)
  | .engine .pausedBySystem => x.unlessEnded (.tell .pausedBySystem)
  | .engine .resumed => x.unlessEnded (.tell .resumed)
  | .engine .notAllowed => x.unlessEnded (.tell .notAllowed)
  | .engine .transferred => x.unlessEnded (.finish .delivery)
  | .engine (.failed e) => x.unlessEnded (.finish (.error e))
  | .start => .nothing
  | .accept => if x.begun then .nothing else x.checked
  | .reject => if x.terms.isIncoming then x.unlessEnded (.finish (.abort .byUser)) else .nothing
  | .pause => .nothing
  | .resume => if x.phase = .established then x.checked else .nothing
  | .abort reason => x.unlessEnded (.finish (.abort reason))
  | .close _ => .close

/-- What comes of a request to end the dialog. -/
def byeTurn (x : Life) : Turn := x.unlessEnded (.finish .bye)

/-- A session that has ended takes nothing more. -/
theorem unlessEnded_of_ended {x : Life} (h : x.ended = true) (t : Turn) :
    x.unlessEnded t = .nothing :=
  if_pos h

theorem unlessEnded_of_live {x : Life} (h : x.ended = false) (t : Turn) : x.unlessEnded t = t :=
  if_neg (by simp [h])

/-- Only a request to close a session closes it. -/
theorem turn_eq_close {x : Life} {op : TransferOp} (h : x.turn op = .close) :
    ∃ reason, op = .close reason := by
  unfold turn checked unlessEnded at h
  split at h
  all_goals grind

/-- Only a request to listen or not to listen makes someone begin or cease to listen. -/
theorem isListening_of_turn {x : Life} {op : TransferOp} (h : (x.turn op).IsListening) :
    op.IsListening := by
  unfold turn checked unlessEnded at h
  split at h
  all_goals grind [Turn.IsListening, TransferOp.IsListening]

theorem not_isListening_byeTurn (x : Life) : ¬x.byeTurn.IsListening := by
  unfold byeTurn unlessEnded
  split
  · exact not_false
  · exact not_false

theorem byeTurn_ne_close (x : Life) : x.byeTurn ≠ .close := by
  unfold byeTurn unlessEnded
  split
  · simp
  · simp

theorem checked_of_ended {x : Life} (h : x.ended = true) : x.checked = .nothing := by
  rw [checked, unlessEnded_of_ended h, ite_self]

/-- What comes of any operation, for the session with this name. -/
def reaction (x : Life) (r : Ref) : Op → Turn
  | .transfer s op => if s = r then x.turn op else .nothing
  | .session s (.bye _) => if s = r then x.byeTurn else .nothing
  | .session s .interrupt => if s = r then .close else .nothing
  | _ => .nothing

end Life

/-! ### The machine -/

/-- What the listeners of a session are owed. -/
inductive Task where
  /-- Nothing. -/
  | idle
  /-- The time is to be read. -/
  | compare
  /-- The listeners are to be told. -/
  | due (c : Callback)
  /-- These listeners have not been called yet. -/
  | telling (c : Callback) (l : Listener) (rest : List Listener)
  deriving DecidableEq, Repr

/-- What is owed while some listeners have not been called yet. -/
def Task.rest (c : Callback) : List Listener → Task
  | [] => .idle
  | l :: ls => .telling c l ls

namespace Life

variable {ν : Type}

/-- A session begins something only where nothing is owed. -/
def whenIdle (x : Life) (task next : Task) : Option (Life × Task) :=
  if task = .idle then some (x, next) else none

/-- What comes of an operation, done. -/
def take (x : Life) (task : Task) : Turn → Option (Life × Task)
  | .nothing => some (x, task)
  | .tell c => x.whenIdle task (.due c)
  | .establish => { x with phase := .established }.whenIdle task (.due .started)
  | .finish e => { x with ended := true }.whenIdle task (.due (x.terms.callback e))
  | .close => some ({ x with ended := true }, task)
  | .compare => x.whenIdle task .compare
  | .attach l => some ({ x with listeners := (x.listeners.add l).2 }, task)
  | .detach l => some ({ x with listeners := (x.listeners.remove l).2 }, task)

/-- The time is known.  A file that has expired ends the session. -/
def compared (x : Life) (time : Int) : Life × Task :=
  if x.terms.expiredAt time then
    ({ x with ended := true }, .due (x.terms.callback (.error .expired)))
  else (x, .idle)

/-- The machine for the session with this name reads an event.  It refuses to
read a clock or call a listener where that is not owed. -/
def step (r : Ref) : Life × Task → Event ν → Option (Life × Task)
  | (x, task), .asked op => x.take task (x.reaction r op)
  | (x, task), .clock s time =>
    if s = r then
      if task = .compare then some (x.compared time) else none
    else some (x, task)
  | (x, task), .fanout s c ls =>
    if s = r then
      if task = .due c ∧ ls = x.listeners.members then some (x, .rest c ls) else none
    else some (x, task)
  | (x, task), .callback s l contact c =>
    if s = r then
      match task with
      | .telling c' l' rest =>
        if c = c' ∧ l = l' ∧ contact = x.contact then some (x, .rest c rest) else none
      | _ => none
    else some (x, task)
  | (x, task), .controlDone s _ .start true =>
    if s = r then some ({ x with begun := true }, task) else some (x, task)
  | x, _ => some x

/-- The machine reads what has happened, in order. -/
def run (r : Ref) (x : Life × Task) (T : List (Event ν)) : Option (Life × Task) :=
  T.foldlM (step r) x

theorem run_append (r : Ref) (x : Life × Task) (T T' : List (Event ν)) :
    run r x (T ++ T') = (run r x T).bind fun y => run r y T' := by
  simp [run, List.foldlM_append]

end Life

end FileSharing
