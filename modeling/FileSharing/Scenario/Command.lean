import FileSharing.Environment
import FileSharing.Scenario.Naming
import FileSharing.Sip.Reader

/-!
# Scenarios

A scenario exercises a stack with scripted collaborators: commands run one after
another, listeners carry hooks that run further commands when they are called,
controls report scripted events, and each collaborator can be told to fail.
Sessions and listeners are named by the scenario.

## Main definitions

* `Command`, `Hook` — what a scenario does.
* `Answer` — what a command answers.
* `Client` — the state of the scripted collaborators.
-/

namespace FileSharing.Scenario

/-- The collaborators that can be told to fail. -/
inductive Target where
  /-- Sending requests. -/
  | requests
  /-- Sending responses. -/
  | responses
  /-- Asking for capabilities. -/
  | capability
  /-- Marking as read. -/
  | mark
  /-- A call of a control. -/
  | control (call : ControlCall)
  deriving DecidableEq, Repr

/-- The name of a control call. -/
def callName : ControlCall → Text
  | .start => "start"
  | .pause => "pause"
  | .resume => "resume"
  | .cancel => "cancel"

/-- The name of a target. -/
def Target.name : Target → Text
  | requests => "requests"
  | responses => "responses"
  | capability => "capability"
  | mark => "mark"
  | control call => callName call

/-- The events that a control reports while it is called. -/
abbrev Script := List (ControlCall × List EngineEvent)

/-- Where a dialog comes from. -/
inductive DialogSource where
  /-- It is opened by the request with this text. -/
  | request (text localTag : Text)
  /-- It is given. -/
  | given (dialog : Sip.Dialog)
  deriving DecidableEq, Repr

/-- The kinds of sessions. -/
inductive Kind where
  /-- Any session. -/
  | any
  /-- A plain session. -/
  | plain
  /-- Any file transfer; a new one is generic. -/
  | transfer
  /-- An outgoing transfer. -/
  | outgoing
  /-- An incoming transfer. -/
  | incoming
  deriving DecidableEq, Repr

/-- The fields that new sessions, sent files and invitations are made from.  A
contact is given as it was written; none stands for nobody. -/
structure Fields where
  /-- The name that the scenario gives the session. -/
  handle : Option Text
  /-- The name under which it is registered; empty for a new one. -/
  id : Text
  /-- The other party. -/
  contact : Option Text
  /-- The other party's address. -/
  uri : Text
  /-- The file. -/
  content : Content
  /-- Its icon. -/
  icon : Option Content
  /-- The conversation that the file belongs to. -/
  contribution : Text
  /-- When the session is made. -/
  timestamp : Int
  /-- When the file expires. -/
  fileExpiry : Int
  /-- When the icon expires. -/
  iconExpiry : Int
  /-- The dialog it comes with. -/
  dialog : Option DialogSource
  /-- Which clock tells whether a download has expired. -/
  clock : Clock

mutual

/-- What a scenario does. -/
inductive Command where
  /-- Set the assigned clock. -/
  | setClock (now : Int)
  /-- Let a collaborator fail with a code, or succeed again. -/
  | fail (target : Target) (code : Option ErrorCode)
  /-- Say whether later transfers have a control, and what it reports. -/
  | engine (hasControl : Bool) (script : Script)
  /-- Make a listener. -/
  | listener (name : Text) (hooks : List Hook)
  /-- Add a listener to a session. -/
  | addListener (s : Text) (l : Option Text)
  /-- Remove a listener from a session. -/
  | removeListener (s : Text) (l : Option Text)
  /-- Add a listener to the service. -/
  | addServiceListener (l : Option Text)
  /-- Remove a listener from the service. -/
  | removeServiceListener (l : Option Text)
  /-- Make a session. -/
  | newSession (kind : Kind) (fields : Fields)
  /-- Give a session a dialog. -/
  | dialog (s : Text) (source : DialogSource)
  /-- Show a session. -/
  | info (s : Text)
  /-- Do something to the session of a file transfer. -/
  | transfer (s : Text) (op : TransferOp)
  /-- Do something to any session. -/
  | session (s : Text) (op : SessionOp)
  /-- Ask a session for a request that opens it. -/
  | invite (s : Text)
  /-- Hand a session the text of a request to end its dialog. -/
  | bye (s : Text) (text : Text)
  /-- Register a session. -/
  | register (s : Option Text)
  /-- Find the session registered under a name. -/
  | get (id : Text) (kind : Kind)
  /-- Find the registered session of a call. -/
  | findCall (callId : Text)
  /-- List the names of the registered sessions of a kind. -/
  | list (kind : Kind)
  /-- Hand the stack the text of a request that should end a dialog. -/
  | receiveBye (text : Text)
  /-- Run commands when a session leaves the registry, the first time. -/
  | onRemoved (on : Bool) (ops : List (Text × Command))
  /-- Send a file. -/
  | send (fields : Fields)
  /-- Receive an invitation. -/
  | invitation (fields : Fields)
  /-- Show the settings of the service. -/
  | settings
  /-- Any other operation. -/
  | direct (op : Op)

/-- What a listener does when it is called for an event, or for every event:
commands, each with the label its answer is noted under, and perhaps an exception.
A hook runs once unless it is to run always. -/
inductive Hook where
  /-- A hook. -/
  | mk (event : Text) (ops : List (Text × Command)) (throws : Option Text) (always : Bool)

end

/-- What a command answers. -/
inductive Answer where
  /-- It is done. -/
  | ok
  /-- Yes or no. -/
  | flag (b : Bool)
  /-- Nothing was found. -/
  | null
  /-- A name. -/
  | name (t : Text)
  /-- A list of names. -/
  | names (ts : List Text)
  /-- It failed. -/
  | failure (f : Failure)
  /-- A session, and whether its file has expired. -/
  | session (s : Session) (expired : Bool)
  /-- The settings of the service. -/
  | settings (s : Settings)
  /-- The command makes no sense. -/
  | badInput (message : Text)

/-- A scripted listener: its name and its hooks, each with whether it has run. -/
structure ScriptedListener where
  /-- The name. -/
  name : Text
  /-- The hooks. -/
  hooks : List (Hook × Bool)

/-- The state of the scripted collaborators. -/
structure Client where
  /-- The sessions that have a name in the scenario. -/
  handles : List (Text × Ref)
  /-- The listeners that have a name. -/
  names : List (Text × Listener)
  /-- All listeners; a `Listener` is a place in this array. -/
  listeners : Array ScriptedListener
  /-- The collaborators that fail, with their codes. -/
  failures : List (Target × ErrorCode)
  /-- Whether later transfers have a control. -/
  hasControl : Bool
  /-- What the controls of later transfers report. -/
  script : Script
  /-- What the controls of the transfers made so far report. -/
  scripts : List (Nat × Script)
  /-- The time of the assigned clock. -/
  now : Int
  /-- The transfer ids given out. -/
  naming : Naming
  /-- What to run when a session leaves the registry. -/
  onRemoved : List (Text × Command)

/-- The collaborators before a scenario. -/
def Client.fresh : Client := ⟨[], [], #[], [], true, [], [], 1000000, .empty, []⟩

end FileSharing.Scenario
