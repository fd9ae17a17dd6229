import FileSharing.Scenario.Command

/-!
# Scripted collaborators

Commands become programs over the stack, and the scripted collaborators become
an environment for it.

## Main definitions

* `Command.program` — what a command does.
* `scripted` — the environment of a scenario.
-/

namespace FileSharing.Scenario

/-- A program of a scenario: it notes the answers of the commands that callbacks
run, each under its label. -/
abbrev Prog (α : Type) := Program Client (Text × Answer) α

/-- The time of the system's clock in a scenario. -/
def systemTime : Int := 1780000000123

/-- The dialog tag that is given out. -/
def newTag : Text := "<random>"

namespace Client

/-- The time of a clock. -/
def time (c : Client) : Clock → Int
  | .system => systemTime
  | .assigned => c.now

/-- Whether the file of a session is a download that has expired. -/
def hasExpired (c : Client) (s : Session) : Bool :=
  match s.transfer with
  | some t =>
    match t.role with
    | .incoming clock => t.expiredAt (c.time clock)
    | _ => false
  | none => false

/-- Of several sessions of a call, the one that was registered last is found. -/
def pick (others : Nat) : Fin (others + 1) := 0

/-- The failure that a collaborator was told to answer with. -/
def failure (c : Client) (target : Target) : Option Failure :=
  (c.failures.lookup target).map fun code => ⟨code, target.name ++ " failed"⟩

/-- The session a scenario means by a name: the one it has given this name, or the
registered one with the new id of this name. -/
def find? (c : Client) (s : Stack) (name : Text) : Option Ref :=
  match c.handles.lookup name with
  | some r => some r
  | none => (c.naming.id? name).bind s.find?

/-- A scenario's own name for a session. -/
def nameOf? (c : Client) (r : Ref) : Option Text := (c.handles.find? (·.2 = r)).map Prod.fst

/-- Give a session a name. -/
def bind (c : Client) (name : Text) (r : Ref) : Client :=
  { c with handles := (name, r) :: c.handles.filter (·.1 ≠ name) }

/-- The name of a found session, or a question mark where it has none. -/
def answer (c : Client) : Option Ref → Answer
  | none => .null
  | some r => .name ((c.nameOf? r).getD "?")

end Client

/-! ### Small programs -/

/-- Look at the state of the stack. -/
def stack : Prog Stack := .look fun s _ => .done s

/-- Look at the state of the collaborators. -/
def client : Prog Client := .look fun _ c => .done c

/-- Change the state of the collaborators. -/
def change (f : Client → Client) : Prog Unit := .change f (.done ())

/-- Do something to the stack; the names of new ids stand for them. -/
def call (op : Op) : Prog Reply := .look fun _ c => .call (op.mapId c.naming.resolve) .done

/-- The answer that a reply stands for. -/
def ofReply : Reply → Answer
  | .nothing => .ok
  | .flag b => .flag b
  | .outcome (.ok _) => .ok
  | .outcome (.error f) => .failure f
  | .session (.ok _) => .ok
  | .session (.error f) => .failure f
  | .notApplicable => .badInput "wrong session type"

/-- Go on with the session of a name. -/
def withSession (name : Text) (f : Ref → Prog Answer) : Prog Answer := do
  match (← client).find? (← stack) name with
  | some r => f r
  | none => return .badInput ("unknown session " ++ name)

/-- Go on with the session of a file transfer. -/
def withTransfer (name : Text) (f : Ref → Prog Answer) : Prog Answer :=
  withSession name fun r => do
    if (← stack).isTransfer r then f r else return .badInput "not a file transfer"

/-- Go on with the listener of a name, or with none. -/
def withListener (name : Option Text) (f : Option Listener → Prog Answer) : Prog Answer := do
  match name with
  | none => f none
  | some n =>
    match (← client).names.lookup n with
    | some l => f (some l)
    | none => return .badInput ("unknown listener " ++ n)

/-- Go on with a success; a failure is the answer. -/
def orFailure {α : Type} (o : Outcome α) (f : α → Prog Answer) : Prog Answer :=
  match o with
  | .ok a => f a
  | .error e => .done (.failure e)

/-- The contact that was written. -/
def contactOf : Option Text → Outcome Contact
  | none => .ok .none
  | some t => Contact.create t

/-- The dialog of a source. -/
def DialogSource.dialog : DialogSource → Outcome Sip.Dialog
  | request text localTag => (Sip.Message.parse text).map fun m => .ofRequest m localTag
  | given d => .ok d

/-- The dialog of a source, if there is one. -/
def dialogOf : Option DialogSource → Outcome (Option Sip.Dialog)
  | none => .ok none
  | some source => source.dialog.map some

/-! ### Commands -/

/-- What a new session of a kind is made from. -/
def Fields.draft (f : Fields) (kind : Kind) (contact : Contact) : Draft :=
  let file := fun role =>
    some ⟨f.content, f.icon, f.contribution, f.fileExpiry, f.iconExpiry, role⟩
  { id := f.id, contact := contact, uri := f.uri, timestamp := f.timestamp,
    file :=
      match kind with
      | .outgoing => file .outgoing
      | .incoming => file (.incoming .system)
      | .transfer => file .generic
      | _ => none }

/-- Remember a new session under its handle and let its clock be set. -/
def settle (f : Fields) (kind : Kind) (r : Ref) : Prog Unit := do
  if kind = .incoming then
    let _ ← call (.transfer r (.setClock f.clock))
  match f.handle with
  | some name => change (·.bind name r)
  | none => return

/-- Go on with a session that was made by the service; its name is the answer. -/
def named (f : Fields) (kind : Kind) : Reply → Prog Answer
  | .session (.ok r) => do
    settle f kind r
    return .name ((← stack).session r).id
  | reply => return ofReply reply

/-- The session registered under a name, if it is of a kind. -/
def findKind? (s : Stack) (id : Text) : Kind → Option Ref
  | .transfer => s.findTransfer? id
  | .outgoing => s.findOutgoing? id
  | .incoming => s.findIncoming? id
  | _ => s.find? id

/-- Whether a text is not after another in the order of their bytes. -/
def notAfter (a b : Text) : Bool := !decide (b < a)

/-- The ids of the registered sessions of a kind, new ones by their names, sorted. -/
def listed (c : Client) (s : Stack) (kind : Kind) : List Text :=
  let refs := if kind = .transfer then s.transfers else s.registry.map Prod.snd
  (refs.map fun r => c.naming.shown (s.session r).id).mergeSort notAfter

/-- What a command does. -/
def Command.program : Command → Prog Answer
  | .setClock now => do
    change fun c => { c with now := now }
    return .ok
  | .fail target code => do
    change fun c =>
      { c with
        failures := (code.map (target, ·)).toList ++ c.failures.filter (·.1 ≠ target) }
    return .ok
  | .engine hasControl script => do
    change fun c => { c with hasControl := hasControl, script := script }
    return .ok
  | .listener name hooks => do
    change fun c =>
      { c with
        names := (name, c.listeners.size) :: c.names.filter (·.1 ≠ name)
        listeners := c.listeners.push ⟨name, hooks.map (·, false)⟩ }
    return .ok
  | .addListener s l =>
    withTransfer s fun r => withListener l fun l =>
      return ofReply (← call (.transfer r (.addListener l)))
  | .removeListener s l =>
    withTransfer s fun r => withListener l fun l =>
      return ofReply (← call (.transfer r (.removeListener l)))
  | .addServiceListener l =>
    withListener l fun l => return ofReply (← call (.service (.addListener l)))
  | .removeServiceListener l =>
    withListener l fun l => return ofReply (← call (.service (.removeListener l)))
  | .newSession kind f =>
    orFailure (contactOf f.contact) fun contact => do
      match ← call (.create (f.draft kind contact)) with
      | .session (.ok r) => do
        settle f kind r
        return .ok
      | reply => return ofReply reply
  | .dialog s source =>
    withSession s fun r => orFailure source.dialog fun d =>
      return ofReply (← call (.session r (.setDialog d)))
  | .info s =>
    withSession s fun r => do
      let session := (← stack).session r
      return .session session ((← client).hasExpired session)
  | .transfer s op =>
    match op with
    | .start | .accept | .reject =>
      withSession s fun r => return ofReply (← call (.transfer r op))
    | _ => withTransfer s fun r => return ofReply (← call (.transfer r op))
  | .session s op => withSession s fun r => return ofReply (← call (.session r op))
  | .invite s =>
    withSession s fun r => do
      let _ ← call (.session r .closeMedia)
      return .null
  | .bye s text =>
    withSession s fun r => orFailure (Sip.Message.parse text) fun m =>
      return ofReply (← call (.session r (.bye m)))
  | .register none => return ofReply (← call (.register none))
  | .register (some s) => withSession s fun r => return ofReply (← call (.register (some r)))
  | .get id kind => do
    let c ← client
    return c.answer (findKind? (← stack) (c.naming.resolve id) kind)
  | .findCall callId => do
    let c ← client
    return c.answer ((← stack).findByCall? Client.pick callId)
  | .list kind => return .names (listed (← client) (← stack) kind)
  | .receiveBye text =>
    orFailure (Sip.Message.parse text) fun m => return ofReply (← call (.receiveBye m))
  | .onRemoved on ops => do
    change fun c => { c with onRemoved := ops }
    return ofReply (← call (.watch on))
  | .send f =>
    orFailure (contactOf f.contact) fun contact => do
      named f .outgoing (← call (.service (.send contact f.content f.icon)))
  | .invitation f =>
    orFailure (contactOf f.contact) fun contact => orFailure (dialogOf f.dialog) fun dialog => do
      named f .incoming (← call (.service (.invite
        { contact := contact, uri := f.uri, content := f.content, icon := f.icon,
          contribution := f.contribution, id := f.id, timestamp := f.timestamp,
          fileExpiry := f.fileExpiry, iconExpiry := f.iconExpiry, dialog := dialog })))
  | .settings => return .settings (← stack).settings
  | .direct op => return ofReply (← call op)

/-! ### Callbacks -/

/-- Run commands and note their answers. -/
def runNested : List (Text × Command) → Prog Unit
  | [] => .done ()
  | (label, command) :: rest => do
    let a ← command.program
    Program.write (label, a) (runNested rest)

/-- The name by which hooks know a callback. -/
def eventName : Callback → Text
  | .started => "started"
  | .aborted _ => "aborted"
  | .progress _ _ => "progress"
  | .notAllowed => "notAllowed"
  | .pausedByUser => "pausedByUser"
  | .pausedBySystem => "pausedBySystem"
  | .resumed => "resumed"
  | .transferred _ _ _ => "transferred"
  | .failed _ => "error"

namespace Client

/-- A hook that is to run when listener `l` is called for an event: the one at
place `i`, if it fits and has not run for good. -/
def dueHook? (c : Client) (l : Listener) (event : Text) (i : Nat) : Option Hook :=
  match c.listeners[l]?.bind (·.hooks[i]?) with
  | some (.mk on ops throws always, ran) =>
    if (on = event ∨ on = "*") ∧ (always ∨ !ran) then some (.mk on ops throws always) else none
  | none => none

/-- The number of hooks of a listener. -/
def hookCount (c : Client) (l : Listener) : Nat :=
  ((c.listeners[l]?.map fun x => x.hooks.length)).getD 0

/-- Remember that the hook at place `i` of listener `l` has run. -/
def markRan (c : Client) (l : Listener) (i : Nat) : Client :=
  { c with
    listeners := c.listeners.modify l fun x =>
      { x with hooks := x.hooks.modify i fun h => (h.1, true) } }

end Client

/-- Run the due hooks at some places of a listener, up to the first that throws. -/
def runHooks (l : Listener) (event : Text) : List Nat → Prog (Option Text)
  | [] => .done none
  | i :: is => do
    match (← client).dueHook? l event i with
    | none => runHooks l event is
    | some (.mk _ ops throws _) => do
      change (·.markRan l i)
      runNested ops
      match throws with
      | some text => return some text
      | none => runHooks l event is

/-- Report events to a session. -/
def reportAll (r : Ref) : List EngineEvent → Prog Unit
  | [] => .done ()
  | e :: es => do
    let _ ← call (.transfer r (.engine e))
    reportAll r es

/-- The environment of a scenario. -/
def scripted : Environment where
  State := Client
  Note := Text × Answer
  sendRequest _ c := (c.failure .requests, c)
  sendResponse _ c := (c.failure .responses, c)
  askCapabilities _ c := (c.failure .capability, c)
  markRead _ c := (c.failure .mark, c)
  makeTransfer n c := (c.hasControl, { c with scripts := (n, c.script) :: c.scripts })
  now clock c := (c.time clock, c)
  newTransferId c :=
    let (id, naming) := c.naming.issue
    (id, { c with naming := naming })
  newTag c := (newTag, c)
  pick _ _ := Client.pick
  listener l _ callback := do
    runHooks l (eventName callback) (List.range ((← client).hookCount l))
  control r n c := do
    let script := ((← client).scripts.lookup n).getD []
    reportAll r ((script.lookup c).getD [])
    return (← client).failure (.control c)
  removed _ := do
    let ops := (← client).onRemoved
    change fun c => { c with onRemoved := [] }
    runNested ops

end FileSharing.Scenario
