import FileSharing.Service

/-!
# Running operations

An operation is carried out by `Act.carryOut`; the operations that callbacks start
on the way are carried out in the same manner one level deeper.  `exec` bounds the
number of levels, so it is total for every environment, and a callback below the
last level finds that its operations do not apply.

## Main definitions

* `Act.perform`, `Act.carryOut` — carrying out one operation.
* `exec` — an operation with the nested ones.
* `run` — a program of the client.
* `Stack.releaseLog` — what is logged when the services are released.
-/

namespace FileSharing

namespace Act

variable {E : Environment}

/-- Carry out an operation.  An operation on a session that does not exist, or is
not of the kind it needs, does not apply. -/
def perform : Op → Act E Reply
  | .create d => return .session (.ok (← create d))
  | .session r op => do
    if r < (← stack).sessions.size then onSession r op else return .notApplicable
  | .transfer r op => do
    if (← stack).isTransfer r then onTransfer r op else return .notApplicable
  | .register none => return .outcome (← register none)
  | .register (some r) => do
    if r < (← stack).sessions.size then return .outcome (← register (some r))
    else return .notApplicable
  | .unregister id => do
    unregister id
    return .nothing
  | .receiveBye request => receiveBye request
  | .watch on => do
    change fun s => { s with watched := on }
    return .nothing
  | .refreshOne => return .flag (← refreshOne)
  | .refreshAll => do
    refreshAll
    return .nothing
  | .service op => serve op

/-- Carry out an operation that was asked for from outside. -/
def carryOut (op : Op) : Act E Reply := do
  emit (.asked op)
  perform op

end Act

/-- Carry out an operation with up to `depth` levels of operations, each started
by a callback of the one above. -/
def exec (E : Environment) : (depth : Nat) → Op → StateM (World E) Reply
  | 0, _ => return .notApplicable
  | depth + 1, op => (Act.carryOut op).run (exec E depth)

/-- Carry out a program of the client, each of whose operations may have up to
`depth` levels. -/
def run (E : Environment) (depth : Nat) {α : Type} (p : Program E.State E.Note α) :
    StateM (World E) α :=
  (Act.play p).run (exec E depth)

/-- What is logged when the services are released while sessions are active. -/
def Stack.releaseLog (s : Stack) : List (Level × Text) :=
  if s.registry.isEmpty then []
  else
    [(.warn, ascii "Instant messaging service released with " ++ Text.decimal s.count
      ++ " active sessions")]

end FileSharing
