import FileSharing.Session.Transfer

/-!
# Requests to a session

What a client that holds a session can ask of it, carried out.  The services find
sessions by name or by call and then ask the same things of them.

## Main definitions

* `Act.onSession`, `Act.onTransfer` — carrying out a request to a session.
* `Act.askSession`, `Act.askTransfer` — a request that a service passes on.
-/

namespace FileSharing.Act

variable {E : Environment}

/-- Carry out an operation on any session. -/
def onSession (r : Ref) : SessionOp → Act E Reply
  | .setDialog d => do
    update r fun s => { s with dialog := some d }
    return .nothing
  | .interrupt => do
    interrupt r
    return .nothing
  | .closeMedia => do
    closeMedia r
    return .nothing
  | .bye request => return .outcome (← bye r request)
  | .closePlain reason => do
    if (← session r).transfer.isSome then return .notApplicable
    return .outcome (← closeDialog r reason)
  | .removePlain => do
    if (← session r).transfer.isSome then return .notApplicable
    leave r
    return .nothing

/-- Carry out an operation on the session of a file transfer. -/
def onTransfer (r : Ref) : TransferOp → Act E Reply
  | .addListener l => do
    let (changed, ls) := (← transfer r).listeners.add l
    updateTransfer r fun t => { t with listeners := ls }
    return .flag changed
  | .removeListener l => do
    let (changed, ls) := (← transfer r).listeners.remove l
    updateTransfer r fun t => { t with listeners := ls }
    return .flag changed
  | .setClock clock => do
    match (← transfer r).role with
    | .incoming _ => do
      updateTransfer r fun t => { t with role := .incoming clock }
      return .nothing
    | _ => return .notApplicable
  | .engine event => do
    handle r event
    return .nothing
  | .start => do
    match (← transfer r).role with
    | .outgoing => return .outcome (← startUpload r)
    | _ => return .notApplicable
  | .accept => do
    match (← transfer r).role with
    | .incoming _ => return .outcome (← accept r)
    | _ => return .notApplicable
  | .reject => do
    match (← transfer r).role with
    | .incoming _ => return .outcome (← reject r)
    | _ => return .notApplicable
  | .pause => return .outcome (← pause r)
  | .resume => return .outcome (← resume r)
  | .abort reason => return .outcome (← abort r reason)
  | .close reason => return .outcome (← close r reason)

/-- Pass an operation on to any session. -/
def askSession (r : Ref) (op : SessionOp) : Act E Reply := do
  emit (.asked (.session r op))
  onSession r op

/-- Pass an operation on to the session of a file transfer. -/
def askTransfer (r : Ref) (op : TransferOp) : Act E Reply := do
  emit (.asked (.transfer r op))
  onTransfer r op

end FileSharing.Act
