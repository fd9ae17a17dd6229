import FileSharing.Act

/-!
# The registry

A session is active while it is registered under its name.  No two sessions are
registered under one name, and the client may ask to be told when a session
leaves.

## Main definitions

* `Act.create` — a new session, with the engine's transfer for its file.
* `Act.register`, `Act.unregister` — entering and leaving the registry.
-/

namespace FileSharing.Act

variable {E : Environment}

/-- The line end of a log line on the number of registered sessions. -/
def activeCount (s : Stack) : Text := ascii " (" ++ Text.decimal s.count ++ " active)"

/-- Make a session.  For a file the engine is asked for a transfer, which is
known by its number from then on. -/
def create (d : Draft) : Act E Ref := do
  let r := (← stack).sessions.size
  change fun s => { s with sessions := s.sessions.push (.ofDraft d) }
  debug (ascii "Created session " ++ d.id ++ " with " ++ d.contact.value)
  match d.file with
  | none => return r
  | some file =>
    let number := (← stack).created + 1
    change fun s => { s with created := number }
    emit (.transfer r number file.role.movement file.content file.icon)
    if ← ask (E.makeTransfer number) then
      updateTransfer r fun t => { t with control := some number }
    return r

/-- Register a session under its name, which must be free. -/
def register : Option Ref → Act E (Outcome Unit)
  | none => fail .invalidArgument "Cannot register a null session"
  | some r => do
    let id := (← session r).id
    if ((← stack).find? id).isSome then
      fail .invalidArgument ("Session already registered: " ++ id)
    else
      change fun s => { s with registry := (id, r) :: s.registry }
      emit (.registered id r)
      info (ascii "Added session " ++ id ++ activeCount (← stack))
      return .ok ()

/-- Take whatever session is registered under a name out of the registry, and
tell the client if it wants to hear of it. -/
def unregister (id : Text) : Act E Unit := do
  if ((← stack).find? id).isSome then
    change fun s => { s with registry := s.registry.filter (·.1 ≠ id) }
    info (ascii "Removed session " ++ id ++ activeCount (← stack))
    if (← stack).watched then
      emit (.removed id)
      play (E.removed id)

end FileSharing.Act
