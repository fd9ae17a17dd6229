import FileSharing.Proofs.Life
import FileSharing.Proofs.Steps

/-!
# New transfers

A request for a new transfer is refused, or a session is made for it.  Up to then only
lines are logged and collaborators are asked.  A session that was made enters the registry
unless its name is taken, and what follows then is all in which sending a file differs from
receiving an invitation.

## Main definitions

* `World.Made` — what a world with a new session has of the one before.
* `World.Admits` — what the file transfer service sees to before a new transfer enters.
* `World.Murmurs` — nothing happens but that lines are logged and collaborators are asked.
* `World.Prepares` — a session is made for a file for which there is room.
* `Creation` — what becomes of a request for a new transfer.

## Main results

* `Act.create_cases` — all that the making of a session can come to.
* `Act.creation_sendFile`, `Act.creation_invite` — **both requests for a new transfer go one
  way**, up to what follows once the session has entered.
-/

namespace FileSharing

variable {E : Environment}

/-! ### New sessions -/

/-- A transfer with which nothing has happened yet. -/
structure Transfer.IsNew (t : Transfer) : Prop where
  phase : t.phase = .pending
  begun : t.begun = false
  /-- No listener is attached twice. -/
  listeners : t.listeners.members.Nodup

/-- A session with which nothing has happened yet. -/
structure Session.IsNew (x : Session) : Prop where
  interrupted : x.interrupted = false
  removed : x.removed = false
  transfer : ∀ t ∈ x.transfer, t.IsNew

theorem Session.IsNew.ofDraft (d : Draft) : (Session.ofDraft d).IsNew := by
  refine ⟨rfl, rfl, fun t ht => ?_⟩
  obtain ⟨f, -, rfl⟩ := Option.map_eq_some_iff.mp ht
  exact ⟨rfl, rfl, List.nodup_nil⟩

theorem Session.IsNew.updateTransfer {x : Session} (h : x.IsNew) {f : Transfer → Transfer}
    (hf : ∀ t : Transfer, t.IsNew → (f t).IsNew) :
    { x with transfer := x.transfer.map f }.IsNew := by
  refine ⟨h.interrupted, h.removed, fun t ht => ?_⟩
  obtain ⟨t₀, ht₀, rfl⟩ := Option.map_eq_some_iff.mp ht
  exact hf t₀ (h.transfer t₀ ht₀)

/-- What happens while a session is made. -/
def Event.OfMaking {ν : Type} (r : Ref) : Event ν → Prop
  | .log _ _ => True
  | .transfer q _ _ _ _ => q = r
  | _ => False

/-- A world with a new session, compared with the one before; `file` says whether the
session is for a file transfer. -/
structure World.Made (r : Ref) (file : Bool) (w w' : World E) : Prop where
  /-- The session gets the first name that is not taken. -/
  fresh : w.stack.sessions.size = r
  /-- It is the only one that is added. -/
  size : w'.stack.sessions.size = r + 1
  /-- All other sessions are the same. -/
  others : ∀ q, q ≠ r → w'.stack.session q = w.stack.session q
  isNew : (w'.stack.session r).IsNew
  /-- It is of its kind. -/
  kind : w'.stack.isTransfer r = file
  /-- All else of the stack is the same. -/
  rest : w'.stack
    = { w.stack with sessions := w'.stack.sessions, created := w'.stack.created }
  /-- Only the making of the session has happened. -/
  trace : ∃ T, w'.trace = w.trace ++ T ∧ ∀ e ∈ T, e.OfMaking r

/-- The session of a draft is added. -/
def World.drafting (w : World E) (d : Draft) : World E :=
  w.change fun s => { s with sessions := s.sessions.push (.ofDraft d) }

/-- The engine is asked for the transfer of a session's file. -/
def World.engaging (w : World E) (r : Ref) (f : FileDraft) : World E :=
  ((w.change fun s => { s with created := s.created + 1 }).emit
    (.transfer r (w.stack.created + 1) f.role.movement f.content f.icon)).withClient
      (E.makeTransfer (w.stack.created + 1) w.client).2

/-- **Making a session**, which gets the engine's transfer if the engine has made one. -/
theorem Act.create_cases {N : Handler E} (d : Draft) (w : World E) :
    ∃ line, let w₁ := (w.drafting d).emit (.log .debug line)
      (d.file = none ∧ after N (create d) w = w₁) ∨
      ∃ file, d.file = some file ∧
        let w₂ := w₁.engaging w.stack.sessions.size file
        (after N (create d) w = w₂ ∨
          after N (create d) w = w₂.change (·.updateTransfer w.stack.sessions.size fun t =>
            { t with control := some (w.stack.created + 1) })) := by
  refine ⟨ascii "Created session " ++ d.id ++ " with " ++ d.contact.value, ?_⟩
  rw [create, after_stack_bind, after_bind, after_bind]
  cases hfile : d.file with
  | none => exact .inl ⟨rfl, rfl⟩
  | some file =>
    refine .inr ⟨file, rfl, ?_⟩
    simp only [after_bind, after_change, after_debug, after_emit, after_stack, result_stack,
      after_ask, result_ask, World.emit_client, World.emit_stack, World.change_client,
      World.change_stack]
    by_cases hmade : (E.makeTransfer (w.stack.created + 1) w.client).1 = true
    · simp only [hmade, if_true]
      exact .inr rfl
    · simp only [hmade]
      exact .inl rfl

namespace World.Made

open Act

variable {N : Handler E} {r : Ref} {file : Bool} {w w' : World E}

theorem push (w : World E) (d : Draft) :
    w.Made w.stack.sessions.size d.file.isSome (w.drafting d) where
  fresh := rfl
  size := by simp [drafting]
  others q hq := by simp [drafting, Stack.session, Array.getElem?_push, hq]
  isNew := by simpa [drafting, Stack.session] using Session.IsNew.ofDraft d
  kind := by simp [drafting, Stack.isTransfer, Session.ofDraft]
  rest := rfl
  trace := ⟨[], by simp [drafting], by simp⟩

theorem emit (h : w.Made r file w') {e : Event E.Note} (he : e.OfMaking r) :
    w.Made r file (w'.emit e) := by
  obtain ⟨T, hT, hmaking⟩ := h.trace
  refine { h with trace := ⟨T ++ [e], by simp [hT], ?_⟩ }
  intro e' he'
  rcases List.mem_append.mp he' with he' | he'
  · exact hmaking e' he'
  · rwa [List.mem_singleton.mp he']

theorem withClient (h : w.Made r file w') (c : E.State) : w.Made r file (w'.withClient c) :=
  { h with }

theorem created (h : w.Made r file w') (n : Nat) :
    w.Made r file (w'.change fun s => { s with created := n }) :=
  { h with rest := by rw [change_stack, h.rest] }

theorem engaging (h : w.Made r file w') (f : FileDraft) : w.Made r file (w'.engaging r f) :=
  ((h.created _).emit (e := .transfer r _ f.role.movement f.content f.icon) rfl).withClient _

theorem lt_size (h : w.Made r file w') : r < w'.stack.sessions.size :=
  h.size ▸ Nat.lt_succ_self r

theorem grows (h : w.Made r file w') : w.Grows w' := by
  obtain ⟨T, hT, -⟩ := h.trace
  refine ⟨⟨T, hT.symm⟩, ?_, fun q hq => ?_⟩
  · rw [h.size, h.fresh]
    exact Nat.le_succ r
  · rw [h.others q (Nat.ne_of_lt (h.fresh ▸ hq))]
    exact .refl _

theorem nodup_listeners (h : w.Made r file w') :
    (w'.stack.life r).listeners.members.Nodup := by
  rw [Stack.life_listeners, Stack.transfer]
  cases ht : (w'.stack.session r).transfer with
  | none => exact List.nodup_nil
  | some t => exact (h.isNew.transfer t ht).listeners

/-- A new session may be changed as long as it stays new. -/
theorem update (h : w.Made r file w') {f : Session → Session}
    (hf : ∀ x : Session, x.IsNew → (f x).IsNew)
    (hkind : ∀ x : Session, (f x).transfer.isSome = x.transfer.isSome) :
    w.Made r file (w'.change (·.update r f)) where
  fresh := h.fresh
  size := by rw [change_stack, Stack.size_update, h.size]
  others q hq := by rw [change_stack, Stack.session_update_of_ne hq, h.others q hq]
  isNew := by
    rw [change_stack, Stack.session_update_self h.lt_size]
    exact hf _ h.isNew
  kind := by
    rw [change_stack, Stack.isTransfer_eq, Stack.session_update_self h.lt_size, hkind,
      ← Stack.isTransfer_eq, h.kind]
  rest := by rw [change_stack, Stack.update, h.rest]
  trace := h.trace

/-- A new file part may be changed as long as it stays new. -/
theorem updateTransfer (h : w.Made r file w') {f : Transfer → Transfer}
    (hf : ∀ t : Transfer, t.IsNew → (f t).IsNew) :
    w.Made r file (w'.change (·.updateTransfer r f)) :=
  h.update (fun _ hx => hx.updateTransfer hf) fun _ => Option.isSome_map

/-- Making a session, with the engine's transfer for its file. -/
theorem create (d : Draft) (w : World E) :
    w.Made w.stack.sessions.size d.file.isSome (after N (Act.create d) w) := by
  have hpushed := fun line => (push w d).emit (e := .log .debug line) trivial
  obtain ⟨line, ⟨-, hafter⟩ | ⟨file, -, hafter | hafter⟩⟩ := create_cases (N := N) d w
  · exact hafter ▸ hpushed line
  · exact hafter ▸ (hpushed line).engaging file
  · rw [hafter]
    have hengaged := (hpushed line).engaging file
    exact hengaged.updateTransfer fun t ht => ⟨ht.phase, ht.begun, ht.listeners⟩

/-- The name of a new session is known. -/
theorem result_create (d : Draft) (w : World E) :
    result N (Act.create d) w = w.stack.sessions.size := by
  rw [Act.create, result_bind, result_bind, result_bind]
  cases d.file with
  | none => rfl
  | some file =>
    simp only [result_bind, result_stack]
    split <;> rfl

theorem ofDraft {d : Draft} (hd : d.file.isSome = true) (w : World E) :
    w.Made (result N (Act.create d) w) true (after N (Act.create d) w) := by
  rw [result_create, ← hd]
  exact create d w

/-- A new session is made from its draft; only the control comes from the engine. -/
theorem session_create (d : Draft) (w : World E) :
    ∃ control, (after N (Act.create d) w).stack.session (result N (Act.create d) w)
      = { Session.ofDraft d with
          transfer := (Session.ofDraft d).transfer.map fun t =>
            { t with control := control } } := by
  have hnew : (w.drafting d).stack.session w.stack.sessions.size = .ofDraft d := by
    simp [World.drafting, Stack.session]
  rw [result_create]
  obtain ⟨line, ⟨hfile, hafter⟩ | ⟨file, hfile, hafter | hafter⟩⟩ := create_cases (N := N) d w
  · refine ⟨none, ?_⟩
    rw [hafter]
    refine hnew.trans ?_
    simp [Session.ofDraft, hfile]
  · refine ⟨none, ?_⟩
    rw [hafter]
    refine hnew.trans ?_
    simp [Session.ofDraft, hfile, Transfer.ofDraft]
  · have hlt : w.stack.sessions.size < (w.drafting d).stack.sessions.size := by
      simp [World.drafting]
    refine ⟨some (w.stack.created + 1), ?_⟩
    rw [hafter, change_stack, Stack.updateTransfer_session_self (by exact hlt)]
    exact congrArg (fun x : Session => ({ x with
      transfer := x.transfer.map fun t => { t with control := some (w.stack.created + 1) } } :
        Session)) hnew

theorem apply_create {β : Type} (g : Transfer → β) (hg : ∀ t n, g { t with control := n } = g t)
    {d : Draft} {x : β} (hd : d.file.map (fun file => g (.ofDraft file)) = some x) (w : World E) :
    g ((after N (Act.create d) w).stack.transfer (result N (Act.create d) w)) = x := by
  obtain ⟨file, hfile, rfl⟩ := Option.map_eq_some_iff.mp hd
  obtain ⟨control, hsession⟩ := session_create (N := N) d w
  rw [Stack.transfer, hsession, Session.ofDraft, hfile]
  exact hg _ _

/-- Attaching the service's listeners to a new session. -/
theorem attachListeners (h : w.Made r file w') :
    w.Made r file (after N (Act.attachListeners r) w') := by
  refine h.updateTransfer fun t ht => ⟨ht.phase, ht.begun, ?_⟩
  exact ListenerSet.nodup_foldl_add _ ht.listeners

end World.Made

/-! ### Admission -/

/-- Whether the settings leave room for a file. -/
structure Stack.HasRoom (s : Stack) (c : Content) : Prop where
  /-- There is a free place for a transfer. -/
  place : 0 < s.settings.maxSessions → s.transfers.length < s.settings.maxSessions.toNat
  /-- The file is not too large. -/
  size : 0 < s.settings.maxSize → c.size ≤ s.settings.maxSize

/-- The service's listeners, attached to a transfer to which nobody listens yet. -/
def Stack.attached (s : Stack) : ListenerSet Listener :=
  s.listeners.members.foldl (fun set l => (set.add (some l)).2) .empty

/-- What the file transfer service sees to before a transfer that it has made enters the
registry. -/
structure World.Admits (r : Ref) (w w' : World E) : Prop where
  room : w.stack.HasRoom (w'.stack.transfer r).content
  listeners : (w'.stack.transfer r).listeners = w.stack.attached

/-- Attaching the service's listeners admits a new transfer for which there is room. -/
theorem World.Made.admits {N : Handler E} {r : Ref} {c : Content} {w w' : World E}
    (h : w.Made r true w') (hroom : w.stack.HasRoom c)
    (hc : (w'.stack.transfer r).content = c)
    (hnobody : (w'.stack.transfer r).listeners = .empty) :
    w.Admits r (Act.after N (Act.attachListeners r) w') := by
  have hlisteners : w'.stack.listeners = w.stack.listeners := by rw [h.rest]
  have htransfer := Stack.transfer_updateTransfer_self h.kind fun t => { t with
    listeners := w'.stack.listeners.members.foldl (fun set l => (set.add (some l)).2) t.listeners }
  have hcontent : ((Act.after N (Act.attachListeners r) w').stack.transfer r).content = c :=
    (congrArg Transfer.content htransfer).trans hc
  refine ⟨hcontent ▸ hroom, (congrArg Transfer.listeners htransfer).trans ?_⟩
  rw [hnobody, hlisteners, Stack.attached]

namespace Act

variable {N : Handler E} {w : World E}

/-- What a file is refused with that is too large. -/
def tooLarge (s : Settings) (c : Content) : Failure :=
  ⟨.contentTooLarge, ascii "File " ++ c.name ++ " exceeds the maximum size of "
    ++ Text.decimal s.maxSize.toNat ++ " bytes"⟩

/-- What a file is refused with while every place is taken. -/
def tooMany (s : Settings) : Failure :=
  ⟨.serviceNotAvailable, ascii "Maximum number of file transfers reached ("
    ++ Text.decimal s.maxSessions.toNat ++ ")"⟩

/-- What comes of looking whether there is room. -/
theorem result_checkCapacity (c : Content) (w : World E) :
    result N (checkCapacity c) w
      = if 0 < w.stack.settings.maxSize ∧ w.stack.settings.maxSize < c.size then
          .error (tooLarge w.stack.settings c)
        else if 0 < w.stack.settings.maxSessions ∧
            w.stack.settings.maxSessions.toNat ≤ w.stack.transfers.length then
          .error (tooMany w.stack.settings)
        else .ok () := by
  rw [checkCapacity, result_bind, result_stack, after_stack]
  dsimp only
  split
  · rfl
  · split
    · rw [result_bind, after_warn, result_bind, result_stack, after_stack, World.emit_stack]
      split
      · rfl
      · rfl
    · rw [result_bind, result_stack, after_stack]
      split
      · rfl
      · rfl

theorem hasRoom_of_checkCapacity {c : Content} (h : result N (checkCapacity c) w = .ok ()) :
    w.stack.HasRoom c := by
  rw [result_checkCapacity] at h
  split at h
  · cases h
  · next hsize =>
    split at h
    · cases h
    · next hplace =>
      refine ⟨fun hlimit => ?_, fun hlimit => ?_⟩
      · exact Nat.not_le.mp fun hfull => hplace ⟨hlimit, hfull⟩
      · exact UInt64.not_lt.mp fun hlarge => hsize ⟨hlimit, hlarge⟩

end Act

/-! ### What comes before a session -/

namespace World

/-- Between two worlds lines are logged, and collaborators are asked that do not use the
stack. -/
inductive Murmurs : World E → World E → Prop where
  /-- Nothing happens. -/
  | refl (w : World E) : Murmurs w w
  /-- A line is logged. -/
  | log {w w' : World E} (h : Murmurs w w') (level : Level) (line : Text) :
    Murmurs w (w'.emit (.log level line))
  /-- A collaborator changes its state. -/
  | client {w w' : World E} (h : Murmurs w w') (c : E.State) : Murmurs w (w'.withClient c)

namespace Murmurs

open Act

variable {N : Handler E} {w w₁ w₂ : World E}

theorem trans (h : w.Murmurs w₁) (h' : w₁.Murmurs w₂) : w.Murmurs w₂ := by
  induction h' with
  | refl => exact h
  | log _ level line ih => exact ih.log level line
  | client _ c ih => exact ih.client c

theorem stack (h : w.Murmurs w₁) : w₁.stack = w.stack := by
  induction h with
  | refl => rfl
  | log _ level line ih => exact ih
  | client _ c ih => exact ih

theorem ask {α : Type} (f : E.State → α × E.State) (w : World E) :
    w.Murmurs (after N (Act.ask f) w) :=
  (refl w).client _

theorem checkCapacity (c : Content) (w : World E) :
    w.Murmurs (after N (Act.checkCapacity c) w) := by
  rw [Act.checkCapacity, after_stack_bind]
  dsimp only
  split
  · exact (refl w).log _ _
  · split
    · rw [after_bind, after_warn, after_stack_bind]
      split
      · exact ((refl w).log _ _).log _ _
      · exact (refl w).log _ _
    · rw [after_stack_bind]
      split
      · exact (refl w).log _ _
      · exact refl w

theorem keepIcon (c : Content) (icon : Option Content) (w : World E) :
    w.Murmurs (after N (Act.keepIcon c icon) w) := by
  cases icon with
  | none => exact refl w
  | some i =>
    rw [Act.keepIcon, after_stack_bind]
    split
    · exact refl w
    · exact (refl w).log _ _

theorem invitedId (i : Invitation) (w : World E) : w.Murmurs (after N (Act.invitedId i) w) := by
  unfold Act.invitedId
  split
  · exact ask _ w
  · exact refl w

theorem invitedAt (i : Invitation) (w : World E) : w.Murmurs (after N (Act.invitedAt i) w) := by
  unfold Act.invitedAt
  split
  · exact ask _ w
  · exact refl w

end Murmurs

end World

/-- What is murmured leaves the stack alone. -/
theorem Placid.murmurs {N : Handler E} {R : World E → World E → Prop} (h : Placid N R)
    {w w' : World E} (hw : w.Murmurs w') : R w w' := by
  induction hw with
  | refl => exact h.refl _
  | log _ level line ih => exact h.trans ih (h.log _ level line)
  | client _ c ih => exact h.trans ih (h.client _ c)

/-! ### The session of a transfer -/

/-- Between two worlds a session is made for a file for which there is room, and nothing
else happens. -/
def World.Prepares (r : Ref) (w w' : World E) : Prop :=
  ∃ w₀, w.Murmurs w₀ ∧ w₀.Made r true w' ∧ w₀.Admits r w'

/-- A new session for an upload. -/
structure Session.IsUpload (x : Session) : Prop where
  role : (x.transfer.getD default).role = .outgoing
  /-- No dialog leads to it. -/
  dialog : x.dialog = none

namespace World.Prepares

open Act

variable {N : Handler E} {r : Ref} {w w₁ w₂ : World E}

theorem after (h : w.Murmurs w₁) (h' : w₁.Prepares r w₂) : w.Prepares r w₂ := by
  obtain ⟨w₀, h₀, hmade⟩ := h'
  exact ⟨w₀, h.trans h₀, hmade⟩

theorem upload (contact : Contact) {content : Content} (icon : Option Content)
    (hroom : w.stack.HasRoom content) :
    w.Prepares (result N (prepareUpload contact content icon) w)
      (Act.after N (prepareUpload contact content icon) w) := by
  simp only [prepareUpload, after_bind, result_bind, result_pure, after_pure]
  have hquiet := ((Murmurs.keepIcon (N := N) content icon w).trans
    (Murmurs.ask (N := N) E.newTransferId _)).trans (Murmurs.ask (N := N) (E.now .system) _)
  refine ⟨_, hquiet, (Made.ofDraft rfl _).attachListeners, ?_⟩
  rw [← hquiet.stack] at hroom
  refine (Made.ofDraft rfl _).admits hroom ?_ ?_
  · exact Made.apply_create Transfer.content (fun _ _ => rfl) rfl _
  · exact Made.apply_create Transfer.listeners (fun _ _ => rfl) rfl _

theorem download {i : Invitation} (hroom : w.stack.HasRoom i.content) :
    w.Prepares (result N (prepareDownload i) w) (Act.after N (prepareDownload i) w) := by
  have hdialog : ∀ (s : Stack) (r : Ref) (d : Option Sip.Dialog),
      (s.update r fun x => { x with dialog := d }).transfer r = s.transfer r := fun s r d =>
    Stack.apply_session_update (fun x => x.transfer.getD default) fun _ => rfl
  have hnew : ∀ (d : Option Sip.Dialog) (x : Session), x.IsNew → { x with dialog := d }.IsNew :=
    fun d x hx => ⟨hx.interrupted, hx.removed, hx.transfer⟩
  simp only [prepareDownload, after_bind, result_bind, result_pure, after_pure, after_update]
  have hquiet := (Murmurs.invitedId (N := N) i w).trans (Murmurs.invitedAt (N := N) i _)
  refine ⟨_, hquiet, ((Made.ofDraft rfl _).update (hnew _) fun _ => rfl).attachListeners, ?_⟩
  rw [← hquiet.stack] at hroom
  refine ((Made.ofDraft rfl _).update (hnew _) fun _ => rfl).admits hroom ?_ ?_
  · rw [change_stack, hdialog]
    exact Made.apply_create Transfer.content (fun _ _ => rfl) rfl _
  · rw [change_stack, hdialog]
    exact Made.apply_create Transfer.listeners (fun _ _ => rfl) rfl _

end World.Prepares

/-- What is made to be sent is an upload. -/
theorem Act.isUpload_prepareUpload {N : Handler E} (contact : Contact) (content : Content)
    (icon : Option Content) (w : World E) :
    ((after N (prepareUpload contact content icon) w).stack.session
      (result N (prepareUpload contact content icon) w)).IsUpload := by
  simp only [prepareUpload, after_bind, result_bind, result_pure, after_pure]
  rw [attachListeners, after_stack_bind, after_updateTransfer, World.change_stack]
  constructor
  · refine (Stack.apply_transfer_updateTransfer Transfer.role ?_).trans ?_
    · exact fun _ => rfl
    · exact World.Made.apply_create Transfer.role (fun _ _ => rfl) rfl _
  · refine (Stack.apply_session_updateTransfer Session.dialog _ ?_).trans ?_
    · exact fun _ _ => rfl
    · obtain ⟨control, hsession⟩ := World.Made.session_create _ _
      rw [hsession]
      rfl

/-! ### What becomes of a request -/

/-- What becomes of a request to transfer a file: there may be no contact or no room, the
name of the session may be taken, or the session enters the registry, and `go` is what
follows then.  `P` is what is known of the session besides. -/
inductive Creation (N : Handler E) (contact : Contact) (c : Content) (P : Session → Prop)
    (go : Ref → Act E (Outcome Ref)) (w : World E) : Outcome Ref → World E → Prop where
  /-- There is no session. -/
  | refused {f : Failure} {w' : World E}
    (hwhy : contact.isNone = true ∨ Act.result N (Act.checkCapacity c) w = .error f)
    (hquiet : w.Murmurs w') : Creation N contact c P go w (.error f) w'
  /-- The session finds its name taken. -/
  | taken {r : Ref} {w₁ : World E} (f : Failure) (hprepared : w.Prepares r w₁) :
    Creation N contact c P go w (.error f) (w₁.emit (.log .debug f.logLine))
  /-- The session enters. -/
  | entered {r : Ref} {w₁ : World E} (hprepared : w.Prepares r w₁) (hP : P (w₁.stack.session r))
    (hfree : w₁.stack.find? (w₁.stack.session r).id = none) (line : Text) :
    Creation N contact c P go w
      (Act.result N (go r) ((w₁.enrolling r).emit (.log .info line)))
      (Act.after N (go r) ((w₁.enrolling r).emit (.log .info line)))

namespace Act

variable {N : Handler E}

/-- **A file that is sent** becomes an upload, which is started once it has entered. -/
theorem creation_sendFile (contact : Contact) (content : Content) (icon : Option Content)
    (w : World E) :
    Creation N contact content Session.IsUpload launch w
      (result N (sendFile contact content icon) w) (after N (sendFile contact content icon) w) := by
  rw [sendFile]
  by_cases hc : contact.isNone = true
  · rw [if_pos hc]
    exact .refused (.inl hc) ((World.Murmurs.refl w).log _ _)
  · rw [if_neg hc, result_bind, after_bind]
    have hchecked := World.Murmurs.checkCapacity (N := N) content w
    cases hroom : result N (checkCapacity content) w with
    | error f => exact .refused (.inr hroom) hchecked
    | ok a =>
      have hroom := hasRoom_of_checkCapacity hroom
      rw [← hchecked.stack] at hroom
      have hprepared := (World.Prepares.upload (N := N) contact icon hroom).after hchecked
      have hupload := isUpload_prepareUpload (N := N) contact content icon
        (after N (checkCapacity content) w)
      rw [result_bind, after_bind]
      generalize result N (prepareUpload contact content icon) _ = r at hprepared hupload ⊢
      generalize after N (prepareUpload contact content icon) _ = w₁ at hprepared hupload ⊢
      rw [result_bind, after_bind]
      rcases register_cases (N := N) r w₁ with ⟨-, f, hresult, hafter⟩ | ⟨hfree, hresult, hafter⟩
      · rw [hresult, hafter]
        exact .taken f hprepared
      · rw [hresult, hafter]
        exact .entered hprepared hupload hfree _

/-- **An invitation that is received** waits once its session has entered. -/
theorem creation_invite (i : Invitation) (w : World E) :
    Creation N i.contact i.content (fun _ => True) (fun r => pure (.ok r)) w
      (result N (invite i) w) (after N (invite i) w) := by
  rw [invite]
  by_cases hc : i.contact.isNone = true
  · rw [if_pos hc]
    exact .refused (.inl hc) ((World.Murmurs.refl w).log _ _)
  · rw [if_neg hc, result_bind, after_bind]
    have hchecked := World.Murmurs.checkCapacity (N := N) i.content w
    cases hroom : result N (checkCapacity i.content) w with
    | error f => exact .refused (.inr hroom) (hchecked.log _ _)
    | ok a =>
      have hroom := hasRoom_of_checkCapacity hroom
      rw [← hchecked.stack] at hroom
      have hprepared := (World.Prepares.download (N := N) hroom).after hchecked
      rw [result_bind, after_bind]
      generalize result N (prepareDownload i) _ = r at hprepared ⊢
      generalize after N (prepareDownload i) _ = w₁ at hprepared ⊢
      rw [result_bind, after_bind]
      rcases register_cases (N := N) r w₁ with ⟨-, f, hresult, hafter⟩ | ⟨hfree, hresult, hafter⟩
      · rw [hresult, hafter]
        exact .taken f hprepared
      · rw [hresult, hafter]
        exact .entered hprepared trivial hfree _

end Act

end FileSharing
