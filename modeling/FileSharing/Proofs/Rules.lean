import FileSharing.Proofs.Making

/-!
# What the services make of operations

Every operation that is asked of the stack leaves its mark in the trace, also one
that a service asks of one of its sessions.  What follows on the mark is something
that a session does, a new session, a change of the registry, or something that no
session notices.  A relation that holds along each of these holds along every
operation and, since nested operations are operations, along every run.  What
sessions do is left open here.

## Main definitions

* `ServiceMove` — what the services do on the side.
* `Services` — that a relation holds along all that the services ask for.
* `Rules` — that it does so whoever attaches listeners to a transfer.

## Main results

* `Services.carryOut`, `Rules.carryOut` — **an operation stays in every relation that
  holds along all that the services ask for.**
* `Rules.exec`, `Rules.run` — so does an operation with the nested ones, and a
  program of the client.
-/

namespace FileSharing

variable {E : Environment}

/-! ### The services -/

/-- The limits that the settings put on new transfers. -/
def Settings.limits (s : Settings) : UInt64 × UInt32 := (s.maxSize, s.maxSessions)

/-- What the services do that concerns no session. -/
inductive ServiceMove : World E → World E → Prop where
  /-- A response is sent for no session. -/
  | response (w : World E) (m : Sip.Message) : ServiceMove w (w.emit (.response none m))
  /-- The capabilities of the contact are asked for who has waited longest. -/
  | capabilities (w : World E) (c : Contact) (cs : List Contact) (h : w.stack.refreshes = c :: cs) :
    ServiceMove w ((w.change fun s => { s with refreshes := cs }).emit (.capabilities c))
  /-- A transfer is marked as read. -/
  | markRead (w : World E) (id : Text) : ServiceMove w (w.emit (.markRead id))
  /-- The client wants to hear of departures, or no longer, as it has asked. -/
  | watched (w : World E) (on : Bool) (h : .asked (.watch on) ∈ w.trace) :
    ServiceMove w (w.change fun s => { s with watched := on })
  /-- The settings change, but not the limits. -/
  | settings (w : World E) (f : Settings → Settings) (h : ∀ s : Settings, (f s).limits = s.limits) :
    ServiceMove w (w.change fun s => { s with settings := f s.settings })

/-- Whether the mark of an operation is all that a file transfer has to do with it, and
nothing is to leave the registry.  What the operation does besides leaves marks of its own. -/
def Op.IsAside (s : Stack) : Op → Prop
  | .transfer r _ => s.isTransfer r = false
  | .session r (.bye _) => s.isTransfer r = false
  | .session r .interrupt => s.isTransfer r = false
  | .unregister _ => False
  | _ => True

theorem Op.isAside_of_size_le {s : Stack} {r : Ref} (hr : s.sessions.size ≤ r) (op : SessionOp) :
    Op.IsAside s (.session r op) := by
  have hplain : s.isTransfer r = false := by
    rw [Stack.isTransfer_eq, Stack.session_of_size_le hr]
    rfl
  cases op with
  | bye request => exact hplain
  | interrupt => exact hplain
  | _ => trivial

/-- Whether an operation leaves the listeners of each transfer to the service. -/
def Op.LeavesListeners : Op → Prop
  | .transfer _ op => ¬op.IsListening
  | _ => True

/-! ### The rules -/

/-- A relation between worlds holds along all that the services ask for, where the
listeners of each transfer are left to the service. -/
structure Services (N : Handler E) (R : World E → World E → Prop) : Prop extends Placid N R where
  grows : ∀ {w w'}, R w w' → w.Grows w'
  /-- A service does something on the side. -/
  service : ∀ {w w'}, ServiceMove w w' → R w w'
  /-- A listener is attached to all transfers. -/
  attach : ∀ l w, R w (Act.after N (Act.addServiceListener l) w)
  /-- A listener is detached from all transfers. -/
  detach : ∀ l w, R w (Act.after N (Act.removeServiceListener l) w)
  /-- Something is asked for that concerns no file transfer. -/
  asked : ∀ op {w}, Op.IsAside w.stack op → R w (w.emit (.asked op))
  /-- Something is asked of a file transfer. -/
  transfer : ∀ {r} op {w}, ¬op.IsListening → w.stack.isTransfer r = true →
    R w (Act.after N (Act.askTransfer r op) w)
  /-- Something is asked of a session. -/
  session : ∀ {r} op {w}, r < w.stack.sessions.size → R w (Act.after N (Act.askSession r op) w)
  /-- The service starts an upload that it has made. -/
  start : ∀ {r w}, w.stack.isTransfer r = true → (w.stack.transfer r).role = .outgoing →
    R w (Act.after N (Act.startUpload r) (w.emit (.asked (.transfer r .start))))
  /-- A session is to enter the registry, where its name is free. -/
  register : ∀ {r w}, r < w.stack.sessions.size → w.stack.find? (w.stack.session r).id = none →
    R w ((w.emit (.asked (.register (some r)))).enrolling r)
  /-- Whatever is registered under a name is to leave the registry. -/
  unregister : ∀ {id w w'}, R ((w.emit (.asked (.unregister id))).dismissing id) w' → R w w'
  /-- A session is made. -/
  make : ∀ {r file w w'}, w.Made r file w' → R w w'
  /-- A file transfer is made and enters the registry, where its name is free. -/
  enter : ∀ {r w w'}, w.Made r true w' → w.Admits r w' →
    w'.stack.find? (w'.stack.session r).id = none → R w (w'.enrolling r)

/-- A relation between worlds holds along all that the services ask for, whoever attaches
listeners to a transfer. -/
structure Rules (N : Handler E) (R : World E → World E → Prop) : Prop
    extends Steady N R, Services N R where
  /-- Someone begins or ceases to listen to a transfer. -/
  listening : ∀ {r} op {w}, op.IsListening → w.stack.isTransfer r = true →
    R w (Act.after N (Act.askTransfer r op) w)

/-! ### Sessions that are found -/

namespace Stack

variable {s : Stack} {id c : Text} {r : Ref} {pick : (others : Nat) → Fin (others + 1)}

theorem isTransfer_of_findTransfer? (h : s.findTransfer? id = some r) : s.isTransfer r = true :=
  (Option.filter_eq_some_iff.mp h).2

theorem isTransfer_of_findIncoming? (h : s.findIncoming? id = some r) : s.isTransfer r = true :=
  isTransfer_of_findTransfer? (Option.filter_eq_some_iff.mp h).1

theorem isTransfer_of_mem_transfers (h : r ∈ s.transfers) : s.isTransfer r = true :=
  (List.mem_filter.mp h).2

/-- A session that is found for a call belongs to it. -/
theorem mem_ofCall_of_found (h : s.findByCall? pick c = some r) : r ∈ s.ofCall c := by
  unfold findByCall? at h
  split at h
  · exact absurd h (by simp)
  · next hcall =>
    rw [hcall, ← Option.some.inj h]
    exact List.get_mem _ _

/-- None is found only where there is none. -/
theorem findByCall?_eq_none_iff : s.findByCall? pick c = none ↔ s.ofCall c = [] := by
  unfold findByCall?
  split
  · next hcall => exact iff_of_true rfl hcall
  · next hcall => exact iff_of_false (by simp) (by simp [hcall])

/-- A session of a call exists. -/
theorem lt_size_of_mem_ofCall (h : r ∈ s.ofCall c) : r < s.sessions.size := by
  by_contra hr
  unfold ofCall at h
  split at h
  · exact absurd h List.not_mem_nil
  · next hc =>
    have hcall := of_decide_eq_true (List.mem_filter.mp h).2
    -- a session that does not exist has no dialog, so its call is the empty one
    rw [session_of_size_le (Nat.not_lt.mp hr)] at hcall
    have hempty : c = [] := hcall.symm
    exact hc (by simp [hempty])

end Stack

namespace Services

open Act

variable {N : Handler E} {R : World E → World E → Prop}

/-! ### What the services do on the side -/

theorem refreshOne (h : Services N R) (w : World E) : R w (after N Act.refreshOne w) := by
  rw [Act.refreshOne, after_stack_bind]
  cases hwaiting : w.stack.refreshes with
  | nil => exact h.refl w
  | cons c cs =>
    refine h.trans (h.service (.capabilities w c cs hwaiting)) ?_
    exact h.bind (h.bind (h.ask _ _) (h.report _ _)) (h.warnOnFailure _ _ _)

theorem refreshEach (h : Services N R) (cs : List Contact) (w : World E) :
    R w (after N (Act.refreshEach cs) w) := by
  induction cs generalizing w with
  | nil => exact h.refl w
  | cons c cs ih => exact h.bind (h.refreshOne w) (ih _)

/-- A failure is reported that the client does not see. -/
theorem markRead (h : Services N R) (id : Text) (w : World E) :
    R w (after N (Act.markRead id) w) := by
  rw [Act.markRead]
  split
  · exact h.fail _ _ _
  · exact h.bind (h.service (.markRead w id)) (h.bind (h.ask _ _) (h.report _ _))

theorem configure (h : Services N R) (f : Settings → Settings)
    (hf : ∀ s : Settings, (f s).limits = s.limits) (w : World E) :
    R w (after N (Act.configure f) w) :=
  h.service (.settings w f hf)

theorem setAutoAccept (h : Services N R) (on : Bool) (w : World E) :
    R w (after N (Act.setAutoAccept on) w) := by
  rw [Act.setAutoAccept, after_stack_bind]
  split
  · exact h.fail _ _ _
  · exact h.bind (h.configure _ (by exact fun _ => rfl) _) (h.info _ _)

theorem setAutoAcceptInRoaming (h : Services N R) (on : Bool) (w : World E) :
    R w (after N (Act.setAutoAcceptInRoaming on) w) := by
  rw [Act.setAutoAcceptInRoaming, after_stack_bind]
  dsimp only
  split
  · exact h.fail _ _ _
  · split
    · exact h.fail _ _ _
    · exact h.bind (h.configure _ (by exact fun _ => rfl) _) (h.info _ _)

theorem setResize (h : Services N R) (number : Int64) (w : World E) :
    R w (after N (Act.setResize number) w) := by
  rw [Act.setResize]
  split
  · exact h.fail _ _ _
  · exact h.bind (h.configure _ (by exact fun _ => rfl) _) (h.info _ _)

/-! ### Requests to sessions -/

theorem withTransfer (h : Services N R) (id : Text) (op : TransferOp) (hop : ¬op.IsListening)
    (w : World E) : R w (after N (Act.withTransfer id op) w) := by
  rw [Act.withTransfer, after_stack_bind]
  cases hfound : w.stack.findTransfer? id with
  | none => exact h.fail (α := Unit) _ _ w
  | some r => exact h.transfer op hop (Stack.isTransfer_of_findTransfer? hfound)

theorem withInvitation (h : Services N R) (id : Text) (op : TransferOp)
    (hop : ¬op.IsListening) (w : World E) :
    R w (after N (Act.withInvitation id op) w) := by
  rw [Act.withInvitation, after_stack_bind]
  cases hfound : w.stack.findIncoming? id with
  | none => exact h.fail (α := Unit) _ _ w
  | some r => exact h.transfer op hop (Stack.isTransfer_of_findIncoming? hfound)

/-! ### New transfers -/

theorem launch (h : Services N R) {r : Ref} {w : World E} (hr : w.stack.isTransfer r = true)
    (hrole : (w.stack.transfer r).role = .outgoing) : R w (after N (Act.launch r) w) := by
  have hstart := h.start hr hrole
  rw [Act.launch, after_bind, after_emit, after_bind]
  generalize after N (Act.startUpload r) (w.emit (.asked (.transfer r .start))) = w₁ at hstart ⊢
  cases result N (Act.startUpload r) (w.emit (.asked (.transfer r .start))) with
  | ok a => exact hstart
  | error f =>
    -- the upload cannot start, and the service closes its session
    have hclose := h.transfer (.close .bySystem) not_false ((h.grows hstart).isTransfer hr)
    rw [Act.askTransfer, after_bind, after_emit, Act.onTransfer, after_bind, after_pure] at hclose
    simp only [after_bind, after_emit, after_session, after_pure]
    exact h.trans hstart (h.trans hclose (h.warnOnFailure _ _ _))

/-- A new transfer, where the relation holds along what follows once it has entered. -/
theorem created (h : Services N R) {contact : Contact} {c : Content} {P : Session → Prop}
    {go : Ref → Act E (Outcome Ref)} {w w' : World E} {o : Outcome Ref}
    (hcreation : Creation N contact c P go w o w')
    (hgo : ∀ {r : Ref} {w : World E}, w.stack.isTransfer r = true → P (w.stack.session r) →
      R w (after N (go r) w)) : R w w' := by
  cases hcreation with
  | refused _ hquiet => exact h.murmurs hquiet
  | taken f hprepared =>
    obtain ⟨w₀, h₀, hmade, -⟩ := hprepared
    exact h.trans (h.murmurs h₀) (h.trans (h.make hmade) (h.log _ _ _))
  | @entered r w₁ hprepared hP hfree line =>
    obtain ⟨w₀, h₀, hmade, hadmits⟩ := hprepared
    have hgone := hgo (w := (w₁.enrolling r).emit (.log .info line)) hmade.kind hP
    have hentered := h.trans (h.murmurs h₀) (h.enter hmade hadmits hfree)
    exact h.trans hentered (h.trans (h.log _ _ _) hgone)

theorem sendFile (h : Services N R) (contact : Contact) (content : Content) (icon : Option Content)
    (w : World E) : R w (after N (Act.sendFile contact content icon) w) :=
  h.created (creation_sendFile contact content icon w) fun hr hupload => h.launch hr hupload.role

theorem invite (h : Services N R) (i : Invitation) (w : World E) :
    R w (after N (Act.invite i) w) :=
  h.created (creation_invite i w) fun _ _ => h.refl _

/-! ### Operations -/

theorem receiveBye (h : Services N R) (request : Sip.Message) (w : World E) :
    R w (after N (Act.receiveBye request) w) := by
  rw [Act.receiveBye]
  split
  · exact h.fail (α := Unit) _ _ w
  · rw [after_findByCall_bind]
    cases hfound : w.findByCall? request.callId with
    | some r => exact h.session (.bye request) (Stack.lt_size_of_mem_ofCall (Stack.mem_ofCall_of_found hfound))
    | none =>
      refine h.bind (h.warn _ w) (h.bind ?_ ?_)
      · exact h.toPlacid.sendResponse (h.service (.response _ _))
      · exact h.bind (h.warnOnFailure _ _ _) (h.fail (α := Unit) _ _ _)

theorem serve (h : Services N R) (op : ServiceOp) (w : World E) :
    R w (after N (Act.serve op) w) := by
  cases op with
  | send contact content icon => exact h.sendFile contact content icon w
  | invite i => exact h.invite i w
  | accept id => exact h.withInvitation id .accept not_false w
  | reject id => exact h.withInvitation id .reject not_false w
  | pause id => exact h.withTransfer id .pause not_false w
  | resume id => exact h.withTransfer id .resume not_false w
  | abort id => exact h.withTransfer id (.abort .byUser) not_false w
  | markRead id => exact h.markRead id w
  | addListener l => exact h.attach l w
  | removeListener l => exact h.detach l w
  | setAutoAccept on => exact h.setAutoAccept on w
  | setAutoAcceptInRoaming on => exact h.setAutoAcceptInRoaming on w
  | setResize number => exact h.setResize number w

/-- An operation on a file transfer stays in a relation if that holds along what the transfer
makes of it. -/
theorem carryOut_transfer (h : Services N R) {r : Ref} {op : TransferOp} {w : World E}
    (hop : w.stack.isTransfer r = true → R w (after N (Act.askTransfer r op) w)) :
    R w (after N (Act.carryOut (.transfer r op)) w) := by
  rw [Act.carryOut, after_bind, after_emit, Act.perform, after_stack_bind]
  split
  · next hr => exact hop hr
  · next hr => exact h.asked (.transfer r op) (Bool.eq_false_iff.mpr hr)

/-- **An operation stays in every relation that holds along all that the services ask for**,
where it leaves the listeners to the service. -/
theorem carryOut (h : Services N R) {op : Op} (hop : op.LeavesListeners) (w : World E) :
    R w (after N (Act.carryOut op) w) := by
  rw [Act.carryOut, after_bind, after_emit]
  cases op with
  | create d => exact h.trans (h.asked (.create d) trivial) (h.make (.create d _))
  | session r op =>
    rw [Act.perform, after_stack_bind]
    split
    · next hr => exact h.session op hr
    · next hr => exact h.asked (.session r op) (Op.isAside_of_size_le (Nat.not_lt.mp hr) op)
  | transfer r op => exact h.carryOut_transfer (h.transfer op hop)
  | register r =>
    cases r with
    | none => exact h.trans (h.asked (.register none) trivial) (h.fail (α := Unit) _ _ _)
    | some r =>
      rw [Act.perform, after_stack_bind]
      split
      · next hr =>
        rw [after_bind, after_pure]
        rcases register_cases (N := N) r (w.emit (.asked (.register (some r)))) with
          ⟨-, f, -, hafter⟩ | ⟨hfree, -, hafter⟩
        · rw [hafter]
          exact h.trans (h.asked (.register (some r)) trivial) (h.log _ _ _)
        · rw [hafter]
          exact h.register hr hfree
      · exact h.asked (.register (some r)) trivial
  | unregister id =>
    rw [Act.perform, after_bind]
    exact h.unregister (h.toPlacid.unregister id _)
  | receiveBye request =>
    exact h.trans (h.asked (.receiveBye request) trivial) (h.receiveBye request _)
  | watch on =>
    exact h.trans (h.asked (.watch on) trivial)
      (h.service (.watched _ on (List.mem_append_right _ List.mem_cons_self)))
  | refreshOne => exact h.trans (h.asked .refreshOne trivial) (h.refreshOne _)
  | refreshAll => exact h.trans (h.asked .refreshAll trivial) (h.refreshEach _ _)
  | service op => exact h.trans (h.asked (.service op) trivial) (h.serve op _)

end Services

/-! ### Listeners -/

/-- Asking several transfers for the same. -/
theorem Placid.askEach {N : Handler E} {R : World E → World E → Prop} (h : Placid N R)
    (hgrows : ∀ {w w'}, R w w' → w.Grows w') {op : TransferOp}
    (htransfer : ∀ {r w}, w.stack.isTransfer r = true → R w (Act.after N (Act.askTransfer r op) w))
    {rs : List Ref} {w : World E} (hrs : ∀ r ∈ rs, w.stack.isTransfer r = true) :
    R w (Act.after N (Act.askEach op rs) w) := by
  induction rs generalizing w with
  | nil => exact h.refl w
  | cons r rs ih =>
    have hfirst := htransfer (hrs r List.mem_cons_self)
    refine h.bind hfirst (ih fun q hq => ?_)
    exact (hgrows hfirst).isTransfer (hrs q (List.mem_cons_of_mem r hq))

/-- Attaching a listener to all transfers, where it may be attached to each of them. -/
theorem Placid.addServiceListener {N : Handler E} {R : World E → World E → Prop} (h : Placid N R)
    (hgrows : ∀ {w w'}, R w w' → w.Grows w') (l : Option Listener)
    (hlisteners : ∀ w ls, R w (w.change fun s => { s with listeners := ls }))
    (htransfer : ∀ {r w}, w.stack.isTransfer r = true →
      R w (Act.after N (Act.askTransfer r (.addListener l)) w)) (w : World E) :
    R w (Act.after N (Act.addServiceListener l) w) := by
  rw [Act.addServiceListener, Act.after_stack_bind]
  dsimp only
  split
  · refine h.bind (hlisteners w _) ?_
    rw [Act.after_stack_bind]
    refine h.bind (h.askEach hgrows htransfer fun r hr => ?_) (h.refl _)
    exact Stack.isTransfer_of_mem_transfers hr
  · exact h.refl w

/-- Detaching one from all of them. -/
theorem Placid.removeServiceListener {N : Handler E} {R : World E → World E → Prop}
    (h : Placid N R) (hgrows : ∀ {w w'}, R w w' → w.Grows w') (l : Option Listener)
    (hlisteners : ∀ w ls, R w (w.change fun s => { s with listeners := ls }))
    (htransfer : ∀ {r w}, w.stack.isTransfer r = true →
      R w (Act.after N (Act.askTransfer r (.removeListener l)) w)) (w : World E) :
    R w (Act.after N (Act.removeServiceListener l) w) := by
  rw [Act.removeServiceListener, Act.after_stack_bind]
  dsimp only
  split
  · refine h.bind (hlisteners w _) ?_
    rw [Act.after_stack_bind]
    refine h.bind (h.askEach hgrows htransfer fun r hr => ?_) (h.refl _)
    exact Stack.isTransfer_of_mem_transfers hr
  · exact h.refl w

/-- **An operation stays in every relation that obeys the rules.** -/
theorem Rules.carryOut {N : Handler E} {R : World E → World E → Prop} (h : Rules N R) (op : Op)
    (w : World E) : R w (Act.after N (Act.carryOut op) w) := by
  by_cases hop : op.LeavesListeners
  · exact h.toServices.carryOut hop w
  · cases op with
    | transfer r op => exact h.carryOut_transfer (h.listening op (not_not.mp hop))
    | _ => exact absurd trivial hop

/-! ### Runs -/

/-- The world before anything has happened. -/
def World.start (settings : Settings) (client : E.State) : World E :=
  ⟨.fresh settings, client, []⟩

/-- Collaborators that do all they are asked, and a client that has only listeners. -/
def Environment.obliging
    (react : Listener → Ref → Callback → Program Unit Unit (Option Text)) : Environment where
  State := Unit
  Note := Unit
  sendRequest _ s := (none, s)
  sendResponse _ s := (none, s)
  askCapabilities _ s := (none, s)
  markRead _ s := (none, s)
  makeTransfer _ s := (true, s)
  now _ s := (0, s)
  newTransferId s := ("transfer", s)
  newTag s := ("tag", s)
  pick _ _ others := ⟨0, Nat.zero_lt_succ others⟩
  listener := react
  control _ _ _ := .done none
  removed _ := .done ()

/-- **An operation with its nested ones stays in every relation that obeys the rules**,
whoever carries out the nested ones. -/
theorem Rules.exec {R : World E → World E → Prop} (hrefl : ∀ w, R w w)
    (h : ∀ N : Handler E, (∀ w op, R w ((N op).run w).2) → Rules N R) (depth : Nat) (w : World E)
    (op : Op) : R w ((exec E depth op).run w).2 := by
  induction depth generalizing w op with
  | zero => exact hrefl w
  | succ depth ih => exact (h _ ih).carryOut op w

/-- **A program of the client stays in every relation that obeys the rules.** -/
theorem Rules.run {R : World E → World E → Prop} (hrefl : ∀ w, R w w)
    (h : ∀ N : Handler E, (∀ w op, R w ((N op).run w).2) → Rules N R) (depth : Nat) {α : Type}
    (p : Program E.State E.Note α) (w : World E) : R w ((run E depth p).run w).2 :=
  (h _ (Rules.exec hrefl h depth)).play p w

end FileSharing
