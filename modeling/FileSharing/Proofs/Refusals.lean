import FileSharing.Proofs.Discretion
import FileSharing.Proofs.Registration

/-!
# Transfers that do not come about

A new transfer may be refused before there is a session for it, it may be made and
find its name taken, or it may enter the registry and not start.  In the last case the
service closes it again, and its session goes the way of every session that ends: it is
interrupted and leaves.  All this happens to a session that nobody has seen yet.  Where
the controls and the client's removal callback leave the stack alone, nothing that was
there before can tell the difference.

## Main definitions

* `Environment.IsReserved` — who is assumed to leave the stack alone.
* `World.Unmoved` — what a failed request leaves as it was.
* `Stack.discard` — the stack after a session was closed that has no dialog.

## Main results

* `World.Yields.launch_of_error` — **an upload that cannot start is closed without a
  word.**
* `Environment.IsReserved.failed_unmoved` — **a new transfer that fails leaves no
  trace.**
-/

namespace FileSharing

variable {E : Environment}

/-- The controls of transfers and the client's removal callback do not use the stack. -/
structure Environment.IsReserved (E : Environment) : Prop where
  control : ∀ r n call, (E.control r n call).Asks fun _ => False
  removed : ∀ id, (E.removed id).Asks fun _ => False

/-- Between two worlds nothing has become of what was there. -/
structure World.Unmoved (w w' : World E) : Prop where
  /-- No session is gone. -/
  size : w.stack.sessions.size ≤ w'.stack.sessions.size
  /-- Every session is what it was. -/
  sessions : ∀ q < w.stack.sessions.size, w'.stack.session q = w.stack.session q
  /-- The same sessions are registered under the same names. -/
  registry : w'.stack.registry = w.stack.registry
  /-- All else is the same, the service with its listeners and what waits in the event loop
  included; only the transfers are counted that the engine was asked for. -/
  rest : w'.stack
    = { w.stack with sessions := w'.stack.sessions, created := w'.stack.created }
  /-- Others have heard nothing. -/
  said : FileSharing.said w'.trace = FileSharing.said w.trace

/-! ### What leaves the stack alone -/

section Quiet

open Act

variable {N : Handler E} {w : World E} {r : Ref}

/-- Where collaborators keep to themselves, whatever leaves the stack alone is heard by
nobody. -/
theorem Environment.IsReserved.placid (hE : E.IsReserved) :
    Placid N fun w w' => World.Yields w.stack [] w w' where
  refl := .refl
  trans h h' := h.quiet h'
  log w _ _ := .emit w rfl
  client := .withClient
  control r n call := .play (hE.control r n call)
  removed id := .play (hE.removed id)

namespace World.Yields

/-- A control is called and does not use the stack. -/
theorem drive (hE : E.IsReserved) (n : Nat) (call : ControlCall) (w : World E) :
    World.Yields w.stack [] w (after N (Act.drive r n call) w) :=
  hE.placid.drive (.emit w rfl) fun w _ => .emit w rfl

/-- A transfer that cannot begin has not begun. -/
theorem begin_of_error (hE : E.IsReserved) {n : Nat} {f : Failure}
    (hf : result N (begin r n) w = .error f) :
    World.Yields w.stack [] w (after N (begin r n) w) := by
  have hdrive := World.Yields.drive (N := N) (r := r) hE n .start w
  rw [begin, after_bind]
  rw [begin, result_bind] at hf
  cases hstarted : result N (Act.drive r n .start) w with
  | ok a =>
    rw [hstarted] at hf
    exact absurd hf (by simp)
  | error f' => exact hdrive

/-- An upload that cannot start changes nothing. -/
theorem startUpload_of_error (hE : E.IsReserved) {f : Failure}
    (hf : result N (startUpload r) w = .error f) :
    World.Yields w.stack [] w (after N (startUpload r) w) := by
  have hP : Placid N fun w w' : World E => World.Yields w.stack [] w w' := hE.placid
  rw [startUpload, after_session_bind, after_transfer_bind]
  rw [startUpload, result_bind, result_session, after_session, result_bind, result_transfer,
    after_transfer] at hf
  split
  · exact hP.fail _ _ w
  · next hlive =>
    rw [if_neg hlive] at hf
    split
    · exact hP.fail _ _ w
    · next hbegun =>
      rw [if_neg hbegun] at hf
      cases hcontrol : (w.stack.transfer r).control with
      | none => exact hP.fail _ _ w
      | some n =>
        rw [hcontrol] at hf
        exact hP.bind (hP.info _ w) (begin_of_error hE hf)

end World.Yields

end Quiet

/-! ### Closing what nobody has seen -/

/-- The stack after a session was closed that has no dialog: it is interrupted and has
left. -/
def Stack.discard (s : Stack) (r : Ref) : Stack :=
  { s.update r fun x => { x with interrupted := true, removed := true } with
    registry := s.registry.filter (·.1 ≠ (s.session r).id) }

namespace World.Yields

open Act

variable {N : Handler E} {w : World E} {r : Ref}

/-- Where there is no dialog, none has to be ended. -/
theorem closeDialog_of_none (reason : AbortReason) (hdialog : (w.stack.session r).dialog = none) :
    World.Yields w.stack [] w (after N (Act.closeDialog r reason) w) ∧
      result N (Act.closeDialog r reason) w = .ok () := by
  rw [closeDialog, after_session_bind, result_bind, result_session, after_session, after_bind,
    result_bind, hdialog]
  exact ⟨emit w rfl, rfl⟩

/-- A session without a dialog is closed without a word. -/
theorem close (hE : E.IsReserved) (reason : AbortReason)
    (hdialog : (w.stack.session r).dialog = none)
    (hstays : (w.stack.session r).removed = false) :
    World.Yields (w.stack.discard r) [] w (after N (Act.close r reason) w) := by
  have hinterrupt := interrupting w r
  rw [stack_interrupting] at hinterrupt
  rw [Act.close, after_bind, after_interrupt]
  generalize w.interrupting r = w₁ at hinterrupt ⊢
  have hnone : (w₁.stack.session r).dialog = none := by
    rw [hinterrupt.stack, Stack.dialog_interrupt, hdialog]
  obtain ⟨hquiet, hok⟩ := closeDialog_of_none (N := N) reason hnone
  rw [after_bind, hok]
  have hclosed := hinterrupt.quiet hquiet
  generalize after N (Act.closeDialog r reason) w₁ = w₂ at hclosed ⊢
  -- nothing has failed, so there is nothing to warn of before the session leaves
  have hlive : (w₂.stack.session r).removed = false := by
    rw [hclosed.stack, Stack.removed_interrupt, hstays]
  have hleft := hclosed.trans (.leave (N := N) (r := r) w₂ fun _ => hE.removed)
  rw [stack_leaving hlive, hclosed.stack, Stack.id_interrupt, Stack.interrupt,
    Stack.update_update, List.append_nil] at hleft
  exact hleft

/-- **An upload that cannot start is closed without a word.** -/
theorem launch_of_error (hE : E.IsReserved) {f : Failure}
    (hdialog : (w.stack.session r).dialog = none)
    (hstays : (w.stack.session r).removed = false) (hf : result N (launch r) w = .error f) :
    World.Yields (w.stack.discard r) [] w (after N (launch r) w) := by
  rw [launch, after_bind, after_emit, after_bind]
  rw [launch, result_bind, after_emit, result_bind] at hf
  have hasked := emit w (e := .asked (.transfer r .start)) rfl
  cases hresult : result N (startUpload r) (w.emit (.asked (.transfer r .start))) with
  | ok a =>
    rw [hresult] at hf
    exact absurd hf (by simp)
  | error f' =>
    have hstart := hasked.quiet (startUpload_of_error hE hresult)
    generalize after N (startUpload r) (w.emit (.asked (.transfer r .start))) = w₁ at hstart ⊢
    have hfailed := hstart.emitted (e := .asked (.transfer r (.close .bySystem))) rfl
    have hclose := close (N := N) (w := w₁.emit (.asked (.transfer r (.close .bySystem)))) hE
      .bySystem (by rw [hfailed.stack, hdialog]) (by rw [hfailed.stack, hstays])
    have hclosed := hfailed.trans hclose
    rw [hfailed.stack, List.append_nil] at hclosed
    exact hclosed.quiet (.warnOnFailure _ _ _)

end World.Yields

/-! ### What is left as it was -/

namespace World.Unmoved

variable {w w₁ w₂ : World E} {r : Ref}

theorem trans (h : w.Unmoved w₁) (h' : w₁.Unmoved w₂) : w.Unmoved w₂ where
  size := Nat.le_trans h.size h'.size
  sessions q hq := (h'.sessions q (Nat.lt_of_lt_of_le hq h.size)).trans (h.sessions q hq)
  registry := h'.registry.trans h.registry
  rest := by rw [h'.rest, h.rest]
  said := h'.said.trans h.said

/-- What leaves the stack alone and is heard by nobody. -/
theorem ofQuiet (h : World.Yields w.stack [] w w₁) : w.Unmoved w₁ where
  size := Nat.le_of_eq (by rw [h.stack])
  sessions q _ := by rw [h.stack]
  registry := by rw [h.stack]
  rest := by rw [h.stack]
  said := by rw [h.said, List.append_nil]

theorem ofMurmurs (h : w.Murmurs w₁) : w.Unmoved w₁ := by
  induction h with
  | refl => exact ofQuiet (.refl _)
  | log _ level line ih => exact ih.trans (ofQuiet (.emit _ rfl))
  | client _ c ih => exact ih.trans (ofQuiet (.withClient _ c))

/-- The making of a session moves no other. -/
theorem ofMade {file : Bool} (h : w.Made r file w₁) : w.Unmoved w₁ where
  size := by
    rw [h.size, h.fresh]
    exact Nat.le_succ r
  sessions q hq := h.others q (Nat.ne_of_lt (h.fresh ▸ hq))
  registry := by rw [h.rest]
  rest := h.rest
  said := by
    obtain ⟨T, hT, hmaking⟩ := h.trace
    have hsilent : FileSharing.said T = [] := by
      refine List.filter_eq_nil_iff.mpr fun e he => ?_
      have hmade := hmaking e he
      cases e with
      | log level line => simp [Event.isSaid]
      | transfer q number movement content icon => simp [Event.isSaid]
      | _ => exact absurd hmade not_false
    rw [hT, FileSharing.said, List.filter_append, ← FileSharing.said, ← FileSharing.said, hsilent,
      List.append_nil]

/-- A session that was made since has entered the registry under a name that was free, and
was discarded. -/
theorem discarded (h : w.Unmoved w₁) (hr : w.stack.sessions.size ≤ r)
    (hfree : w₁.stack.find? (w₁.stack.session r).id = none)
    (hw : World.Yields ((w₁.enrolling r).stack.discard r) [] (w₁.enrolling r) w₂) :
    w.Unmoved w₂ := by
  have hstack : w₂.stack
      = w₁.stack.update r fun x => { x with interrupted := true, removed := true } := by
    -- the entry that was added is the only one of its name
    have hfilter : ((w₁.enrolling r).stack.registry.filter
        (·.1 ≠ ((w₁.enrolling r).stack.session r).id)) = w₁.stack.registry := by
      refine (List.filter_cons_of_neg ?_).trans (Stack.filter_of_free hfree)
      simp [enrolling, Stack.session]
    rw [hw.stack, Stack.discard, hfilter]
    rfl
  have hsaid : FileSharing.said (w₁.enrolling r).trace = FileSharing.said w₁.trace := by
    simp [enrolling, FileSharing.said, Event.isSaid]
  refine ⟨?_, fun q hq => ?_, ?_, ?_, ?_⟩
  · rw [hstack, Stack.size_update]
    exact h.size
  · rw [hstack, Stack.session_update_of_ne (Nat.ne_of_lt (Nat.lt_of_lt_of_le hq hr))]
    exact h.sessions q hq
  · rw [hstack]
    exact h.registry
  · rw [hstack, Stack.update, h.rest]
  · rw [hw.said, hsaid, List.append_nil]
    exact h.said

end World.Unmoved

/-- A new transfer that fails, where it is discarded if that happens after it has entered. -/
theorem World.Unmoved.created {N : Handler E} {contact : Contact} {c : Content}
    {P : Session → Prop} {go : Ref → Act E (Outcome Ref)} {w w' : World E} {o : Outcome Ref}
    {f : Failure} (hcreation : Creation N contact c P go w o w')
    (hgo : ∀ {r : Ref} {w : World E}, P (w.stack.session r) → (w.stack.session r).removed = false →
      Act.result N (go r) w = .error f →
        World.Yields (w.stack.discard r) [] w (Act.after N (go r) w))
    (ho : o = .error f) : w.Unmoved w' := by
  cases hcreation with
  | refused _ hquiet => exact .ofMurmurs hquiet
  | taken f' hprepared =>
    obtain ⟨w₀, h₀, hmade, -⟩ := hprepared
    exact ((ofMurmurs h₀).trans (ofMade hmade)).trans (ofQuiet (.emit _ rfl))
  | @entered r w₁ hprepared hP hfree line =>
    obtain ⟨w₀, h₀, hmade, -⟩ := hprepared
    have hlater : w.stack.sessions.size = r := by rw [← hmade.fresh, h₀.stack]
    have hgone := hgo (w := (w₁.enrolling r).emit (.log .info line)) hP hmade.isNew.removed ho
    refine ((ofMurmurs h₀).trans (ofMade hmade)).discarded (Nat.le_of_eq hlater) hfree ?_
    exact (World.Yields.emit (w₁.enrolling r) rfl).trans hgone

/-- **A new transfer that fails leaves no trace**, whatever is asked for, whatever there was
before, and wherever it fails: the registry has the same sessions under the same names,
all sessions are what they were, and so are the service and its listeners; nobody is told,
no message is sent, and nothing more waits in the event loop. -/
theorem Environment.IsReserved.failed_unmoved (hE : E.IsReserved) (depth : Nat) (op : ServiceOp)
    (w : World E) {f : Failure}
    (hf : ((exec E depth (.service op)).run w).1 = .session (.error f)) :
    w.Unmoved ((exec E depth (.service op)).run w).2 := by
  cases depth with
  | zero => exact absurd hf (by simp [exec])
  | succ depth =>
    have hasked : w.Unmoved (w.emit (.asked (.service op))) := .ofQuiet (.emit w rfl)
    have hserve : Act.result (exec E depth) (Act.serve op) (w.emit (.asked (.service op)))
        = .session (.error f) := hf
    refine hasked.trans ?_
    cases op with
    | send contact content icon =>
      refine .created (Act.creation_sendFile contact content icon _) ?_ (Reply.session.inj hserve)
      exact fun hupload => World.Yields.launch_of_error hE hupload.dialog
    | invite i =>
      refine .created (Act.creation_invite i _) ?_ (Reply.session.inj hserve)
      exact fun _ _ hf => absurd hf (by simp)
    | accept id | reject id => exact absurd hserve (result_withInvitation_ne id _ _)
    | pause id | resume id | abort id => exact absurd hserve (result_withTransfer_ne id _ _)
    | _ => simp [Act.serve] at hserve

deriving instance DecidableEq for Reply

/-- Collaborators of which the engine is not to be reached. -/
def Environment.stalled : Environment :=
  { Environment.obliging (fun _ _ _ => .done none) with
    control := fun _ _ _ => .done (some ⟨.networkError, "Engine is down"⟩) }

/-- The client wants to hear of departures, listens to all transfers, and registers a
session. -/
def listenAndEnter : Program Unit Unit Unit :=
  .call (.watch true) fun _ =>
  .call (.service (.addListener (some 7))) fun _ =>
  .call (.create ⟨"chat", ⟨"+33612345678"⟩, [], 0, none⟩) fun _ =>
  .call (.register (some 0)) fun _ => .done ()

/-- An upload that the engine cannot start was registered, and nothing is left of it. -/
theorem failed_unmoved_stalled :
    let w := ((run .stalled 1 listenAndEnter).run (.start .default ())).2
    let answer := (exec .stalled 1 (.service (.send ⟨"+33612345678"⟩ .empty none))).run w
    answer.1 = .session (.error ⟨.networkError, "Engine is down"⟩) ∧
      w.stack.registry.map Prod.snd = [0] ∧ Registered 1 answer.2.trace ∧ w.Unmoved answer.2 := by
  intro w answer
  have hreserved : Environment.stalled.IsReserved :=
    ⟨fun _ _ _ => trivial, fun _ => trivial⟩
  have hfailed : answer.1 = .session (.error ⟨.networkError, "Engine is down"⟩) := by
    decide +kernel
  have hregistry : w.stack.registry.map Prod.snd = [0] := by decide +kernel
  have hentered : Registered 1 answer.2.trace := by decide +kernel
  exact ⟨hfailed, hregistry, hentered, hreserved.failed_unmoved 1 _ w hfailed⟩

end FileSharing
