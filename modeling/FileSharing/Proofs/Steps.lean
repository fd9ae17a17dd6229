import FileSharing.Proofs.Growth

/-!
# The steps that matter in the life of a session

A session is interrupted, its end is claimed, data begins to flow, it enters the
registry and it leaves.  Each of these is one step between worlds, and here is
what the step does.  A step is over before any callback can start an operation.

## Main definitions

* `World.interrupting`, `World.claiming` — the mark, and the claim that sets it.
* `World.establishing` — the first report of data.
* `World.dismissing`, `World.leaving` — out of the registry.
* `World.enrolling` — into the registry.

## Main results

* `Act.after_claim`, `Act.result_claim` — a claim succeeds where the mark is not
  yet set, and nowhere else.
* `Placid.leave`, `Placid.unregister` — what follows a departure is up to the
  client.
-/

namespace FileSharing

namespace World

variable {E : Environment}

/-- The world in which a session has just been marked as interrupted. -/
def interrupting (w : World E) (r : Ref) : World E :=
  if (w.stack.session r).interrupted then w
  else
    ((w.change (·.update r fun s => { s with interrupted := true })).emit (.interrupted r)).emit
      (.log .debug (ascii "Session " ++ (w.stack.session r).id ++ " interrupted"))

/-- The world in which the end of a transfer has just been claimed. -/
def claiming (w : World E) (r : Ref) (ending : Ending) : World E :=
  (w.interrupting r).emit (.claimed r ending)

/-- The world in which a transfer has just become established. -/
def establishing (w : World E) (r : Ref) : World E :=
  ((w.change (·.updateTransfer r fun t => { t with phase := .established })).emit
    (.established r)).emit
    (.log .info (ascii "Session " ++ (w.stack.session r).id
      ++ " state changed: PENDING -> ESTABLISHED"))

/-- The world in which whatever was registered under a name has just left. -/
def dismissing (w : World E) (id : Text) : World E :=
  if (w.stack.find? id).isSome then
    let w₁ := w.change fun s => { s with registry := s.registry.filter (·.1 ≠ id) }
    let w₂ := w₁.emit (.log .info (ascii "Removed session " ++ id ++ Act.activeCount w₁.stack))
    if w.stack.watched then w₂.emit (.removed id) else w₂
  else w

/-- The world in which a session has just left the registry, if it had not left
before. -/
def leaving (w : World E) (r : Ref) : World E :=
  if (w.stack.session r).removed then w
  else
    (w.change (·.update r fun s => { s with removed := true })).dismissing (w.stack.session r).id

/-- The world in which a session has just entered the registry. -/
def enrolling (w : World E) (r : Ref) : World E :=
  let id := (w.stack.session r).id
  let w₁ := (w.change fun s => { s with registry := (id, r) :: s.registry }).emit
    (.registered id r)
  w₁.emit (.log .info (ascii "Added session " ++ id ++ Act.activeCount w₁.stack))

end World

/-! ### The actions behind the steps -/

namespace Act

variable {E : Environment} {N : Handler E} {w : World E} {r : Ref}

@[simp] theorem after_interrupt : after N (interrupt r) w = w.interrupting r := by
  unfold World.interrupting
  split
  · next h => simp [interrupt, h]
  · next h => simp [interrupt, h]

/-- **A session is registered exactly where its name is free.** -/
theorem register_cases (r : Ref) (w : World E) :
    ((w.stack.find? (w.stack.session r).id).isSome = true ∧
      ∃ f, result N (register (some r)) w = .error f ∧
        after N (register (some r)) w = w.emit (.log .debug f.logLine)) ∨
    (w.stack.find? (w.stack.session r).id = none ∧ result N (register (some r)) w = .ok () ∧
      after N (register (some r)) w = w.enrolling r) := by
  rw [register, after_session_bind, after_stack_bind, result_bind, result_bind, result_session,
    result_stack, after_session, after_stack]
  split
  · next htaken => exact .inl ⟨htaken, _, rfl, rfl⟩
  · next hfree => exact .inr ⟨Option.not_isSome_iff_eq_none.mp hfree, rfl, rfl⟩

/-- What is logged where an event comes too late. -/
def lateLine (s : Session) (what : Text) : Text :=
  ascii "Session " ++ s.id ++ " is torn down, dropping " ++ what

@[simp] theorem after_accepts (what : Text) :
    after N (accepts r what) w
      = if (w.stack.session r).interrupted then
          w.emit (.log .debug (lateLine (w.stack.session r) what))
        else w := by
  unfold accepts
  simp only [after_bind, after_session, result_session, ↓after_ite, after_debug, after_pure]
  rfl

@[simp] theorem result_accepts (what : Text) :
    result N (accepts r what) w = !(w.stack.session r).interrupted := by
  by_cases h : (w.stack.session r).interrupted = true
  · simp [accepts, h]
  · simp [accepts, h]

/-- **A claim succeeds where the session is not interrupted yet**, and marks it. -/
theorem after_claim (ending : Ending) (what : Text) :
    after N (claim r ending what) w
      = if (w.stack.session r).interrupted then
          w.emit (.log .debug (lateLine (w.stack.session r) what))
        else w.claiming r ending := by
  unfold claim
  by_cases h : (w.stack.session r).interrupted = true
  · simp [h]
  · simp [h, World.claiming]

theorem result_claim (ending : Ending) (what : Text) :
    result N (claim r ending what) w = !(w.stack.session r).interrupted := by
  unfold claim
  by_cases h : (w.stack.session r).interrupted = true
  · simp [h]
  · simp [h]

variable {α : Type}

/-- What follows where a session takes an event. -/
theorem after_accepts_live (hi : (w.stack.session r).interrupted = false) (what : Text)
    (f : Bool → Act E α) : after N (accepts r what >>= f) w = after N (f true) w := by
  simp [hi]

/-- What follows where a session drops an event. -/
theorem after_accepts_late (hi : (w.stack.session r).interrupted = true) (what : Text)
    (f : Bool → Act E α) :
    after N (accepts r what >>= f) w
      = after N (f false) (w.emit (.log .debug (lateLine (w.stack.session r) what))) := by
  simp [hi]

/-- What follows where the end of a session is claimed. -/
theorem after_claim_live (hi : (w.stack.session r).interrupted = false) (ending : Ending)
    (what : Text) (f : Bool → Act E α) :
    after N (claim r ending what >>= f) w = after N (f true) (w.claiming r ending) := by
  rw [after_bind, after_claim, result_claim]
  simp [hi]

/-- What follows where a session has ended already. -/
theorem after_claim_late (hi : (w.stack.session r).interrupted = true) (ending : Ending)
    (what : Text) (f : Bool → Act E α) :
    after N (claim r ending what >>= f) w
      = after N (f false) (w.emit (.log .debug (lateLine (w.stack.session r) what))) := by
  rw [after_bind, after_claim, result_claim]
  simp [hi]

end Act

/-! ### What the steps keep -/

namespace World

variable {E : Environment} (w : World E) (r : Ref)

theorem grows_interrupting : w.Grows (w.interrupting r) := by
  unfold interrupting
  split
  · exact .refl w
  · refine .emitted (.emitted (.update w r ?_) _) _
    exact .interrupt _

theorem grows_claiming (ending : Ending) : w.Grows (w.claiming r ending) :=
  (w.grows_interrupting r).emitted _

theorem grows_establishing : w.Grows (w.establishing r) := by
  refine .emitted (.emitted (.updateTransfer w r ?_) _) _
  exact fun _ => rfl

theorem grows_dismissing (id : Text) : w.Grows (w.dismissing id) := by
  unfold dismissing
  split
  · dsimp only
    split
    · exact .emitted (.emitted (.change w rfl) _) _
    · exact .emitted (.change w rfl) _
  · exact .refl w

theorem grows_leaving : w.Grows (w.leaving r) := by
  unfold leaving
  split
  · exact .refl w
  · refine .trans (.update w r ?_) (grows_dismissing _ _)
    exact .leave _

theorem grows_enrolling : w.Grows (w.enrolling r) := by
  exact .emitted (.emitted (.change w rfl) _) _

/-- A session is interrupted once. -/
theorem interrupting_of_interrupted {w : World E} {r : Ref}
    (h : (w.stack.session r).interrupted = true) : w.interrupting r = w := by
  simp [interrupting, h]

/-- After the step a session that exists is interrupted. -/
theorem interrupted_interrupting {w : World E} {r : Ref} (h : r < w.stack.sessions.size) :
    ((w.interrupting r).stack.session r).interrupted = true := by
  unfold interrupting
  split
  · assumption
  · simp [Stack.session_update_self h]

theorem dismissing_sessions {w : World E} {id : Text} :
    (w.dismissing id).stack.sessions = w.stack.sessions := by
  unfold dismissing
  split
  · dsimp only
    split
    · rfl
    · rfl
  · rfl

/-- A session that is made leaves. -/
theorem removed_leaving {w : World E} {r : Ref} (hr : r < w.stack.sessions.size) :
    ((w.leaving r).stack.session r).removed = true := by
  unfold leaving
  split
  · assumption
  · rw [Stack.session, dismissing_sessions, ← Stack.session, change_stack,
      Stack.session_update_self hr]

end World

/-! ### What follows a departure -/

namespace Act

variable {E : Environment} {N : Handler E}

/-- After whatever was registered under a name has left, the client may be told. -/
theorem after_unregister (id : Text) (w : World E) :
    after N (unregister id) w = w.dismissing id ∨ w.stack.watched = true ∧
      after N (unregister id) w = after N (play (E.removed id)) (w.dismissing id) := by
  unfold unregister World.dismissing
  by_cases hid : (w.stack.find? id).isSome = true
  · by_cases hw : w.stack.watched = true
    · right
      refine ⟨hw, ?_⟩
      simp only [after_bind, after_stack, result_stack, ↓after_ite, after_change, after_info, hid,
        if_true, World.emit_stack, World.change_stack, hw, after_emit]
    · left
      simp only [after_bind, after_stack, result_stack, ↓after_ite, after_change, after_info, hid,
        if_true, World.emit_stack, World.change_stack, hw, after_pure]
      rfl
  · left
    simp only [after_bind, after_stack, result_stack, ↓after_ite, hid, after_pure]
    rfl

/-- After a session has left, the client may be told. -/
theorem after_leave (r : Ref) (w : World E) :
    after N (leave r) w = w.leaving r ∨ w.stack.watched = true ∧
      after N (leave r) w = after N (play (E.removed (w.stack.session r).id)) (w.leaving r) := by
  unfold leave World.leaving
  by_cases hr : (w.stack.session r).removed = true
  · left
    simp only [after_bind, after_session, result_session, ↓after_ite, hr, if_true, after_pure]
  · simp only [after_bind, after_session, result_session, ↓after_ite, hr, after_update]
    exact after_unregister _ _

end Act

namespace Placid

variable {E : Environment} {N : Handler E} {R : World E → World E → Prop}

/-- After whatever was registered under a name has left, the client may hear of it. -/
theorem unregister (h : Placid N R) (id : Text) (w : World E) :
    R (w.dismissing id) (Act.after N (Act.unregister id) w) := by
  rcases Act.after_unregister (N := N) id w with hafter | ⟨-, hafter⟩
  · rw [hafter]
    exact h.refl _
  · rw [hafter]
    exact h.removed _ _

/-- After a session has left, the client may hear of it. -/
theorem leave (h : Placid N R) (r : Ref) (w : World E) :
    R (w.leaving r) (Act.after N (Act.leave r) w) := by
  rcases Act.after_leave (N := N) r w with hafter | ⟨-, hafter⟩
  · rw [hafter]
    exact h.refl _
  · rw [hafter]
    exact h.removed _ _

end Placid

/-! ### Controls and messages -/

namespace Act

variable {E : Environment} {N : Handler E}

/-- What a control does when it is called, and what comes of it. -/
def called (r : Ref) (n : Nat) (call : ControlCall) : Act E (Outcome Unit) := do
  report (← play (E.control r n call))

/-- A session that exists gets the request to end its dialog. -/
theorem after_carryOut_bye {r : Ref} {request : Sip.Message} {w : World E}
    (hr : r < w.stack.sessions.size) :
    after N (carryOut (.session r (.bye request))) w
      = after N (bye r request) (w.emit (.asked (.session r (.bye request)))) := by
  rw [carryOut, after_bind, after_emit, perform, after_stack_bind, World.emit_stack, if_pos hr,
    onSession, after_bind, after_pure]

/-- A transfer has begun once its control was started, unless that fails. -/
theorem after_begin (r : Ref) (n : Nat) (w : World E) :
    let w₁ := after N (called r n .start) (w.emit (.control r n .start))
    after N (begin r n) w = w₁.emit (.controlDone r n .start false) ∨
      after N (begin r n) w = (w₁.emit (.controlDone r n .start true)).change
        (·.updateTransfer r fun t => { t with begun := true }) := by
  intro w₁
  have hdrive : after N (drive r n .start) w
      = w₁.emit (.controlDone r n .start (Outcome.succeeded (result N (drive r n .start) w))) := rfl
  unfold begin
  rw [after_bind, hdrive]
  cases result N (drive r n .start) w with
  | ok a => exact .inr rfl
  | error f => exact .inl rfl

end Act

namespace Placid

variable {E : Environment} {N : Handler E} {R : World E → World E → Prop}

variable {r : Ref} {n : Nat}

/-- What a control does is up to the client. -/
theorem called (h : Placid N R) (r : Ref) (n : Nat) (call : ControlCall) (w : World E) :
    R w (Act.after N (Act.called r n call) w) :=
  h.bind (h.control r n call _) (h.report _ _)

theorem drive (h : Placid N R) {call : ControlCall} {w : World E}
    (hcontrol : R w (w.emit (.control r n call)))
    (hdone : ∀ w b, R w (w.emit (.controlDone r n call b))) :
    R w (Act.after N (Act.drive r n call) w) :=
  h.trans hcontrol (h.trans (h.called r n call _) (hdone _ _))

theorem begin (h : Placid N R) (hcontrol : ∀ w, R w (w.emit (.control r n .start)))
    (hdone : ∀ w b, R w (w.emit (.controlDone r n .start b)))
    (hbegun : ∀ w, R w (w.change (·.updateTransfer r fun t => { t with begun := true })))
    (w : World E) : R w (Act.after N (Act.begin r n) w) := by
  have hcall := h.trans (hcontrol w) (h.called r n .start (w.emit _))
  rcases Act.after_begin (N := N) r n w with hafter | hafter
  · rw [hafter]
    exact h.trans hcall (hdone _ _)
  · rw [hafter]
    exact h.trans hcall (h.trans (hdone _ _) (hbegun _))

theorem closeDialog (h : Placid N R)
    (hdialog : ∀ w d, R w (w.change (·.update r fun s => { s with dialog := some d })))
    (hrequest : ∀ w m, R w (w.emit (.request r m))) (reason : AbortReason) (w : World E) :
    R w (Act.after N (Act.closeDialog r reason) w) := by
  rw [Act.closeDialog, Act.after_session_bind]
  refine h.bind (h.info _ _) ?_
  cases (w.stack.session r).dialog with
  | none => exact h.refl _
  | some d =>
    dsimp only
    split
    · exact h.refl _
    · refine h.bind (hdialog _ _) (h.bind (h.debug _ _) ?_)
      exact h.bind (hrequest _ _) (h.bind (h.ask _ _) (h.report _ _))

theorem byeResponse (h : Placid N R) (request : Sip.Message) (w : World E) :
    R w (Act.after N (Act.byeResponse r request) w) := by
  rw [Act.byeResponse, Act.after_session_bind]
  split
  · exact h.refl _
  · exact h.bind (h.ask _ _) (h.refl _)

theorem sendResponse (h : Placid N R) {r : Option Ref} {m : Sip.Message} {w : World E}
    (hresponse : R w (w.emit (.response r m))) : R w (Act.after N (Act.sendResponse r m) w) :=
  h.bind hresponse (h.bind (h.ask _ _) (h.report _ _))

end Placid

end FileSharing
