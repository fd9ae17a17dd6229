import FileSharing.Proofs.Life
import FileSharing.Proofs.Steps

/-!
# What a session does

Whatever a session is asked for, one of a few things comes of it, and the life of
the session so far says which.  Here each of them is described as it happens
between two worlds: the steps that the session takes itself, and in between
stretches in which a control or the client may do as they please.

Two relations stand for what happens in such stretches: `R` for all of them but
one, and `L` for what happens while a listener of a session is being called.

## Main definitions

* `SessionMove` — what a session does on the side.
* `Ambient` — relations for what happens in between.
* `Calls`, `Fan` — a call of listeners, with what happens while they run.
* `Course` — what happens, for each thing that can come of an operation.

## Main results

* `Ambient.onTransfer` — **an operation on a transfer takes the course that its
  turn says.**
* `Ambient.bye` — so does a request to end its dialog.
-/

namespace FileSharing

variable {E : Environment}

/-! ### In between -/

/-- What a session does that neither ends it nor concerns its listeners. -/
inductive SessionMove (r : Ref) : World E → World E → Prop where
  /-- The dialog changes. -/
  | dialog (w : World E) (d : Option Sip.Dialog) :
    SessionMove r w (w.change (·.update r fun s => { s with dialog := d }))
  /-- A request is sent. -/
  | request (w : World E) (m : Sip.Message) : SessionMove r w (w.emit (.request r m))
  /-- A response is sent. -/
  | response (w : World E) (m : Sip.Message) : SessionMove r w (w.emit (.response (some r) m))
  /-- The media are closed. -/
  | media (w : World E) (id : Text) : SessionMove r w (w.emit (.mediaClosed id))
  /-- The control is called. -/
  | control (w : World E) (n : Nat) (call : ControlCall) :
    SessionMove r w (w.emit (.control r n call))
  /-- The call of the control has returned, and the transfer has not begun by it. -/
  | returned (w : World E) (n : Nat) (call : ControlCall) (succeeded : Bool)
    (h : ¬(call = .start ∧ succeeded = true)) :
    SessionMove r w (w.emit (.controlDone r n call succeeded))
  /-- The control has started the transfer. -/
  | begun (w : World E) (n : Nat) :
    SessionMove r w
      ((w.emit (.controlDone r n .start true)).change
        (·.updateTransfer r fun t => { t with begun := true }))
  /-- The file has been moved. -/
  | delivered (w : World E) :
    SessionMove r w (w.change (·.updateTransfer r fun t => { t with delivered := true }))
  /-- Another clock is to tell the time of a download. -/
  | setClock (w : World E) (c clock : Clock) (h : (w.stack.transfer r).role = .incoming c) :
    SessionMove r w (w.change (·.updateTransfer r fun t => { t with role := .incoming clock }))
  /-- A capability refresh is queued for the other party, who has ended the dialog. -/
  | refresh (w : World E) (c : Contact) :
    SessionMove r w
      ((w.change fun s => { s with refreshes := s.refreshes ++ [c] }).emit (.byeDone r c))

/-- A download stays one under another clock. -/
theorem Stack.terms_setClock {s : Stack} {r : Ref} {c : Clock}
    (h : (s.transfer r).role = .incoming c) (clock : Clock) :
    ∀ t ∈ (s.session r).transfer, { t with role := .incoming clock }.terms = t.terms := by
  intro t ht
  rw [transfer_eq_of_mem ht] at h
  simp [Transfer.terms, Role.isIncoming, h]

/-- Relations for what happens in between: `R` at all times, and `L` while a listener
is being called. -/
structure Ambient (N : Handler E) (R : World E → World E → Prop)
    (L : Ref → World E → World E → Prop) : Prop extends Placid N R where
  grows : ∀ {w w'}, R w w' → w.Grows w'
  /-- A session does something on the side. -/
  move : ∀ {r w w'}, SessionMove r w w' → R w w'
  heard : ∀ {r w w'}, L r w w' → w.Grows w'
  /-- A listener is being called. -/
  listener : ∀ r l c w, L r w (Act.after N (Act.play (E.listener l r c)) w)
  /-- The exception of a listener is logged. -/
  thrown : ∀ {r w w'} line, L r w w' → L r w (w'.emit (.log .error line))

/-- Listeners are called one after another for a session. -/
def Calls (L : World E → World E → Prop) (r : Ref) (contact : Contact) (c : Callback) :
    List Listener → World E → World E → Prop
  | [], w, w' => w' = w
  | l :: ls, w, w' =>
    ∃ w₁, L (w.emit (.callback r l contact c)) w₁ ∧ Calls L r contact c ls w₁ w'

/-- The listeners that a session has now are called. -/
def Fan (L : World E → World E → Prop) (r : Ref) (c : Callback) (w w' : World E) : Prop :=
  let ls := (w.stack.transfer r).listeners.members
  Calls L r (w.stack.session r).contact c ls (w.emit (.fanout r c ls)) w'

section Stays

variable {R L : World E → World E → Prop} {r : Ref} {c : Callback} {w w' : World E}

/-- What holds along a call, and while each listener runs, holds while listeners are
called one after another. -/
theorem Calls.stays (hrefl : ∀ w, R w w) (htrans : ∀ {w w₁ w₂}, R w w₁ → R w₁ w₂ → R w w₂)
    (hL : ∀ {w w'}, L w w' → R w w') {contact : Contact}
    (hcall : ∀ w l, R w (w.emit (.callback r l contact c))) {ls : List Listener}
    (h : Calls L r contact c ls w w') : R w w' := by
  induction ls generalizing w with
  | nil =>
    obtain rfl : w' = w := h
    exact hrefl _
  | cons l ls ih =>
    obtain ⟨w₁, h₁, h₂⟩ := h
    exact htrans (hcall w l) (htrans (hL h₁) (ih h₂))

theorem Fan.stays (hrefl : ∀ w, R w w) (htrans : ∀ {w w₁ w₂}, R w w₁ → R w₁ w₂ → R w w₂)
    (hL : ∀ {w w'}, L w w' → R w w') (hfan : ∀ w ls, R w (w.emit (.fanout r c ls)))
    (hcall : ∀ w l contact, R w (w.emit (.callback r l contact c))) (h : Fan L r c w w') :
    R w w' :=
  htrans (hfan w _) (Calls.stays hrefl htrans hL (fun w l => hcall w l _) h)

/-- Nothing is taken back while listeners are called. -/
theorem Calls.grows (hL : ∀ {w w'}, L w w' → w.Grows w') {contact : Contact} {ls : List Listener}
    (h : Calls L r contact c ls w w') : w.Grows w' :=
  Calls.stays .refl .trans hL (fun w _ => .emit w _) h

theorem Fan.grows (hL : ∀ {w w'}, L w w' → w.Grows w') (h : Fan L r c w w') : w.Grows w' :=
  Fan.stays .refl .trans hL (fun w _ => .emit w _) (fun w _ _ => .emit w _) h

end Stays

/-! ### Courses -/

/-- What happens between two worlds where a turn of a session is taken. -/
inductive Course (R L : World E → World E → Prop) (r : Ref) : Turn → World E → World E → Prop where
  /-- A line is logged first. -/
  | logged {w w'} {t : Turn} (level : Level) (line : Text)
    (h : Course R L r t (w.emit (.log level line)) w') : Course R L r t w w'
  /-- Nothing that listeners would notice. -/
  | nothing {w w'} (h : R w w') : Course R L r .nothing w w'
  /-- The listeners are told of an event. -/
  | tell {w w'} (c : Callback) (hi : (w.stack.session r).interrupted = false)
    (hc : c.isTerminal = false) (h : Fan L r c w w') : Course R L r (.tell c) w w'
  /-- Data begins to flow, and the listeners are told. -/
  | establish {w w'} (hi : (w.stack.session r).interrupted = false)
    (hp : (w.stack.transfer r).phase = .pending) (h : Fan L r .started (w.establishing r) w') :
    Course R L r .establish w w'
  /-- The end is claimed, the listeners are told, and the session leaves the registry. -/
  | finish {w w₁ w₂ w₃ w'} (e : Ending) (hi : (w.stack.session r).interrupted = false)
    (h₁ : R (w.claiming r e) w₁) (h₂ : Fan L r (e.callback (w₁.stack.transfer r)) w₁ w₂)
    (h₃ : R w₂ w₃) (h₄ : R (w₃.leaving r) w') : Course R L r (.finish e) w w'
  /-- The session is interrupted and leaves the registry. -/
  | close {w w₁ w'} (h₁ : R (w.interrupting r) w₁) (h₂ : R (w₁.leaving r) w') :
    Course R L r .close w w'
  /-- The time is read, and the file has not expired. -/
  | lasting {w w'} (client : E.State) (time : Int)
    (hi : (w.stack.session r).interrupted = false)
    (ht : (w.stack.transfer r).terms.expiredAt time = false)
    (h : R ((w.withClient client).emit (.clock r time)) w') : Course R L r .compare w w'
  /-- The time is read, and the file has expired, which ends the session. -/
  | expired {w w' w''} (client : E.State) (time : Int)
    (hi : (w.stack.session r).interrupted = false)
    (ht : (w.stack.transfer r).terms.expiredAt time = true)
    (h : Course R L r (.finish (.error .expired)) ((w.withClient client).emit (.clock r time)) w')
    (h' : R w' w'') : Course R L r .compare w w''
  /-- Someone begins to listen. -/
  | attach (w : World E) (l : Option Listener) :
    Course R L r (.attach l) w (w.change (·.updateTransfer r fun t =>
      { t with listeners := ((w.stack.transfer r).listeners.add l).2 }))
  /-- Someone no longer listens. -/
  | detach (w : World E) (l : Option Listener) :
    Course R L r (.detach l) w (w.change (·.updateTransfer r fun t =>
      { t with listeners := ((w.stack.transfer r).listeners.remove l).2 }))

/-- Nothing is taken back where a turn of a session is taken. -/
theorem Course.grows {R L : World E → World E → Prop} (hR : ∀ {w w'}, R w w' → w.Grows w')
    (hL : ∀ {w w'}, L w w' → w.Grows w') {r : Ref} {t : Turn} {w w' : World E}
    (h : Course R L r t w w') : w.Grows w' := by
  induction h with
  | logged level line _ ih => exact .trans (.emit _ _) ih
  | nothing h => exact hR h
  | tell c _ _ h => exact h.grows hL
  | establish _ _ h => exact (World.grows_establishing _ r).trans (h.grows hL)
  | finish e _ h₁ h₂ h₃ h₄ =>
    have hclaim := (World.grows_claiming _ r e).trans (hR h₁)
    have hleave := (hR h₃).trans ((World.grows_leaving _ r).trans (hR h₄))
    exact hclaim.trans ((h₂.grows hL).trans hleave)
  | close h₁ h₂ =>
    have hinterrupt := (World.grows_interrupting _ r).trans (hR h₁)
    exact hinterrupt.trans ((World.grows_leaving _ r).trans (hR h₂))
  | lasting client time _ _ h =>
    exact .trans (.withClient _ client) (.trans (.emit _ _) (hR h))
  | expired client time _ _ _ h' ih =>
    exact .trans (.withClient _ client) (.trans (.emit _ _) (ih.trans (hR h')))
  | attach w l => exact .updateTransfer w r fun _ => rfl
  | detach w l => exact .updateTransfer w r fun _ => rfl

namespace Ambient

open Act

variable {N : Handler E} {R : World E → World E → Prop} {L : Ref → World E → World E → Prop}
  {r : Ref}

/-! ### Listeners -/

theorem callAll (h : Ambient N R L) (contact : Contact) (c : Callback) (ls : List Listener)
    (w : World E) : Calls (L r) r contact c ls w (after N (Act.callAll r contact c ls) w) := by
  induction ls generalizing w with
  | nil => rfl
  | cons l ls ih =>
    simp only [Act.callAll, after_bind, after_emit]
    have hplay := h.listener r l c (w.emit (.callback r l contact c))
    -- an exception adds a line to what happened while the listener ran
    cases result N (Act.play (E.listener l r c)) (w.emit (.callback r l contact c)) with
    | none => exact ⟨_, hplay, ih _⟩
    | some message => exact ⟨_, h.thrown _ hplay, ih _⟩

theorem notify (h : Ambient N R L) (c : Callback) (w : World E) :
    Fan (L r) r c w (after N (Act.notify r c) w) :=
  h.callAll _ c _ _

/-! ### The dialog -/

theorem sendResponse (h : Ambient N R L) (m : Sip.Message) (w : World E) :
    R w (after N (Act.sendResponse (some r) m) w) :=
  h.toPlacid.sendResponse (h.move (.response w m))

theorem closeDialog (h : Ambient N R L) (reason : AbortReason) (w : World E) :
    R w (after N (Act.closeDialog r reason) w) :=
  h.toPlacid.closeDialog (fun w _ => h.move (.dialog w _)) (fun w m => h.move (.request w m)) _ _

theorem closeMedia (h : Ambient N R L) (w : World E) : R w (after N (Act.closeMedia r) w) := by
  unfold Act.closeMedia
  rw [after_session_bind]
  split
  · exact h.move (r := r) (.media w _)
  · exact h.refl _

/-- The line that is logged before a request to end a dialog is answered. -/
def byeLine (s : Session) : Text :=
  ascii "Receive BYE for session " ++ s.id ++ " from " ++ s.contact.value

/-- The answer to a request that ends a dialog interrupts the session, whether or
not it is interrupted already. -/
theorem answerBye (h : Ambient N R L) (request : Sip.Message) (w : World E) :
    R ((w.emit (.log .info (byeLine (w.stack.session r)))).interrupting r)
      (after N (Act.answerBye r request) w) := by
  unfold Act.answerBye
  rw [after_session_bind, after_bind, after_info, after_bind, after_interrupt]
  exact h.bind (h.closeMedia _) (h.bind (h.byeResponse _ _) (h.sendResponse _ _))

theorem answerBye_of_interrupted (h : Ambient N R L) (request : Sip.Message) {w : World E}
    (hi : (w.stack.session r).interrupted = true) :
    R w (after N (Act.answerBye r request) w) := by
  refine h.trans (h.log _ .info (byeLine (w.stack.session r))) ?_
  have hbye := h.answerBye (r := r) request w
  rwa [World.interrupting_of_interrupted (by exact hi)] at hbye

/-! ### Controls -/

theorem drive (h : Ambient N R L) (n : Nat) {call : ControlCall} (hcall : call ≠ .start)
    (w : World E) : R w (after N (Act.drive r n call) w) :=
  h.toPlacid.drive (h.move (.control w n call)) fun w b =>
    h.move (.returned w n call b fun hs => hcall hs.1)

theorem begin (h : Ambient N R L) (n : Nat) (w : World E) :
    R w (after N (Act.begin r n) w) := by
  have hcall := h.trans (h.move (r := r) (.control w n .start)) (h.called r n .start (w.emit _))
  -- the mark that the call has returned and the change of the transfer are one move
  rcases after_begin (N := N) r n w with hafter | hafter
  · rw [hafter]
    exact h.trans hcall (h.move (.returned _ n .start false fun hs => Bool.noConfusion hs.2))
  · rw [hafter]
    exact h.trans hcall (h.move (.begun _ n))

/-! ### Ends -/

/-- What comes of something that a session takes only until it has ended. -/
theorem unlessEnded {w w' : World E} {t : Turn}
    (hlate : (w.stack.session r).interrupted = true → R w w')
    (hlive : (w.stack.session r).interrupted = false → Course R (L r) r t w w') :
    Course R (L r) r ((w.stack.life r).unlessEnded t) w w' := by
  unfold Life.unlessEnded
  split
  · next hi => exact .nothing (hlate hi)
  · next hi => exact hlive (Bool.eq_false_iff.mpr hi)

theorem cancel (h : Ambient N R L) (w : World E) : R w (after N (Act.cancel r) w) := by
  unfold Act.cancel
  rw [after_transfer_bind]
  cases (w.stack.transfer r).control with
  | none => exact h.refl _
  | some n => exact h.bind (h.drive n (by decide) _) (h.warnOnFailure _ _ _)

/-- A session is interrupted from when its end is claimed. -/
theorem ended_after_claim (h : Ambient N R L) (e : Ending) {w w₁ : World E}
    (hr : r < w.stack.sessions.size) (h₁ : R (w.claiming r e) w₁) :
    (w₁.stack.session r).interrupted = true :=
  (h.grows h₁).interrupted (World.interrupted_interrupting hr)

/-- A session is closed in two steps: it is interrupted, and it leaves. -/
theorem close (h : Ambient N R L) (reason : AbortReason) (w : World E) :
    ∃ w₁, R (w.interrupting r) w₁ ∧ R (w₁.leaving r) (after N (Act.close r reason) w) := by
  unfold Act.close
  simp only [after_bind, after_interrupt, after_session, after_pure]
  refine ⟨_, ?_, h.leave r _⟩
  exact h.trans (h.closeDialog reason _) (h.warnOnFailure _ _ _)

/-- An interrupted session that is closed leaves. -/
theorem close_of_interrupted (h : Ambient N R L) (reason : AbortReason) {w : World E}
    (hi : (w.stack.session r).interrupted = true) :
    ∃ w₁, R w w₁ ∧ R (w₁.leaving r) (after N (Act.close r reason) w) := by
  have hclose := h.close (r := r) reason w
  rwa [World.interrupting_of_interrupted hi] at hclose

theorem abort (h : Ambient N R L) (reason : AbortReason) (w : World E)
    (hr : r < w.stack.sessions.size) :
    Course R (L r) r ((w.stack.life r).turn (.abort reason)) w
      (after N (Act.abort r reason) w) := by
  refine unlessEnded (fun hi => ?_) fun hi => ?_
  · rw [Act.abort, after_claim_late hi]
    exact h.log _ _ _
  · rw [Act.abort, after_claim_live hi]
    simp only [↓reduceIte, after_bind, after_session, after_info]
    generalize hw₁ : after N (Act.cancel r) _ = w₁
    have h₁ : R (w.claiming r (.abort reason)) w₁ :=
      hw₁ ▸ h.trans (h.log _ _ _) (h.cancel _)
    have h₂ := h.notify (r := r) (.aborted reason) w₁
    -- by now the session is interrupted, so all that closing it does is that it leaves
    have hended := (h₂.grows h.heard).interrupted (h.ended_after_claim (.abort reason) hr h₁)
    obtain ⟨w₃, h₃, h₄⟩ := h.close_of_interrupted reason hended
    exact .finish _ hi h₁ h₂ h₃ h₄

theorem fails_of_live (h : Ambient N R L) (e : TransferError) {w : World E}
    (hi : (w.stack.session r).interrupted = false) :
    Course R (L r) r (.finish (.error e)) w (after N (Act.fails r e) w) := by
  rw [Act.fails, after_claim_live hi]
  simp only [↓reduceIte, after_bind, after_info]
  exact .finish _ hi (h.log _ _ _) (h.notify _ _) (h.refl _) (h.leave _ _)

theorem fails (h : Ambient N R L) (e : TransferError) (w : World E) :
    Course R (L r) r ((w.stack.life r).unlessEnded (.finish (.error e))) w
      (after N (Act.fails r e) w) := by
  refine unlessEnded (fun hi => ?_) (h.fails_of_live e)
  rw [Act.fails, after_claim_late hi]
  exact h.log _ _ _

theorem delivered (h : Ambient N R L) (w : World E) :
    Course R (L r) r ((w.stack.life r).unlessEnded (.finish .delivery)) w
      (after N (Act.delivered r) w) := by
  refine unlessEnded (fun hi => ?_) fun hi => ?_
  · rw [Act.delivered, after_claim_late hi]
    exact h.log _ _ _
  · rw [Act.delivered, after_claim_live hi]
    simp only [↓reduceIte, after_bind, after_updateTransfer, after_session, after_info,
      after_transfer, result_transfer]
    refine .finish _ hi ?_ (h.notify _ _) (h.refl _) (h.leave _ _)
    -- the file is moved after the claim, so the listeners are told where it is
    exact h.trans (h.move (.delivered _)) (h.log _ _ _)

/-- A request to end the dialog of a transfer. -/
theorem bye (h : Ambient N R L) (request : Sip.Message) (w : World E)
    (hr : w.stack.isTransfer r = true) :
    Course R (L r) r (w.stack.life r).byeTurn w (after N (Act.bye r request) w) := by
  have hsize := Stack.lt_size_of_isTransfer hr
  rw [Stack.isTransfer_eq] at hr
  rw [Act.bye, after_session_bind, if_pos hr]
  refine unlessEnded (fun hi => ?_) fun hi => ?_
  · rw [Act.endByBye, after_claim_late hi]
    exact h.trans (h.log _ _ _) (h.answerBye_of_interrupted request hi)
  · rw [Act.endByBye, after_claim_live hi]
    simp only [↓reduceIte, after_bind, after_session, result_session, after_emit]
    generalize hw₁ : after N (Act.warnOnFailure _ _) _ = w₁
    -- the answer would interrupt the session, but the claim has done so already
    have h₁ : R (w.claiming r .bye) w₁ :=
      hw₁ ▸ h.trans (h.answerBye_of_interrupted request (World.interrupted_interrupting hsize))
        (h.warnOnFailure _ _ _)
    have h₂ := h.notify (r := r) (.aborted .byRemote) w₁
    refine .finish _ hi h₁ h₂ (h.refl _) (h.trans (h.leave r _) ?_)
    exact h.move (r := r) (.refresh _ _)

/-! ### Events of the engine -/

theorem started (h : Ambient N R L) (w : World E) :
    Course R (L r) r ((w.stack.life r).turn (.engine .started)) w (after N (Act.started r) w) := by
  refine unlessEnded (fun hi => ?_) fun hi => ?_
  · rw [Act.started, after_accepts_late hi]
    exact h.log _ _ _
  · rw [Act.started, after_accepts_live hi]
    simp only [↓reduceIte]
    rw [after_session_bind, after_transfer_bind]
    by_cases hp : (w.stack.transfer r).phase = .established
    · rw [Stack.life_phase, if_pos hp, if_pos hp]
      exact .nothing (h.log _ _ _)
    · rw [Stack.life_phase, if_neg hp, if_neg hp]
      have hpending : (w.stack.transfer r).phase = .pending := by
        cases hphase : (w.stack.transfer r).phase with
        | pending => rfl
        | established => exact absurd hphase hp
      exact .establish hi hpending (h.notify _ _)

theorem relay (h : Ambient N R L) (what : Text) {c : Callback} (hc : c.isTerminal = false)
    (w : World E) :
    Course R (L r) r ((w.stack.life r).unlessEnded (.tell c)) w
      (after N (Act.relay r what c) w) := by
  refine unlessEnded (fun hi => ?_) fun hi => ?_
  · rw [Act.relay, after_accepts_late hi]
    exact h.log _ _ _
  · rw [Act.relay, after_accepts_live hi]
    simp only [↓reduceIte]
    exact .tell c hi hc (h.notify _ _)

theorem handle (h : Ambient N R L) (event : EngineEvent) (w : World E) :
    Course R (L r) r ((w.stack.life r).turn (.engine event)) w
      (after N (Act.handle r event) w) := by
  cases event with
  | started => exact h.started w
  | progress current total => exact h.relay _ rfl w
  | pausedByUser => exact h.relay _ rfl w
  | pausedBySystem => exact h.relay _ rfl w
  | resumed => exact h.relay _ rfl w
  | notAllowed => exact h.relay _ rfl w
  | transferred => exact h.delivered w
  | failed e => exact h.fails e w

/-! ### Expiry -/

/-- A file that cannot expire has not expired. -/
theorem after_isExpired_of_not {w : World E} {α : Type} (f : Bool → Act E α)
    (ht : (w.stack.transfer r).terms.canExpire = false) :
    after N (Act.isExpired r >>= f) w = after N (f false) w := by
  unfold Act.isExpired
  cases hrole : (w.stack.transfer r).role with
  | generic => simp [hrole]
  | outgoing => simp [hrole]
  | incoming clock =>
    have hexpiry : (w.stack.transfer r).fileExpiry ≤ 0 := by
      simpa [Terms.canExpire, Transfer.terms, Role.isIncoming, hrole] using ht
    simp [hrole, hexpiry]

/-- Whether another file has expired is up to the clock. -/
theorem after_isExpired {w : World E} {α : Type} (f : Bool → Act E α)
    (ht : (w.stack.transfer r).terms.canExpire = true) :
    ∃ client time, after N (Act.isExpired r >>= f) w
      = after N (f ((w.stack.transfer r).terms.expiredAt time))
        ((w.withClient client).emit (.clock r time)) := by
  unfold Act.isExpired
  cases hrole : (w.stack.transfer r).role with
  | generic => simp [Terms.canExpire, Transfer.terms, Role.isIncoming, hrole] at ht
  | outgoing => simp [Terms.canExpire, Transfer.terms, Role.isIncoming, hrole] at ht
  | incoming clock =>
    have hexpiry : ¬(w.stack.transfer r).fileExpiry ≤ 0 := by
      simpa [Terms.canExpire, Transfer.terms, Role.isIncoming, hrole] using ht
    refine ⟨(E.now clock w.client).2, (E.now clock w.client).1, ?_⟩
    simp [hrole, hexpiry]
    rfl

/-- A request that a download refuses once its file has expired, and otherwise does
nothing that listeners would notice. -/
theorem checked (h : Ambient N R L) {a : Act E (Outcome Unit)} (ha : ∀ w, R w (after N a w))
    {w : World E} (hi : (w.stack.session r).interrupted = false) :
    Course R (L r) r (w.stack.life r).checked w
      (after N (do if ← Act.isExpired r then Act.failExpired r else a) w) := by
  unfold Life.checked
  rw [Stack.life_terms]
  split
  · next ht =>
    rw [Life.unlessEnded_of_live hi]
    obtain ⟨client, time, hafter⟩ := after_isExpired (N := N)
      (fun b => if b then Act.failExpired r else a) ht
    rw [hafter]
    -- the clock is read once, and what it says decides between the two courses
    cases hexpired : (w.stack.transfer r).terms.expiredAt time with
    | false => exact .lasting client time hi hexpired (ha _)
    | true =>
      refine .expired client time hi hexpired (.logged _ _ (h.fails_of_live _ ?_)) (h.log _ _ _)
      exact hi
  · next ht =>
    rw [after_isExpired_of_not _ (Bool.eq_false_iff.mpr ht)]
    exact .nothing (ha w)

/-! ### Requests -/

theorem startUpload (h : Ambient N R L) (w : World E) :
    R w (after N (Act.startUpload r) w) := by
  rw [Act.startUpload, after_session_bind, after_transfer_bind]
  split
  · exact h.fail _ _ _
  · split
    · exact h.fail _ _ _
    · split
      · exact h.fail _ _ _
      · exact h.bind (h.info _ _) (h.begin _ _)

theorem accept (h : Ambient N R L) (w : World E) :
    Course R (L r) r ((w.stack.life r).turn .accept) w (after N (Act.accept r) w) := by
  rw [Act.accept, after_session_bind, after_transfer_bind, Life.turn]
  by_cases hi : (w.stack.session r).interrupted = true
  · -- an ended invitation is refused, whether or not its transfer was begun
    rw [if_pos hi, Life.checked_of_ended hi, ite_self]
    exact .nothing (h.fail _ _ _)
  · rw [if_neg hi, Stack.life_begun]
    by_cases hb : (w.stack.transfer r).begun = true
    · rw [if_pos hb, if_pos hb]
      exact .nothing (h.fail _ _ _)
    · rw [if_neg hb, if_neg hb]
      refine h.checked (fun w' => ?_) (Bool.eq_false_iff.mpr hi)
      split
      · exact h.fail _ _ _
      · exact h.bind (h.info _ _) (h.begin _ _)

theorem passOn (h : Ambient N R L) (title verb : Text) {call : ControlCall}
    (hcall : call ≠ .start) (w : World E) :
    R w (after N (Act.passOn r title verb call) w) := by
  rw [Act.passOn, after_session_bind, after_transfer_bind]
  split
  · split
    · exact h.refl _
    · exact h.drive _ hcall _
  · refine h.bind (h.info _ _) ?_
    split
    · exact h.fail _ _ _
    · exact h.drive _ hcall _

theorem pause (h : Ambient N R L) (w : World E) : R w (after N (Act.pause r) w) := by
  rw [Act.pause, after_session_bind, after_transfer_bind]
  split
  · exact h.fail _ _ _
  · split
    · exact h.fail _ _ _
    · exact h.passOn _ _ (by decide) _

theorem resume (h : Ambient N R L) (w : World E) :
    Course R (L r) r ((w.stack.life r).turn .resume) w (after N (Act.resume r) w) := by
  rw [Act.resume, after_session_bind, after_transfer_bind, Life.turn]
  by_cases hi : (w.stack.session r).interrupted = true
  · rw [if_pos hi, Life.checked_of_ended hi, ite_self]
    exact .nothing (h.fail _ _ _)
  · rw [if_neg hi, Stack.life_phase]
    by_cases hp : (w.stack.transfer r).phase = .established
    · rw [if_neg (not_not_intro hp), if_pos hp]
      exact h.checked (h.passOn _ _ (by decide)) (Bool.eq_false_iff.mpr hi)
    · rw [if_pos hp, if_neg hp]
      exact .nothing (h.fail _ _ _)

theorem reject (h : Ambient N R L) (w : World E) (hr : r < w.stack.sessions.size) :
    Course R (L r) r ((w.stack.life r).unlessEnded (.finish (.abort .byUser))) w
      (after N (Act.reject r) w) := by
  have habort := fun line => h.abort (r := r) .byUser (w.emit (.log .info line)) hr
  rw [Act.reject, after_session_bind, after_bind]
  exact .logged .info _ (habort _)

/-- **An operation on a transfer takes the course that its turn says.** -/
theorem onTransfer (h : Ambient N R L) (op : TransferOp) (w : World E)
    (hr : w.stack.isTransfer r = true) :
    Course R (L r) r ((w.stack.life r).turn op) w (after N (Act.onTransfer r op) w) := by
  cases op with
  | addListener l => exact .attach w l
  | removeListener l => exact .detach w l
  | setClock clock =>
    rw [Act.onTransfer, after_transfer_bind]
    cases hrole : (w.stack.transfer r).role with
    | incoming c => exact .nothing (h.move (.setClock w c clock hrole))
    | _ => exact .nothing (h.refl w)
  | engine event => exact h.handle event w
  | start =>
    rw [Act.onTransfer, after_transfer_bind]
    cases (w.stack.transfer r).role with
    | outgoing => exact .nothing (h.startUpload w)
    | _ => exact .nothing (h.refl w)
  | accept =>
    rw [Act.onTransfer, after_transfer_bind]
    cases hrole : (w.stack.transfer r).role with
    | incoming c => exact h.accept w
    | _ =>
      have hturn : (w.stack.life r).turn .accept = .nothing := by
        simp [Life.turn, Life.checked, Terms.canExpire, Transfer.terms, Role.isIncoming, hrole]
      exact hturn ▸ .nothing (h.refl w)
  | reject =>
    rw [Act.onTransfer, after_transfer_bind, Life.turn, Stack.life_terms]
    cases hrole : (w.stack.transfer r).role with
    | incoming c =>
      rw [if_pos (by simp [Transfer.terms, Role.isIncoming, hrole])]
      exact h.reject w (Stack.lt_size_of_isTransfer hr)
    | _ =>
      rw [if_neg (by simp [Transfer.terms, Role.isIncoming, hrole])]
      exact .nothing (h.refl w)
  | pause => exact .nothing (h.pause w)
  | resume => exact h.resume w
  | abort reason => exact h.abort reason w (Stack.lt_size_of_isTransfer hr)
  | close reason =>
    obtain ⟨w₁, h₁, h₂⟩ := h.close (r := r) reason w
    exact .close h₁ h₂

end Ambient

end FileSharing
