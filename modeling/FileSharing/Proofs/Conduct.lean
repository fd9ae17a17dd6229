import FileSharing.Proofs.Course
import FileSharing.Proofs.Rules

/-!
# How sessions conduct themselves

A session decides by a few of its marks what it does for its dialog, for the control
of its transfer and for the other party's contact.  Whatever else it does, and
whatever the services do, is idle in this respect.  Here the code of a session is read
once with regard to these decisions: where each of them is taken, under which
condition, and which of them leave something to be done later.

A relation between worlds may therefore come with a second one that holds while a
session still has something to do.  Callbacks may run in between.

## Main definitions

* `Posture`, `World.Idles` — what sessions decide by, and what does not concern it.
* `JustAsked`, `JustGivenUp`, `InTime` — what has to have happened just before.
* `World.Permits` — under which conditions a session calls the control of its transfer.
* `Duty` — what a session has still to do.
* `Conduct` — that a relation holds along all that sessions decide to do.

## Main results

* `Conduct.onTransfer`, `Conduct.bye` — an operation on a transfer stays in the relation,
  and so does a request to end its dialog.
* `Conduct.rules` — **a relation that holds along the conduct of sessions obeys the
  rules.**
-/

namespace FileSharing

variable {E : Environment}

/-! ### What sessions decide by -/

/-- What a session decides by. -/
structure Posture where
  /-- Its dialog. -/
  dialog : Option Sip.Dialog
  /-- Whether its teardown is under way. -/
  interrupted : Bool
  /-- Whether data has begun to flow. -/
  phase : Phase
  /-- Whether the transfer was begun. -/
  begun : Bool

/-- What a session goes by now. -/
def Session.posture (x : Session) : Posture :=
  let t := x.transfer.getD default
  ⟨x.dialog, x.interrupted, t.phase, t.begun⟩

/-- What the session with a name goes by now. -/
def Stack.posture (s : Stack) (r : Ref) : Posture := (s.session r).posture

namespace Stack

variable (s : Stack) (r : Ref)

@[simp] theorem posture_dialog : (s.posture r).dialog = (s.session r).dialog := rfl

@[simp] theorem posture_interrupted :
    (s.posture r).interrupted = (s.session r).interrupted := rfl

@[simp] theorem posture_phase : (s.posture r).phase = (s.transfer r).phase := rfl

@[simp] theorem posture_begun : (s.posture r).begun = (s.transfer r).begun := rfl

end Stack

theorem Session.posture_updateTransfer (x : Session) {f : Transfer → Transfer}
    (h : ∀ t, (f t).phase = t.phase ∧ (f t).begun = t.begun) :
    { x with transfer := x.transfer.map f }.posture = x.posture := by
  rw [posture, posture]
  cases x.transfer with
  | none => rfl
  | some t =>
    show Posture.mk x.dialog x.interrupted (f t).phase (f t).begun = _
    rw [(h t).1, (h t).2]
    rfl

/-- Whether an event has nothing to do with what sessions decide. -/
def Event.IsMinor {ν : Type} : Event ν → Prop
  | .log _ _ | .fanout _ _ _ | .callback _ _ _ _ | .transfer _ _ _ _ _ | .clock _ _
  | .response _ _ | .markRead _ | .removed _ | .mediaClosed _ | .registered _ _ | .note _ => True
  | .asked _ | .control _ _ _ | .request _ _ | .capabilities _ | .controlDone _ _ _ _
  | .established _ | .interrupted _ | .claimed _ _ | .byeDone _ _ => False

theorem Event.OfMaking.isMinor {ν : Type} {r : Ref} {e : Event ν} (he : e.OfMaking r) :
    e.IsMinor := by
  cases e with
  | log level line => trivial
  | transfer q number movement content icon => trivial
  | _ => exact absurd he not_false

/-- Between two worlds no session has decided anything. -/
structure World.Idles (w w' : World E) : Prop where
  grows : w.Grows w'
  posture : ∀ r, w'.stack.posture r = w.stack.posture r
  /-- The same refreshes wait. -/
  refreshes : w'.stack.refreshes = w.stack.refreshes
  trace : ∃ T, w'.trace = w.trace ++ T ∧ ∀ e ∈ T, e.IsMinor

namespace World.Idles

variable {w w₁ w₂ : World E} {r : Ref}

theorem refl (w : World E) : w.Idles w := ⟨.refl w, fun _ => rfl, rfl, [], by simp, by simp⟩

theorem trans (h : w.Idles w₁) (h' : w₁.Idles w₂) : w.Idles w₂ := by
  obtain ⟨T, hT, hminor⟩ := h.trace
  obtain ⟨T', hT', hminor'⟩ := h'.trace
  refine ⟨h.grows.trans h'.grows, fun r => (h'.posture r).trans (h.posture r),
    h'.refreshes.trans h.refreshes, T ++ T', by simp [hT, hT'], ?_⟩
  intro e he
  exact (List.mem_append.mp he).elim (hminor e) (hminor' e)

theorem emit (w : World E) {e : Event E.Note} (he : e.IsMinor) : w.Idles (w.emit e) :=
  ⟨.emit w e, fun _ => rfl, rfl, [e], rfl, by simpa using he⟩

theorem emitted (h : w.Idles w₁) {e : Event E.Note} (he : e.IsMinor) : w.Idles (w₁.emit e) :=
  h.trans (emit w₁ he)

theorem withClient (w : World E) (c : E.State) : w.Idles (w.withClient c) :=
  ⟨.withClient w c, fun _ => rfl, rfl, [], by simp, by simp⟩

/-- A change of anything but the sessions and the refreshes. -/
theorem change (w : World E) {f : Stack → Stack} (h : (f w.stack).sessions = w.stack.sessions)
    (hr : (f w.stack).refreshes = w.stack.refreshes) : w.Idles (w.change f) :=
  ⟨.change w h, fun r => by simp [Stack.posture, Stack.session, h], hr, [], by simp, by simp⟩

/-- A change of a session that it does not decide by. -/
theorem update (w : World E) (r : Ref) {f : Session → Session}
    (hages : (w.stack.session r).Ages (f (w.stack.session r)))
    (hposture : ∀ x, (f x).posture = x.posture) : w.Idles (w.change (·.update r f)) :=
  ⟨.update w r hages, fun _ => Stack.apply_session_update Session.posture hposture, rfl, [],
    by simp, by simp⟩

/-- A change of a file part that the session does not decide by. -/
theorem updateTransfer (w : World E) (r : Ref) {f : Transfer → Transfer}
    (hterms : ∀ t ∈ (w.stack.session r).transfer, (f t).terms = t.terms)
    (h : ∀ t, (f t).phase = t.phase ∧ (f t).begun = t.begun) :
    w.Idles (w.change (·.updateTransfer r f)) :=
  update w r (.ofTransfer _ hterms) fun x => x.posture_updateTransfer h

theorem dismissing (w : World E) (id : Text) : w.Idles (w.dismissing id) := by
  unfold World.dismissing
  split
  · dsimp only
    split
    · exact emitted (emitted (change w rfl rfl) (by trivial)) (by trivial)
    · exact emitted (change w rfl rfl) (by trivial)
  · exact refl w

theorem leaving (w : World E) (r : Ref) : w.Idles (w.leaving r) := by
  unfold World.leaving
  split
  · exact refl w
  · refine trans (update w r ?_ ?_) (dismissing _ _)
    · exact .leave _
    · exact fun _ => rfl

theorem enrolling (w : World E) (r : Ref) : w.Idles (w.enrolling r) :=
  emitted (emitted (change w rfl rfl) (by trivial)) (by trivial)

variable {N : Handler E}

/-- A program that does not use the stack leaves sessions to themselves. -/
theorem play {α : Type} {p : Program E.State E.Note α} (hp : p.Asks fun _ => False)
    (w : World E) : w.Idles (Act.after N (Act.play p) w) :=
  after_play_of_asks hp refl trans (fun w _ => emit w (by trivial)) withClient
    (fun _ _ h => absurd h not_false) w

/-- So does a control that does not use it when it is called. -/
theorem called {r : Ref} {n : Nat} {call : ControlCall}
    (h : (E.control r n call).Asks fun _ => False) (w : World E) :
    w.Idles (Act.after N (Act.called r n call) w) := by
  rw [Act.called, Act.after_bind]
  refine trans (play (N := N) h w) ?_
  cases Act.result N (Act.play (E.control r n call)) w with
  | none => exact refl _
  | some f => exact emit _ (e := .log .debug f.logLine) trivial

end World.Idles

/-- A relation that holds where no session decides anything is steady. -/
theorem Steady.ofIdles {N : Handler E} {R : World E → World E → Prop}
    (hidle : ∀ {w w'}, w.Idles w' → R w w') (htrans : ∀ {w w₁ w₂}, R w w₁ → R w₁ w₂ → R w w₂)
    (hN : ∀ w op, R w ((N op).run w).2) : Steady N R where
  refl w := hidle (.refl w)
  trans := htrans
  log w level line := hidle (.emit w (e := .log level line) trivial)
  note w n := hidle (.emit w (e := .note n) trivial)
  client w c := hidle (.withClient w c)
  nested := hN

/-! ### What a trace says -/

section Traces

variable {α β : Type} (f : α → Option β) {T T' : List α}

theorem filterMap_concat (T : List α) (e : α) :
    (T ++ [e]).filterMap f = T.filterMap f ++ (f e).toList := by
  rw [List.filterMap_append]
  cases h : f e with
  | none => simp [h]
  | some x => simp [h]

variable {f} in
theorem filterMap_append_of_none (h : ∀ e ∈ T', f e = none) :
    (T ++ T').filterMap f = T.filterMap f := by
  rw [List.filterMap_append, List.filterMap_eq_nil_iff.mpr h, List.append_nil]

end Traces

/-! ### What has just happened -/

section JustBefore

variable {ν : Type}

/-- Whether an event is a line in the log. -/
def Event.IsLog : Event ν → Prop
  | .log _ _ => True
  | _ => False

/-- Something was asked of a transfer, and since then only lines were logged. -/
def JustAsked (r : Ref) (op : TransferOp) (T : List (Event ν)) : Prop :=
  ∃ A L, T = A ++ .asked (.transfer r op) :: L ∧ ∀ e ∈ L, e.IsLog

/-- Whether an operation gives a transfer up for a reason. -/
def TransferOp.GivesUp (reason : AbortReason) : TransferOp → Prop
  | .abort reason' => reason' = reason
  | .reject => reason = .byUser
  | _ => False

/-- A transfer was given up: it has just been asked for, and has interrupted the session
by its claim. -/
def JustGivenUp (r : Ref) (T : List (Event ν)) : Prop :=
  ∃ A op reason a b, JustAsked r op A ∧ op.GivesUp reason ∧ a.IsLog ∧ b.IsLog ∧
    T = A ++ [.interrupted r, a, .claimed r (.abort reason), b]

/-- If the file can expire, the clock has just been read, and the file has not expired. -/
def InTime (r : Ref) (t : Terms) (T : List (Event ν)) : Prop :=
  t.canExpire = true →
    ∃ A time L, T = A ++ .clock r time :: L ∧ (∀ e ∈ L, e.IsLog) ∧ t.expiredAt time = false

theorem JustAsked.refl (r : Ref) (op : TransferOp) (T : List (Event ν)) :
    JustAsked r op (T ++ [.asked (.transfer r op)]) :=
  ⟨T, [], rfl, by simp⟩

theorem JustAsked.log {r : Ref} {op : TransferOp} {T : List (Event ν)} (h : JustAsked r op T)
    (level : Level) (line : Text) : JustAsked r op (T ++ [.log level line]) := by
  obtain ⟨A, L, rfl, hlog⟩ := h
  refine ⟨A, L ++ [.log level line], by simp, ?_⟩
  intro e he
  rcases List.mem_append.mp he with he | he
  · exact hlog e he
  · rw [List.mem_singleton.mp he]
    trivial

theorem InTime.log {r : Ref} {t : Terms} {T : List (Event ν)} (h : InTime r t T)
    (level : Level) (line : Text) : InTime r t (T ++ [.log level line]) := by
  intro ht
  obtain ⟨A, time, L, rfl, hlog, hexpired⟩ := h ht
  refine ⟨A, time, L ++ [.log level line], by simp, ?_, hexpired⟩
  intro e he
  rcases List.mem_append.mp he with he | he
  · exact hlog e he
  · rw [List.mem_singleton.mp he]
    trivial

end JustBefore

/-- The trace once a session has been interrupted. -/
theorem World.trace_interrupting {w : World E} {r : Ref}
    (hi : (w.stack.session r).interrupted = false) :
    ∃ line, (w.interrupting r).trace = w.trace ++ [.interrupted r, .log .debug line] := by
  refine ⟨ascii "Session " ++ (w.stack.session r).id ++ " interrupted", ?_⟩
  rw [interrupting, if_neg (by simp [hi])]
  simp

/-- A transfer that is given up has just been so once its claim is logged. -/
theorem JustAsked.claiming {w : World E} {r : Ref} {op : TransferOp} {reason : AbortReason}
    (h : JustAsked r op w.trace) (hop : op.GivesUp reason)
    (hi : (w.stack.session r).interrupted = false) (line : Text) :
    JustGivenUp r ((w.claiming r (.abort reason)).emit (.log .info line)).trace := by
  obtain ⟨line', htrace⟩ := World.trace_interrupting hi
  refine ⟨w.trace, op, reason, .log .debug line', .log .info line, h, hop, trivial, trivial, ?_⟩
  rw [World.emit_trace, World.claiming, World.emit_trace, htrace]
  simp

/-- The conditions under which a session calls the control of its transfer. -/
def World.Permits (w : World E) (r : Ref) : ControlCall → Prop
  | .start => (w.stack.session r).interrupted = false ∧ (w.stack.transfer r).begun = false ∧
      InTime r (w.stack.transfer r).terms w.trace
  | .pause => (w.stack.session r).interrupted = false ∧
      (w.stack.transfer r).phase = .established
  | .resume => (w.stack.session r).interrupted = false ∧
      (w.stack.transfer r).phase = .established ∧
      InTime r (w.stack.transfer r).terms w.trace
  | .cancel => JustGivenUp r w.trace

/-! ### What sessions decide to do -/

/-- What a session has still to do. -/
inductive Duty where
  /-- Nothing. -/
  | nothing
  /-- To end its dialog, unless the other party has done so. -/
  | hangUp (reason : AbortReason)
  /-- To have the other party's capabilities asked for. -/
  | refresh

/-- What remains to be done once an end is claimed. -/
def Ending.duty : Ending → Duty
  | .abort reason => .hangUp reason
  | .bye => .refresh
  | .error _ | .delivery => .nothing

/-- Whether an operation closes a transfer. -/
def Op.Closes (s : Stack) : Op → Prop
  | .transfer r (.close _) => s.isTransfer r = true
  | _ => False

/-- What concerns no file transfer closes none. -/
theorem Op.not_closes_of_isAside {s : Stack} {op : Op} (h : op.IsAside s) :
    ¬op.Closes s := by
  cases op with
  | transfer r op =>
    cases op with
    | close reason => exact fun hr => absurd (hr.symm.trans h) (by decide)
    | _ => exact not_false
  | _ => exact not_false

/-- A relation between worlds holds along all that sessions decide to do; `O` is what
holds while a session has still to do something. -/
structure Conduct (N : Handler E) (R : World E → World E → Prop)
    (O : Ref → Duty → World E → World E → Prop) : Prop extends Steady N R where
  grows : ∀ {w w'}, R w w' → w.Grows w'
  idle : ∀ {w w'}, w.Idles w' → R w w'
  /-- The first refresh that waits is run. -/
  capabilities : ∀ {w : World E} {c cs}, w.stack.refreshes = c :: cs →
    R w ((w.change fun s => { s with refreshes := cs }).emit (.capabilities c))
  /-- Something is asked for, except that a transfer be closed. -/
  asked : ∀ op {w}, ¬op.Closes w.stack → R w (w.emit (.asked op))
  /-- A session is given a dialog. -/
  dialog : ∀ r d w, R w ((w.emit (.asked (.session r (.setDialog d)))).change
    (·.update r fun s => { s with dialog := some d }))
  interrupts : ∀ {r w}, r < w.stack.sessions.size →
    (w.stack.session r).interrupted = false → R w (w.interrupting r)
  /-- Data begins to flow, as the engine has just reported. -/
  establishes : ∀ {r w}, w.stack.isTransfer r = true → (w.stack.session r).interrupted = false →
    (w.stack.transfer r).phase = .pending → JustAsked r (.engine .started) w.trace →
    R w (w.establishing r)
  /-- The control is started. -/
  begins : ∀ {r n w}, w.stack.isTransfer r = true → w.Permits r .start →
    R w (Act.after N (Act.begin r n) w)
  /-- The control is called for something else. -/
  drives : ∀ {r n call w}, w.stack.isTransfer r = true → call ≠ .start → w.Permits r call →
    R w (Act.after N (Act.drive r n call) w)
  /-- An end is claimed. -/
  claims : ∀ {r e w}, w.stack.isTransfer r = true → (w.stack.session r).interrupted = false →
    O r e.duty w (w.claiming r e)
  /-- A transfer is to be closed. -/
  closes : ∀ {r reason w}, w.stack.isTransfer r = true →
    O r (.hangUp reason) w (w.emit (.asked (.transfer r (.close reason))))
  /-- Something happens while a session has still to do something. -/
  later : ∀ {r d w w₁ w₂}, O r d w w₁ → R w₁ w₂ → O r d w w₂
  done : ∀ {r w w'}, O r .nothing w w' → R w w'
  /-- A session that has to ends its dialog. -/
  hangsUp : ∀ {r reason w w'}, w'.stack.isTransfer r = true → O r (.hangUp reason) w w' →
    R w (Act.after N (Act.closeDialog r reason) w')
  /-- A plain session ends its dialog. -/
  hangsUpPlain : ∀ {r reason w}, r < w.stack.sessions.size → w.stack.isTransfer r = false →
    R w (Act.after N (Act.closeDialog r reason) w)
  /-- A refresh is queued once a session has left. -/
  refreshes : ∀ {r w w'}, w'.stack.isTransfer r = true →
    (w'.stack.session r).interrupted = true → (w'.stack.session r).removed = true →
    O r .refresh w w' →
    R w ((w'.change fun s =>
      { s with refreshes := s.refreshes ++ [(w'.stack.session r).contact] }).emit
        (.byeDone r (w'.stack.session r).contact))
  /-- A session is made. -/
  makes : ∀ {r file w w'}, w.Made r file w' → R w w'

/-! ### What sessions do -/

namespace Conduct

open Act

variable {N : Handler E} {R : World E → World E → Prop}
  {O : Ref → Duty → World E → World E → Prop} {r : Ref}

theorem interrupt (h : Conduct N R O) {w : World E} (hr : r < w.stack.sessions.size) :
    R w (w.interrupting r) := by
  cases hi : (w.stack.session r).interrupted with
  | true =>
    rw [World.interrupting_of_interrupted hi]
    exact h.refl w
  | false => exact h.interrupts hr hi

theorem leave (h : Conduct N R O) (r : Ref) (w : World E) : R w (after N (Act.leave r) w) :=
  h.trans (h.idle (.leaving w r)) (h.toSteady.leave r w)

theorem callAll (h : Conduct N R O) (contact : Contact) (c : Callback) (ls : List Listener)
    (w : World E) : R w (after N (Act.callAll r contact c ls) w) := by
  induction ls generalizing w with
  | nil => exact h.refl w
  | cons l ls ih =>
    simp only [Act.callAll, after_bind, after_emit]
    have hplay := h.trans (h.idle (.emit w (e := .callback r l contact c) trivial))
      (h.play (E.listener l r c) _)
    cases result N (Act.play (E.listener l r c)) (w.emit (.callback r l contact c)) with
    | none => exact h.trans hplay (ih _)
    | some message => exact h.trans hplay (h.trans (h.log _ _ _) (ih _))

theorem notify (h : Conduct N R O) (c : Callback) (w : World E) :
    R w (after N (Act.notify r c) w) :=
  h.trans (h.idle (.emit w (by trivial))) (h.callAll _ _ _ _)

/-! ### Answers -/

theorem closeMedia (h : Conduct N R O) (w : World E) : R w (after N (Act.closeMedia r) w) := by
  rw [Act.closeMedia, after_session_bind]
  split
  · exact h.idle (.emit w (by trivial))
  · exact h.refl w

theorem sendResponse (h : Conduct N R O) (r : Option Ref) (m : Sip.Message) (w : World E) :
    R w (after N (Act.sendResponse r m) w) :=
  h.toSteady.sendResponse (h.idle (.emit w (by trivial)))

theorem answerBye (h : Conduct N R O) (request : Sip.Message) {w : World E}
    (hr : r < w.stack.sessions.size) : R w (after N (Act.answerBye r request) w) := by
  rw [Act.answerBye, after_session_bind]
  refine h.bind (h.info _ _) ?_
  rw [after_bind, after_interrupt]
  refine h.trans (h.interrupt hr) ?_
  exact h.bind (h.closeMedia _) (h.bind (h.byeResponse _ _) (h.sendResponse _ _ _))

/-! ### Ends -/

/-- A transfer that has to hang up is closed. -/
theorem close (h : Conduct N R O) {reason : AbortReason} {w₀ w : World E}
    (hr : w.stack.isTransfer r = true) (hduty : O r (.hangUp reason) w₀ w) :
    R w₀ (after N (Act.close r reason) w) := by
  have hinterrupt := h.interrupt (Stack.lt_size_of_isTransfer hr)
  have hclosed := h.hangsUp ((h.grows hinterrupt).isTransfer hr) (h.later hduty hinterrupt)
  rw [Act.close, after_bind, after_interrupt]
  refine h.trans hclosed ?_
  simp only [after_bind, after_session, after_pure]
  exact h.trans (h.warnOnFailure _ _ _) (h.leave r _)

theorem cancel (h : Conduct N R O) {w : World E} (hr : w.stack.isTransfer r = true)
    (hgiven : JustGivenUp r w.trace) : R w (after N (Act.cancel r) w) := by
  rw [Act.cancel, after_transfer_bind]
  cases (w.stack.transfer r).control with
  | none => exact h.refl _
  | some n => exact h.bind (h.drives hr (by decide) hgiven) (h.warnOnFailure _ _ _)

theorem abort (h : Conduct N R O) {op : TransferOp} (reason : AbortReason) {w : World E}
    (hr : w.stack.isTransfer r = true) (hasked : JustAsked r op w.trace)
    (hop : op.GivesUp reason) : R w (after N (Act.abort r reason) w) := by
  rw [Act.abort]
  cases hi : (w.stack.session r).interrupted with
  | true =>
    rw [after_claim_late hi]
    exact h.log _ _ _
  | false =>
    rw [after_claim_live hi]
    simp only [↓reduceIte]
    rw [after_session_bind, after_bind, after_info]
    generalize (_ ++ ascii ")" : Text) = line
    have hclaim := (World.grows_claiming w r (.abort reason)).emitted (.log .info line)
    have hduty := h.later (h.claims (e := .abort reason) hr hi) (h.log _ .info line)
    have hgiven := hasked.claiming hop hi line
    rw [after_bind, after_bind]
    generalize (w.claiming r (.abort reason)).emit (.log .info line) = w₁ at hclaim hduty hgiven ⊢
    -- the control and the listeners may do anything before the dialog is ended
    have hrest := h.trans (h.cancel (hclaim.isTransfer hr) hgiven)
      (h.notify (r := r) (.aborted reason) (after N (Act.cancel r) w₁))
    exact h.close ((h.grows hrest).isTransfer (hclaim.isTransfer hr)) (h.later hduty hrest)

theorem fails (h : Conduct N R O) (e : TransferError) {w : World E}
    (hr : w.stack.isTransfer r = true) : R w (after N (Act.fails r e) w) := by
  rw [Act.fails]
  cases hi : (w.stack.session r).interrupted with
  | true =>
    rw [after_claim_late hi]
    exact h.log _ _ _
  | false =>
    rw [after_claim_live hi]
    refine h.trans (h.done (h.claims (e := .error e) hr hi)) ?_
    exact h.bind (h.info _ _) (h.bind (h.notify _ _) (h.leave _ _))

theorem delivered (h : Conduct N R O) {w : World E} (hr : w.stack.isTransfer r = true) :
    R w (after N (Act.delivered r) w) := by
  rw [Act.delivered]
  cases hi : (w.stack.session r).interrupted with
  | true =>
    rw [after_claim_late hi]
    exact h.log _ _ _
  | false =>
    rw [after_claim_live hi]
    refine h.trans (h.done (h.claims (e := .delivery) hr hi)) ?_
    simp only [↓reduceIte]
    refine h.bind (h.idle (.updateTransfer _ _ ?_ ?_)) ?_
    · exact fun _ _ => rfl
    · exact fun _ => ⟨rfl, rfl⟩
    · rw [after_session_bind]
      refine h.bind (h.info _ _) ?_
      rw [after_transfer_bind]
      exact h.bind (h.notify _ _) (h.leave _ _)

theorem endByBye (h : Conduct N R O) (request : Sip.Message) {w : World E}
    (hr : w.stack.isTransfer r = true) : R w (after N (Act.endByBye r request) w) := by
  have hsize := Stack.lt_size_of_isTransfer hr
  rw [Act.endByBye]
  cases hi : (w.stack.session r).interrupted with
  | true =>
    rw [after_claim_late hi]
    exact h.trans (h.log _ _ _) (h.answerBye request hsize)
  | false =>
    rw [after_claim_live hi]
    simp only [↓reduceIte]
    rw [after_session_bind, after_bind, after_bind]
    have hclaim := World.grows_claiming w r .bye
    have hended := World.interrupted_interrupting (w := w) hsize
    have hanswer := h.answerBye request (Nat.lt_of_lt_of_le hsize hclaim.size)
    generalize hw₂ : after N (Act.warnOnFailure _ _) _ = w₂
    have hwarn : R (w.claiming r .bye) w₂ := hw₂ ▸ h.trans hanswer (h.warnOnFailure _ _ _)
    have hnotify := h.trans hwarn (h.notify (r := r) (.aborted .byRemote) w₂)
    rw [after_bind]
    generalize after N (Act.notify r (.aborted .byRemote)) w₂ = w₃ at hnotify ⊢
    have hleave := h.trans hnotify (h.leave r w₃)
    -- the session has left by now, and has the contact that it had at first
    have hsize₁ := Nat.lt_of_lt_of_le hsize hclaim.size
    have hremoved : ((after N (Act.leave r) w₃).stack.session r).removed = true :=
      (h.grows (h.toSteady.leave r w₃)).removed
        (World.removed_leaving (Nat.lt_of_lt_of_le hsize₁ (h.grows hnotify).size))
    have hrefresh := h.refreshes ((h.grows hleave).isTransfer (hclaim.isTransfer hr))
      ((h.grows hleave).interrupted hended) hremoved
      (h.later (h.claims (e := .bye) hr hi) hleave)
    rw [((h.grows hleave).ages r hsize₁).contact] at hrefresh
    rw [after_bind]
    exact hrefresh

theorem bye (h : Conduct N R O) (request : Sip.Message) {w : World E}
    (hr : r < w.stack.sessions.size) : R w (after N (Act.bye r request) w) := by
  rw [Act.bye, after_session_bind]
  split
  · next htransfer => exact h.endByBye request (Stack.isTransfer_eq ▸ htransfer)
  · exact h.answerBye request hr

/-! ### Events of the engine -/

theorem started (h : Conduct N R O) {w : World E} (hr : w.stack.isTransfer r = true)
    (hasked : JustAsked r (.engine .started) w.trace) : R w (after N (Act.started r) w) := by
  rw [Act.started]
  cases hi : (w.stack.session r).interrupted with
  | true =>
    rw [after_accepts_late hi]
    exact h.log _ _ _
  | false =>
    rw [after_accepts_live hi]
    simp only [↓reduceIte]
    rw [after_session_bind, after_transfer_bind]
    cases hp : (w.stack.transfer r).phase with
    | established => exact h.log _ _ _
    | pending => exact h.trans (h.establishes hr hi hp hasked) (h.notify _ _)

theorem relay (h : Conduct N R O) (what : Text) (c : Callback) (w : World E) :
    R w (after N (Act.relay r what c) w) := by
  rw [Act.relay]
  cases hi : (w.stack.session r).interrupted with
  | true =>
    rw [after_accepts_late hi]
    exact h.log _ _ _
  | false =>
    rw [after_accepts_live hi]
    exact h.notify _ _

theorem handle (h : Conduct N R O) (event : EngineEvent) {w : World E}
    (hr : w.stack.isTransfer r = true) (hasked : JustAsked r (.engine event) w.trace) :
    R w (after N (Act.handle r event) w) := by
  cases event with
  | started => exact h.started hr hasked
  | progress current total => exact h.relay _ _ w
  | pausedByUser => exact h.relay _ _ w
  | pausedBySystem => exact h.relay _ _ w
  | resumed => exact h.relay _ _ w
  | notAllowed => exact h.relay _ _ w
  | transferred => exact h.delivered hr
  | failed e => exact h.fails e hr

/-! ### Requests -/

theorem startUpload (h : Conduct N R O) {w : World E} (hr : w.stack.isTransfer r = true)
    (hrole : (w.stack.transfer r).role = .outgoing) : R w (after N (Act.startUpload r) w) := by
  rw [Act.startUpload, after_session_bind, after_transfer_bind]
  split
  · exact h.fail _ _ _
  · next hi =>
    split
    · exact h.fail _ _ _
    · next hb =>
      split
      · exact h.fail _ _ _
      · refine h.bind (h.info _ _) (h.begins hr ⟨?_, ?_, ?_⟩)
        · exact Bool.eq_false_iff.mpr hi
        · exact Bool.eq_false_iff.mpr hb
        · -- an upload does not know when its file expires
          intro hexpires
          simp [Terms.canExpire, Transfer.terms, Role.isIncoming, hrole] at hexpires

/-- A request that a download refuses once its file has expired; where it has not, the
clock has just been read. -/
theorem checked (h : Conduct N R O) {a : Act E (Outcome Unit)} {w : World E}
    (hr : w.stack.isTransfer r = true)
    (ha : ∀ w' : World E, w'.stack = w.stack →
      InTime r (w.stack.transfer r).terms w'.trace → R w' (after N a w')) :
    R w (after N (do if ← Act.isExpired r then Act.failExpired r else a) w) := by
  cases ht : (w.stack.transfer r).terms.canExpire with
  | false =>
    rw [Ambient.after_isExpired_of_not _ ht]
    exact ha w rfl fun ht' => absurd ht' (by simp [ht])
  | true =>
    obtain ⟨client, time, hafter⟩ := Ambient.after_isExpired (N := N)
      (fun b => if b then Act.failExpired r else a) ht
    rw [hafter]
    have hclock : (Event.clock r time : Event E.Note).IsMinor := trivial
    refine h.trans (h.trans (h.client w client) (h.idle (.emit _ hclock))) ?_
    cases hexpired : (w.stack.transfer r).terms.expiredAt time with
    | false => exact ha _ rfl fun _ => ⟨w.trace, time, [], rfl, by simp, hexpired⟩
    | true =>
      rw [if_pos rfl, Act.failExpired, after_session_bind, after_transfer_bind]
      exact h.bind (h.warn _ _) (h.bind (h.fails _ hr) (h.fail _ _ _))

theorem accept (h : Conduct N R O) {w : World E} (hr : w.stack.isTransfer r = true) :
    R w (after N (Act.accept r) w) := by
  rw [Act.accept, after_session_bind, after_transfer_bind]
  split
  · exact h.fail _ _ _
  · next hi =>
    split
    · exact h.fail _ _ _
    · next hb =>
      refine h.checked hr fun w' hstack htime => ?_
      have hlive : (w'.stack.session r).interrupted = false :=
        hstack ▸ Bool.eq_false_iff.mpr hi
      have hnew : (w'.stack.transfer r).begun = false := hstack ▸ Bool.eq_false_iff.mpr hb
      have htime' : InTime r (w'.stack.transfer r).terms w'.trace := hstack ▸ htime
      rw [← hstack] at hr
      split
      · exact h.fail _ _ _
      · exact h.bind (h.info _ _) (h.begins hr ⟨hlive, hnew, htime'.log _ _⟩)

theorem passOn (h : Conduct N R O) (title verb : Text) {call : ControlCall}
    (hcall : call ≠ .start) {w : World E} (hr : w.stack.isTransfer r = true)
    (hpermits : ∀ line, w.Permits r call ∧ (w.emit (.log .info line)).Permits r call) :
    R w (after N (Act.passOn r title verb call) w) := by
  rw [Act.passOn, after_session_bind, after_transfer_bind]
  split
  · split
    · exact h.refl _
    · exact h.drives hr hcall (hpermits []).1
  · refine h.bind (h.info _ _) ?_
    split
    · exact h.fail _ _ _
    · exact h.drives hr hcall (hpermits _).2

theorem pause (h : Conduct N R O) {w : World E} (hr : w.stack.isTransfer r = true) :
    R w (after N (Act.pause r) w) := by
  rw [Act.pause, after_session_bind, after_transfer_bind]
  split
  · exact h.fail _ _ _
  · next hi =>
    split
    · exact h.fail _ _ _
    · next hp =>
      have hpermits : w.Permits r .pause := ⟨Bool.eq_false_iff.mpr hi, not_not.mp hp⟩
      exact h.passOn _ _ (by decide) hr fun _ => ⟨hpermits, hpermits⟩

theorem resume (h : Conduct N R O) {w : World E} (hr : w.stack.isTransfer r = true) :
    R w (after N (Act.resume r) w) := by
  rw [Act.resume, after_session_bind, after_transfer_bind]
  split
  · exact h.fail _ _ _
  · next hi =>
    split
    · exact h.fail _ _ _
    · next hp =>
      refine h.checked hr fun w' hstack htime => ?_
      refine h.passOn _ _ (by decide) (hstack ▸ hr) fun line => ?_
      have hlive : (w'.stack.session r).interrupted = false :=
        hstack ▸ Bool.eq_false_iff.mpr hi
      have hflows : (w'.stack.transfer r).phase = .established := hstack ▸ not_not.mp hp
      have htime' : InTime r (w'.stack.transfer r).terms w'.trace := hstack ▸ htime
      exact ⟨⟨hlive, hflows, htime'⟩, ⟨hlive, hflows, htime'.log _ _⟩⟩

theorem reject (h : Conduct N R O) {w : World E} (hr : w.stack.isTransfer r = true)
    (hasked : JustAsked r .reject w.trace) : R w (after N (Act.reject r) w) := by
  rw [Act.reject, after_session_bind]
  exact h.bind (h.info _ _) (h.abort .byUser hr (hasked.log _ _) rfl)

/-- What is asked of a transfer, except that it be closed. -/
theorem onTransfer (h : Conduct N R O) {op : TransferOp} (hop : ∀ reason, op ≠ .close reason)
    {w : World E} (hr : w.stack.isTransfer r = true) (hasked : JustAsked r op w.trace) :
    R w (after N (Act.onTransfer r op) w) := by
  cases op with
  | addListener l =>
    refine h.idle (.updateTransfer w r ?_ ?_)
    · exact fun _ _ => rfl
    · exact fun _ => ⟨rfl, rfl⟩
  | removeListener l =>
    refine h.idle (.updateTransfer w r ?_ ?_)
    · exact fun _ _ => rfl
    · exact fun _ => ⟨rfl, rfl⟩
  | setClock clock =>
    rw [Act.onTransfer, after_transfer_bind]
    cases hrole : (w.stack.transfer r).role with
    | incoming c =>
      refine h.idle (.updateTransfer w r (Stack.terms_setClock hrole clock) ?_)
      exact fun _ => ⟨rfl, rfl⟩
    | _ => exact h.refl w
  | engine event => exact h.handle event hr hasked
  | start =>
    rw [Act.onTransfer, after_transfer_bind]
    cases hrole : (w.stack.transfer r).role with
    | outgoing => exact h.startUpload hr hrole
    | _ => exact h.refl w
  | accept =>
    rw [Act.onTransfer, after_transfer_bind]
    cases (w.stack.transfer r).role with
    | incoming c => exact h.accept hr
    | _ => exact h.refl w
  | reject =>
    rw [Act.onTransfer, after_transfer_bind]
    cases (w.stack.transfer r).role with
    | incoming c => exact h.reject hr hasked
    | _ => exact h.refl w
  | pause => exact h.pause hr
  | resume => exact h.resume hr
  | abort reason =>
    rw [Act.onTransfer, after_bind, after_pure]
    exact h.abort reason hr hasked rfl
  | close reason => exact absurd rfl (hop reason)

/-- **An operation on a transfer stays in the relation.** -/
theorem askTransfer (h : Conduct N R O) (op : TransferOp) {w : World E}
    (hr : w.stack.isTransfer r = true) : R w (after N (Act.askTransfer r op) w) := by
  rw [Act.askTransfer, after_bind, after_emit]
  by_cases hop : ∃ reason, op = .close reason
  · obtain ⟨reason, rfl⟩ := hop
    exact h.close hr (h.closes hr)
  · have hother : ∀ reason, op ≠ .close reason := fun reason ho => hop ⟨reason, ho⟩
    have hasked : ¬Op.Closes w.stack (.transfer r op) := by
      cases op with
      | close reason => exact absurd rfl (hother reason)
      | _ => exact not_false
    exact h.trans (h.asked _ hasked) (h.onTransfer hother hr (.refl r op w.trace))

theorem askSession (h : Conduct N R O) (op : SessionOp) {w : World E}
    (hr : r < w.stack.sessions.size) : R w (after N (Act.askSession r op) w) := by
  have hasked : R w (w.emit (.asked (.session r op))) := h.asked _ not_false
  rw [Act.askSession, after_bind, after_emit]
  cases op with
  | setDialog d => exact h.dialog r d w
  | interrupt =>
    rw [Act.onSession, after_bind, after_interrupt]
    exact h.trans hasked (h.interrupt hr)
  | closeMedia => exact h.trans hasked (h.closeMedia _)
  | bye request => exact h.trans hasked (h.bye request hr)
  | closePlain reason =>
    refine h.trans hasked ?_
    rw [Act.onSession, after_session_bind]
    split
    · exact h.refl _
    · next hplain =>
      refine h.hangsUpPlain hr ?_
      rw [Stack.isTransfer_eq]
      exact Bool.eq_false_iff.mpr hplain
  | removePlain =>
    refine h.trans hasked ?_
    rw [Act.onSession, after_session_bind]
    split
    · exact h.refl _
    · exact h.leave r _

/-! ### The rules -/

theorem service (h : Conduct N R O) {w w' : World E} (hmove : ServiceMove w w') : R w w' := by
  cases hmove with
  | response m => exact h.idle (.emit w trivial)
  | capabilities c cs hwaiting => exact h.capabilities hwaiting
  | markRead id => exact h.idle (.emit w trivial)
  | watched on => exact h.idle (.change w rfl rfl)
  | settings f _ => exact h.idle (.change w rfl rfl)

/-- **A relation that holds along the conduct of sessions obeys the rules.** -/
theorem rules (h : Conduct N R O) : Rules N R where
  toSteady := h.toSteady
  grows := h.grows
  service := h.service
  attach l := h.toPlacid.addServiceListener h.grows l (fun w _ => h.idle (.change w rfl rfl))
    (h.askTransfer _)
  detach l := h.toPlacid.removeServiceListener h.grows l (fun w _ => h.idle (.change w rfl rfl))
    (h.askTransfer _)
  asked op _ hop := h.asked op (Op.not_closes_of_isAside hop)
  transfer op _ _ := h.askTransfer op
  listening op _ _ := h.askTransfer op
  session := h.askSession
  start hr hrole := h.trans (h.asked (.transfer _ .start) not_false) (h.startUpload hr hrole)
  register _ _ := h.trans (h.asked (.register _) not_false) (h.idle (.enrolling _ _))
  unregister h' :=
    h.trans (h.asked (.unregister _) not_false) (h.trans (h.idle (.dismissing _ _)) h')
  make := h.makes
  enter hmade _ _ := h.trans (h.makes hmade) (h.idle (.enrolling _ _))

end Conduct

end FileSharing
