import FileSharing.Proofs.Entries
import FileSharing.Proofs.Refinement

/-!
# What others hear of a request to end a dialog

Others hear of a stack by the messages that it sends and by the callbacks that it makes.
Where nobody uses the stack again while being called, what comes of a request to end a
dialog can be said in full: what becomes of the stack, what others hear, and what is
answered.

## Main definitions

* `said` — what others have heard.
* `World.Yields` — what becomes of the stack, and what others hear.
* `Environment.HasDiscreetListeners`, `Environment.IsDiscreet` — the listeners, and all clients,
  leave the stack alone while being told of such a request.
* `World.byeAnswer` — the response to such a request.
* `Stack.hungUp` — the stack after the other party has ended a file transfer.

## Main results

* `Environment.HasDiscreetListeners.bye_of_live` — **a file transfer answers once and tells
  its listeners before it leaves.**
* `Environment.HasDiscreetListeners.hungUp_of_live` — **nothing else becomes of it where the
  client keeps quiet as it leaves.**
* `Act.bye_of_other` — **any other session answers once.**
-/

namespace FileSharing

variable {E : Environment} {ν : Type}

/-! ### What others hear -/

/-- Whether others hear of an event: a message that is sent, or a callback. -/
def Event.isSaid : Event ν → Bool
  | .request _ _ => true
  | .response _ _ => true
  | .callback _ _ _ _ => true
  | _ => false

/-- What others have heard. -/
def said (T : List (Event ν)) : List (Event ν) := T.filter Event.isSaid

theorem said_of_not_isSaid {e : Event ν} (h : e.isSaid = false) (T : List (Event ν)) :
    said (T ++ [e]) = said T := by
  simp [said, h]

theorem said_of_isSaid {e : Event ν} (h : e.isSaid = true) (T : List (Event ν)) :
    said (T ++ [e]) = said T ++ [e] := by
  simp [said, h]

/-- What has been said stays said. -/
theorem said_of_prefix {T T' : List (Event ν)} (h : T <+: T') : ∃ S, said T' = said T ++ S := by
  obtain ⟨S, rfl⟩ := h
  exact ⟨said S, List.filter_append ..⟩

namespace World

variable (w : World E) (r : Ref)

theorem said_interrupting : said (w.interrupting r).trace = said w.trace := by
  unfold interrupting
  split
  · rfl
  · simp [said, Event.isSaid]

theorem said_dismissing (id : Text) : said (w.dismissing id).trace = said w.trace := by
  unfold dismissing
  split
  · dsimp only
    split
    · simp [said, Event.isSaid]
    · simp [said, Event.isSaid]
  · rfl

theorem said_leaving : said (w.leaving r).trace = said w.trace := by
  unfold leaving
  split
  · rfl
  · exact said_dismissing _ _

end World

/-- Between two worlds the stack has become `s`, and others have heard `T`. -/
structure World.Yields (s : Stack) (T : List (Event E.Note)) (w w' : World E) : Prop where
  stack : w'.stack = s
  said : said w'.trace = FileSharing.said w.trace ++ T

namespace World.Yields

variable {w w₁ w₂ : World E} {s s' : Stack} {T T' : List (Event E.Note)}

theorem refl (w : World E) : World.Yields w.stack [] w w := ⟨rfl, by simp⟩

theorem trans (h : World.Yields s T w w₁) (h' : World.Yields s' T' w₁ w₂) :
    World.Yields s' (T ++ T') w w₂ :=
  ⟨h'.stack, by rw [h'.said, h.said, List.append_assoc]⟩

/-- The stack stays as it is while more is heard. -/
theorem hear (h : World.Yields s T w w₁) (h' : World.Yields w₁.stack T' w₁ w₂) :
    World.Yields s (T ++ T') w w₂ :=
  h.trans (h.stack ▸ h')

/-- The stack stays as it is, and nothing more is heard. -/
theorem quiet (h : World.Yields s T w w₁) (h' : World.Yields w₁.stack [] w₁ w₂) :
    World.Yields s T w w₂ := by
  simpa using h.hear h'

theorem emitted (h : World.Yields s T w w₁) {e : Event E.Note} (he : e.isSaid = false) :
    World.Yields s T w (w₁.emit e) :=
  ⟨h.stack, by rw [emit_trace, said_of_not_isSaid he, h.said]⟩

theorem emit (w : World E) {e : Event E.Note} (he : e.isSaid = false) :
    World.Yields w.stack [] w (w.emit e) :=
  emitted (refl w) he

theorem say (w : World E) {e : Event E.Note} (he : e.isSaid = true) :
    World.Yields w.stack [e] w (w.emit e) :=
  ⟨rfl, by rw [emit_trace, said_of_isSaid he]⟩

theorem change (w : World E) (f : Stack → Stack) : World.Yields (f w.stack) [] w (w.change f) :=
  ⟨rfl, by simp⟩

theorem withClient (w : World E) (c : E.State) : World.Yields w.stack [] w (w.withClient c) :=
  ⟨rfl, by simp⟩

theorem interrupting (w : World E) (r : Ref) :
    World.Yields (w.interrupting r).stack [] w (w.interrupting r) :=
  ⟨rfl, by rw [said_interrupting, List.append_nil]⟩

theorem leaving (w : World E) (r : Ref) :
    World.Yields (w.leaving r).stack [] w (w.leaving r) :=
  ⟨rfl, by rw [said_leaving, List.append_nil]⟩

end World.Yields

/-! ### Programs that leave the stack alone -/

/-- The listeners do not use the stack while they are told that the other party has ended a
file transfer. -/
def Environment.HasDiscreetListeners (E : Environment) : Prop :=
  ∀ l r, (E.listener l r (.aborted .byRemote)).Asks fun _ => False

/-- The clients do not use the stack while they are told that the other party has ended a
file transfer, or that a session has left. -/
structure Environment.IsDiscreet (E : Environment) : Prop where
  listener : ∀ l r, (E.listener l r (.aborted .byRemote)).Asks fun _ => False
  removed : ∀ id, (E.removed id).Asks fun _ => False

theorem Environment.IsDiscreet.hasDiscreetListeners (h : E.IsDiscreet) :
    E.HasDiscreetListeners := h.listener

namespace World.Yields

open Act

variable {N : Handler E} {α : Type} {w : World E} {r : Ref}

/-- A program that does not use the stack leaves it alone, and nobody hears of it. -/
theorem play {p : Program E.State E.Note α} (hp : p.Asks fun _ => False) (w : World E) :
    World.Yields w.stack [] w (after N (Act.play p) w) := by
  refine after_play_of_asks (R := fun w w' => World.Yields w.stack [] w w') hp refl ?_ ?_ ?_ ?_ w
  · exact fun h h' => h.quiet h'
  · exact fun w n => emit w rfl
  · exact withClient
  · exact fun _ _ h => absurd h not_false

/-- Listeners that do not use the stack are called one after another, and that is all. -/
theorem callAll {c : Callback} (hquiet : ∀ l, (E.listener l r c).Asks fun _ => False)
    (contact : Contact) (ls : List Listener) (w : World E) :
    World.Yields w.stack (callbacks r contact c ls) w
      (after N (Act.callAll r contact c ls) w) := by
  induction ls generalizing w with
  | nil => exact .refl w
  | cons l ls ih =>
    have hcall := say w (e := .callback r l contact c) rfl
    have hplay := hcall.quiet (play (N := N) (hquiet l) (w.emit (.callback r l contact c)))
    simp only [Act.callAll, after_bind, after_emit]
    generalize after N (Act.play (E.listener l r c)) (w.emit (.callback r l contact c)) = w₁
      at hplay ⊢
    cases result N (Act.play (E.listener l r c)) (w.emit (.callback r l contact c)) with
    | none => exact hplay.hear (ih w₁)
    | some message =>
      have hthrown := hplay.quiet (emit w₁ (e := .log .error (listenerFailure c.name message)) rfl)
      exact hthrown.hear (ih (w₁.emit _))

theorem notify {c : Callback} (hquiet : ∀ l, (E.listener l r c).Asks fun _ => False)
    (w : World E) :
    World.Yields w.stack
      (callbacks r (w.stack.session r).contact c (w.stack.transfer r).listeners.members) w
      (after N (Act.notify r c) w) := by
  have hfan := emit w (e := .fanout r c (w.stack.transfer r).listeners.members) rfl
  exact hfan.hear (callAll hquiet _ _ (w.emit _))

/-- A session leaves, and the client does not use the stack if it is told of it. -/
theorem leave (w : World E) (hquiet : w.stack.watched = true →
    ∀ id, (E.removed id).Asks fun _ => False) :
    World.Yields (w.leaving r).stack [] w (after N (Act.leave r) w) := by
  rcases after_leave (N := N) r w with hafter | ⟨hwatched, hafter⟩
  · rw [hafter]
    exact leaving w r
  · rw [hafter]
    exact (leaving w r).quiet (play (hquiet hwatched _) _)

theorem warnOnFailure (line : Text) (o : Outcome Unit) (w : World E) :
    World.Yields w.stack [] w (after N (Act.warnOnFailure line o) w) := by
  cases o with
  | ok a => exact .refl w
  | error f => exact emit w rfl

theorem report (f : Option Failure) (w : World E) :
    World.Yields w.stack [] w (after N (Act.report f) w) := by
  cases f with
  | none => exact .refl w
  | some f => exact emit w rfl

theorem sendResponse (q : Option Ref) (m : Sip.Message) (w : World E) :
    World.Yields w.stack [.response q m] w (after N (Act.sendResponse q m) w) := by
  have hsay := say w (e := .response q m) rfl
  have hsent := hsay.quiet (withClient _ (E.sendResponse m w.client).2)
  exact hsent.quiet (report _ _)

end World.Yields

/-! ### Changes of one session -/

namespace Stack

variable {s : Stack} {r q : Ref}

theorem update_eq_self {f : Session → Session} (h : f (s.session r) = s.session r) :
    s.update r f = s := by
  -- the update is in place, so the session is what stands there
  have hsessions : s.sessions.modify r f = s.sessions := by
    refine Array.ext (by simp) fun i hi hi' => ?_
    rw [Array.getElem_modify]
    split
    · next hir =>
      subst hir
      simpa [session, hi'] using h
    · rfl
  rw [update, hsessions]

theorem update_update (f g : Session → Session) :
    (s.update r f).update r g = s.update r fun x => g (f x) := by
  have hsessions : (s.sessions.modify r f).modify r g = s.sessions.modify r fun x => g (f x) := by
    refine Array.ext (by simp) fun i hi hi' => ?_
    simp only [Array.getElem_modify]
    split
    · rfl
    · rfl
  rw [update, update, hsessions]
  rfl

/-- The stack in which a session is interrupted. -/
def interrupt (s : Stack) (r : Ref) : Stack := s.update r fun x => { x with interrupted := true }

/-- The stack after the other party has ended a file transfer: the session is interrupted
and has left, and what the other party is capable of is to be asked. -/
def hungUp (s : Stack) (r : Ref) : Stack :=
  { s.update r fun x => { x with interrupted := true, removed := true } with
    registry := s.registry.filter (·.1 ≠ (s.session r).id)
    refreshes := s.refreshes ++ [(s.session r).contact] }

theorem id_interrupt : ((s.interrupt r).session q).id = (s.session q).id :=
  apply_session_update Session.id fun _ => rfl

theorem contact_interrupt : ((s.interrupt r).session q).contact = (s.session q).contact :=
  apply_session_update Session.contact fun _ => rfl

theorem dialog_interrupt : ((s.interrupt r).session q).dialog = (s.session q).dialog :=
  apply_session_update Session.dialog fun _ => rfl

theorem removed_interrupt : ((s.interrupt r).session q).removed = (s.session q).removed :=
  apply_session_update Session.removed fun _ => rfl

theorem transfer_interrupt : (s.interrupt r).transfer q = s.transfer q :=
  apply_session_update (fun x => x.transfer.getD default) fun _ => rfl

theorem interrupt_interrupt : (s.interrupt r).interrupt r = s.interrupt r :=
  update_update _ _

end Stack

theorem World.stack_interrupting (w : World E) (r : Ref) :
    (w.interrupting r).stack = w.stack.interrupt r := by
  unfold interrupting
  split
  · next hi =>
    refine (Stack.update_eq_self ?_).symm
    rw [← hi]
  · rfl

theorem World.client_interrupting (w : World E) (r : Ref) :
    (w.interrupting r).client = w.client := by
  unfold interrupting
  split
  · rfl
  · rfl

/-! ### Requests to end a dialog -/

/-- The outcome of a call of a collaborator, which may report a failure. -/
def Outcome.ofFailure : Option Failure → Outcome Unit
  | none => .ok ()
  | some f => .error f

/-- The response with which a session answers a request to end its dialog, and the state
of the collaborators when it is sent.  A session without a dialog answers under a new
tag. -/
def World.byeAnswer (w : World E) (r : Ref) (request : Sip.Message) : Sip.Message × E.State :=
  match (w.stack.session r).dialog with
  | some d => (d.respond request 200, w.client)
  | none =>
    let (tag, client) := E.newTag w.client
    ((Sip.Dialog.ofRequest request tag).respond request 200, client)

/-- What a session answers to a request to end its dialog is whether its response could be
sent. -/
def World.byeOutcome (w : World E) (r : Ref) (request : Sip.Message) : Outcome Unit :=
  let (response, client) := w.byeAnswer r request
  .ofFailure (E.sendResponse response client).1

section Bye

open Act

variable {N : Handler E} {w w' : World E} {r : Ref}

theorem World.byeAnswer_congr
    (hdialog : (w'.stack.session r).dialog = (w.stack.session r).dialog)
    (hclient : w'.client = w.client) (request : Sip.Message) :
    w'.byeAnswer r request = w.byeAnswer r request := by
  rw [byeAnswer, byeAnswer, hdialog, hclient]

theorem result_report (f : Option Failure) : result N (report f) w = .ofFailure f := by
  cases f with
  | none => rfl
  | some f => rfl

theorem result_sendResponse (q : Option Ref) (m : Sip.Message) :
    result N (sendResponse q m) w = .ofFailure (E.sendResponse m w.client).1 := by
  rw [sendResponse, result_bind, after_emit, result_bind, result_report, result_ask,
    World.emit_client]

theorem result_byeResponse (request : Sip.Message) :
    result N (byeResponse r request) w = (w.byeAnswer r request).1 := by
  rw [byeResponse, World.byeAnswer, result_bind, result_session]
  cases (w.stack.session r).dialog with
  | none => rfl
  | some d => rfl

theorem after_byeResponse (request : Sip.Message) :
    after N (byeResponse r request) w = w.withClient (w.byeAnswer r request).2 := by
  rw [byeResponse, World.byeAnswer, after_session_bind]
  cases (w.stack.session r).dialog with
  | none => rfl
  | some d => rfl

theorem World.Yields.closeMedia (w : World E) :
    World.Yields w.stack [] w (after N (closeMedia r) w) := by
  unfold Act.closeMedia
  rw [after_session_bind]
  split
  · exact .emit w rfl
  · exact .refl w

theorem client_closeMedia (w : World E) : (after N (closeMedia r) w).client = w.client := by
  unfold closeMedia
  rw [after_session_bind]
  split
  · rfl
  · rfl

theorem byeAnswer_closeMedia (request : Sip.Message) (line : Text) :
    (after N (closeMedia r) ((w.emit (.log .info line)).interrupting r)).byeAnswer r request
      = w.byeAnswer r request := by
  refine World.byeAnswer_congr ?_ ?_ request
  · rw [(World.Yields.closeMedia _).stack, World.stack_interrupting]
    exact Stack.dialog_interrupt
  · rw [client_closeMedia, World.client_interrupting, World.emit_client]

/-- A session that answers a request to end its dialog sends one response. -/
theorem World.Yields.answerBye (request : Sip.Message) (w : World E) :
    World.Yields (w.stack.interrupt r) [.response (some r) (w.byeAnswer r request).1] w
      (after N (answerBye r request) w) := by
  rw [Act.answerBye, after_session_bind, after_bind, after_info, after_bind, after_interrupt,
    after_bind, after_bind, after_byeResponse, result_byeResponse, byeAnswer_closeMedia]
  have hinterrupt := World.Yields.interrupting (w.emit (.log .info (Ambient.byeLine
    (w.stack.session r)))) r
  rw [World.stack_interrupting] at hinterrupt
  have hended := (World.Yields.emit w rfl).trans hinterrupt
  have hready := (hended.quiet (.closeMedia (N := N) (r := r) _)).quiet
    (.withClient _ (w.byeAnswer r request).2)
  exact hready.hear (.sendResponse (some r) _ _)

theorem result_answerBye (request : Sip.Message) :
    result N (answerBye r request) w = w.byeOutcome r request := by
  rw [answerBye, result_bind, result_bind, result_bind, result_bind, result_bind,
    result_sendResponse, result_byeResponse, after_byeResponse, World.withClient_client,
    after_interrupt, after_info, after_session, byeAnswer_closeMedia]
  rfl

/-- **A session that is plain, or has ended, answers a request to end its dialog once**, and
is interrupted. -/
theorem bye_of_other (request : Sip.Message)
    (h : w.stack.isTransfer r = true → (w.stack.session r).interrupted = true) :
    World.Yields (w.stack.interrupt r) [.response (some r) (w.byeAnswer r request).1] w
        (after N (bye r request) w) ∧
      result N (bye r request) w = w.byeOutcome r request := by
  rw [Act.bye, after_session_bind, result_bind, result_session, after_session,
    ← Stack.isTransfer_eq]
  by_cases htransfer : w.stack.isTransfer r = true
  · have hi := h htransfer
    rw [if_pos htransfer, endByBye, after_claim_late hi, result_bind, after_claim, result_claim, hi]
    have hlate := World.Yields.emit w (e := .log .debug (lateLine (w.stack.session r) "BYE")) rfl
    exact ⟨hlate.trans (.answerBye request (w.emit _)), result_answerBye (w := w.emit _) request⟩
  · rw [if_neg htransfer]
    exact ⟨.answerBye request w, result_answerBye request⟩

theorem byeAnswer_claiming (request : Sip.Message) :
    (w.claiming r .bye).byeAnswer r request = w.byeAnswer r request := by
  refine World.byeAnswer_congr ?_ (World.client_interrupting w r) request
  show ((w.interrupting r).stack.session r).dialog = _
  rw [World.stack_interrupting]
  exact Stack.dialog_interrupt

theorem result_answerBye_claiming (request : Sip.Message) :
    result N (answerBye r request) (w.claiming r .bye) = w.byeOutcome r request := by
  rw [result_answerBye, World.byeOutcome, byeAnswer_claiming]
  rfl

/-- After the claim, its answer is all that happens to the session before its listeners are
told. -/
theorem World.Yields.answerBye_claiming (request : Sip.Message) (w : World E) :
    World.Yields (w.stack.interrupt r) [.response (some r) (w.byeAnswer r request).1] w
      (after N (Act.answerBye r request) (w.claiming r .bye)) := by
  have hclaim := (World.Yields.interrupting w r).emitted (e := .claimed r .bye) rfl
  have hanswer := World.Yields.answerBye (N := N) (r := r) request (w.claiming r .bye)
  have hstack : (w.claiming r .bye).stack = w.stack.interrupt r := w.stack_interrupting r
  rw [hstack, Stack.interrupt_interrupt, byeAnswer_claiming] at hanswer
  exact hclaim.trans hanswer

/-- After a file transfer has answered the request that ends it, it tells its listeners, leaves,
and queues a refresh. -/
theorem after_bye_of_live (request : Sip.Message) (htransfer : w.stack.isTransfer r = true)
    (hi : (w.stack.session r).interrupted = false) :
    ∃ line, after N (bye r request) w
      = ((after N (leave r) (after N (notify r (.aborted .byRemote)) (after N
          (warnOnFailure line (w.byeOutcome r request)) (after N (answerBye r request)
            (w.claiming r .bye))))).change fun s =>
              { s with refreshes := s.refreshes ++ [(w.stack.session r).contact] }).emit
                (.byeDone r (w.stack.session r).contact) := by
  have hcontact : ((w.claiming r .bye).stack.session r).contact = (w.stack.session r).contact := by
    rw [show (w.claiming r .bye).stack = _ from w.stack_interrupting r, Stack.contact_interrupt]
  rw [Stack.isTransfer_eq] at htransfer
  rw [Act.bye, after_session_bind, if_pos htransfer, endByBye, after_claim_live hi]
  simp only [if_true, after_bind, after_session, result_session, after_pure]
  rw [after_emit, queueRefresh, after_change, result_answerBye_claiming, hcontact]
  exact ⟨_, rfl⟩

/-- **What a session answers to the caller**, whatever it is and whatever others do, is whether
its response could be sent. -/
theorem result_bye (request : Sip.Message) :
    result N (bye r request) w = w.byeOutcome r request := by
  by_cases hother : w.stack.isTransfer r = true → (w.stack.session r).interrupted = true
  · exact (bye_of_other request hother).2
  · obtain ⟨htransfer, hi⟩ := Classical.not_imp.mp hother
    rw [Stack.isTransfer_eq] at htransfer
    rw [Act.bye, result_bind, result_session, after_session, if_pos htransfer, endByBye,
      result_bind, after_claim, result_claim]
    simp only [hi, Bool.not_false, if_true, Bool.false_eq_true, if_false, result_bind, after_session,
      result_answerBye_claiming, result_pure]

/-- **A file transfer that lives answers a request to end its dialog once and tells its
listeners**, where these do not use the stack while they are told.  Then it leaves. -/
theorem Environment.HasDiscreetListeners.bye_of_live (hquiet : E.HasDiscreetListeners)
    (request : Sip.Message) (htransfer : w.stack.isTransfer r = true)
    (hi : (w.stack.session r).interrupted = false) :
    ∃ w₁, World.Yields (w.stack.interrupt r)
        (.response (some r) (w.byeAnswer r request).1 ::
          callbacks r (w.stack.session r).contact (.aborted .byRemote)
            (w.stack.transfer r).listeners.members) w w₁ ∧
      after N (bye r request) w
        = ((after N (leave r) w₁).change fun s =>
            { s with refreshes := s.refreshes ++ [(w.stack.session r).contact] }).emit
              (.byeDone r (w.stack.session r).contact) := by
  obtain ⟨line, hafter⟩ := after_bye_of_live (N := N) request htransfer hi
  refine ⟨_, ?_, hafter⟩
  have hanswer := World.Yields.answerBye_claiming (N := N) (r := r) request w
  generalize after N (answerBye r request) (w.claiming r .bye) = w₁ at hanswer ⊢
  have hready := hanswer.quiet (.warnOnFailure (N := N) line (w.byeOutcome r request) w₁)
  generalize after N (warnOnFailure line (w.byeOutcome r request)) w₁ = w₂ at hready ⊢
  -- only the marks of the session have changed, so those are told who listened before
  have htold := World.Yields.notify (N := N) (hquiet · r) w₂
  rw [hready.stack, Stack.contact_interrupt, Stack.transfer_interrupt] at htold
  exact hready.trans htold

/-- **A file transfer that is registered answers once, tells its listeners, and leaves**, where
nobody uses the stack while being told. -/
theorem Environment.HasDiscreetListeners.hungUp_of_live (hquiet : E.HasDiscreetListeners)
    (hremoved : w.stack.watched = true → ∀ id, (E.removed id).Asks fun _ => False)
    (request : Sip.Message) (htransfer : w.stack.isTransfer r = true)
    (hi : (w.stack.session r).interrupted = false)
    (hstays : (w.stack.session r).removed = false) :
    World.Yields (w.stack.hungUp r)
      (.response (some r) (w.byeAnswer r request).1 ::
        callbacks r (w.stack.session r).contact (.aborted .byRemote)
          (w.stack.transfer r).listeners.members) w (after N (bye r request) w) := by
  obtain ⟨w₁, hheard, hafter⟩ := hquiet.bye_of_live (N := N) request htransfer hi
  rw [hafter]
  have hlive : (w₁.stack.session r).removed = false := by
    rw [hheard.stack, Stack.removed_interrupt, hstays]
  have hleft := hheard.trans (.leave (N := N) (r := r) w₁ (by rwa [hheard.stack]))
  rw [World.stack_leaving hlive, hheard.stack, Stack.id_interrupt, List.append_nil] at hleft
  generalize after N (leave r) w₁ = w₂ at hleft ⊢
  have hqueued := hleft.trans
    (.change w₂ fun s => { s with refreshes := s.refreshes ++ [(w.stack.session r).contact] })
  rw [hleft.stack, List.append_nil, Stack.interrupt, Stack.update_update] at hqueued
  exact hqueued.emitted rfl

end Bye

end FileSharing
