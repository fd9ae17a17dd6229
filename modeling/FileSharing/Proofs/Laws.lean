import FileSharing.Proofs.Course
import FileSharing.Proofs.Rules

/-!
# All that a stack does

What sessions do, whatever is asked of them, is one of the courses.  A relation that
holds along every course, and along what the services do, holds along every
operation and along every run.

## Main definitions

* `Bylaws` — that a relation holds along what is asked of sessions, but for what is
  asked of file transfers by their clients.
* `Laws` — that a relation holds along all that a stack does.

## Main results

* `Laws.rules` — a relation that obeys the laws obeys the rules.
* `Laws.carryOut` — **an operation stays in every relation that obeys the laws.**
* `Laws.exec`, `Laws.run` — so does an operation with the nested ones, and a
  program of the client.
-/

namespace FileSharing

variable {E : Environment}

/-! ### The laws -/

/-- A relation between worlds holds along what is asked of sessions, except that
operations on file transfers are left open. -/
structure Bylaws (N : Handler E) (R : World E → World E → Prop)
    (L : Ref → World E → World E → Prop) : Prop extends Ambient N R L where
  /-- Something is asked for that concerns no file transfer. -/
  asked : ∀ op {w}, Op.IsAside w.stack op → R w (w.emit (.asked op))
  /-- The other party wants to end the dialog of a file transfer. -/
  bye : ∀ {r m w w'}, w.stack.isTransfer r = true →
    Course R (L r) r (w.stack.life r).byeTurn (w.emit (.asked (.session r (.bye m)))) w' → R w w'
  /-- A file transfer is to be interrupted. -/
  interrupt : ∀ {r w}, w.stack.isTransfer r = true →
    R w ((w.emit (.asked (.session r .interrupt))).interrupting r)
  /-- A plain session is interrupted. -/
  interruptPlain : ∀ {r w}, r < w.stack.sessions.size → w.stack.isTransfer r = false →
    R w (w.interrupting r)
  /-- A plain session is to leave the registry. -/
  removePlain : ∀ {r w w'}, r < w.stack.sessions.size → w.stack.isTransfer r = false →
    R ((w.emit (.asked (.session r .removePlain))).leaving r) w' → R w w'

/-- A relation between worlds holds along all that a stack does. -/
structure Laws (N : Handler E) (R : World E → World E → Prop)
    (L : Ref → World E → World E → Prop) : Prop extends Steady N R, Bylaws N R L where
  /-- A service does something on the side. -/
  service : ∀ {w w'}, ServiceMove w w' → R w w'
  /-- The listeners change that are attached to all transfers. -/
  listeners : ∀ w ls, R w (w.change fun s => { s with listeners := ls })
  /-- Something is asked of a file transfer. -/
  transfer : ∀ {r} op {w w'}, w.stack.isTransfer r = true →
    Course R (L r) r ((w.stack.life r).turn op) (w.emit (.asked (.transfer r op))) w' → R w w'
  /-- A session is to enter the registry, where its name is free. -/
  register : ∀ {r w}, r < w.stack.sessions.size → w.stack.find? (w.stack.session r).id = none →
    R w ((w.emit (.asked (.register (some r)))).enrolling r)
  /-- Whatever is registered under a name is to leave the registry. -/
  unregister : ∀ {id w w'}, R ((w.emit (.asked (.unregister id))).dismissing id) w' → R w w'
  /-- A session is made. -/
  make : ∀ {r file w w'}, w.Made r file w' → R w w'
  /-- A file transfer is made and enters the registry, where its name is free. -/
  enter : ∀ {r w w'}, w.Made r true w' → w.Admits r w' →
    w'.stack.find? (w'.stack.session r).id = none → R w (w'.enrolling r)

namespace Bylaws

open Act

variable {N : Handler E} {R : World E → World E → Prop} {L : Ref → World E → World E → Prop}

/-! ### Requests to sessions -/

/-- Asking a session to deal with a request to end its dialog. -/
theorem askBye (h : Bylaws N R L) {r : Ref} (request : Sip.Message) {w : World E}
    (hr : r < w.stack.sessions.size) : R w (after N (Act.askSession r (.bye request)) w) := by
  rw [Act.askSession, after_bind, after_emit]
  by_cases htransfer : w.stack.isTransfer r = true
  · exact h.bye htransfer (h.toAmbient.bye request (w.emit (.asked _)) htransfer)
  · have hplain : w.stack.isTransfer r = false := Bool.eq_false_iff.mpr htransfer
    refine h.trans (h.asked (.session r (.bye request)) hplain) ?_
    rw [Stack.isTransfer_eq] at hplain
    rw [Act.onSession, after_bind, Act.bye, after_session_bind, World.emit_stack, hplain]
    refine h.trans (h.log _ .info _) (h.trans (h.interruptPlain ?_ ?_) (h.answerBye request _))
    · exact hr
    · exact (Stack.isTransfer_eq ▸ hplain)

theorem askSession (h : Bylaws N R L) {r : Ref} (op : SessionOp) {w : World E}
    (hr : r < w.stack.sessions.size) : R w (after N (Act.askSession r op) w) := by
  rw [Act.askSession, after_bind, after_emit]
  cases op with
  | setDialog d =>
    exact h.trans (h.asked (.session r (.setDialog d)) trivial) (h.move (.dialog _ _))
  | interrupt =>
    rw [Act.onSession, after_bind, after_interrupt]
    by_cases htransfer : w.stack.isTransfer r = true
    · exact h.interrupt htransfer
    · -- a plain session has no listeners that would hear of it
      have hplain : w.stack.isTransfer r = false := Bool.eq_false_iff.mpr htransfer
      exact h.trans (h.asked (.session r .interrupt) hplain) (h.interruptPlain hr hplain)
  | closeMedia => exact h.trans (h.asked (.session r .closeMedia) trivial) (h.closeMedia _)
  | bye request => exact h.askBye request hr
  | closePlain reason =>
    rw [Act.onSession, after_session_bind]
    refine h.trans (h.asked (.session r (.closePlain reason)) trivial) ?_
    split
    · exact h.refl _
    · exact h.closeDialog reason _
  | removePlain =>
    rw [Act.onSession, after_session_bind]
    split
    · exact h.asked (.session r .removePlain) trivial
    · next hplain =>
      refine h.removePlain hr ?_ (h.leave r _)
      rw [Stack.isTransfer_eq]
      exact Bool.eq_false_iff.mpr hplain

end Bylaws

namespace Laws

open Act

variable {N : Handler E} {R : World E → World E → Prop} {L : Ref → World E → World E → Prop}

theorem askTransfer (h : Laws N R L) {r : Ref} (op : TransferOp) {w : World E}
    (hr : w.stack.isTransfer r = true) : R w (after N (Act.askTransfer r op) w) :=
  h.transfer op hr (h.onTransfer op (w.emit (.asked (.transfer r op))) hr)

/-- A relation that obeys the laws obeys the rules. -/
theorem rules (h : Laws N R L) : Rules N R where
  toSteady := h.toSteady
  grows := h.grows
  service := h.service
  attach l := h.toPlacid.addServiceListener h.grows l h.listeners (h.askTransfer _)
  detach l := h.toPlacid.removeServiceListener h.grows l h.listeners (h.askTransfer _)
  asked := h.asked
  transfer op _ _ := h.askTransfer op
  listening op _ _ := h.askTransfer op
  session := h.askSession
  start hr _ := h.transfer .start hr (.nothing (h.startUpload _))
  register := h.register
  unregister := h.unregister
  make := h.make
  enter := h.enter

/-- **An operation stays in every relation that obeys the laws.** -/
theorem carryOut (h : Laws N R L) (op : Op) (w : World E) : R w (after N (Act.carryOut op) w) :=
  h.rules.carryOut op w

end Laws

/-! ### Runs -/

/-- A client that makes an upload to which two listen, before it does anything else. -/
def beforeTwo {α : Type} (p : Program Unit Unit α) : Program Unit Unit α :=
  .call (.create ⟨"ft", ⟨"+33612345678"⟩, [], 0, some ⟨.empty, none, [], 0, 0, .outgoing⟩⟩) fun _ =>
  .call (.transfer 0 (.addListener (some 0))) fun _ =>
  .call (.transfer 0 (.addListener (some 1))) fun _ => p

/-- **An operation with its nested ones stays in every relation that obeys the laws**,
whoever carries out the nested ones. -/
theorem Laws.exec {R : World E → World E → Prop} {L : Ref → World E → World E → Prop}
    (hrefl : ∀ w, R w w)
    (h : ∀ N : Handler E, (∀ w op, R w ((N op).run w).2) → Laws N R L) (depth : Nat) (w : World E)
    (op : Op) : R w ((exec E depth op).run w).2 :=
  Rules.exec hrefl (fun N hN => (h N hN).rules) depth w op

/-- **A program of the client stays in every relation that obeys the laws.** -/
theorem Laws.run {R : World E → World E → Prop} {L : Ref → World E → World E → Prop}
    (hrefl : ∀ w, R w w)
    (h : ∀ N : Handler E, (∀ w op, R w ((N op).run w).2) → Laws N R L) (depth : Nat) {α : Type}
    (p : Program E.State E.Note α) (w : World E) : R w ((run E depth p).run w).2 :=
  Rules.run hrefl (fun N hN => (h N hN).rules) depth p w

end FileSharing
