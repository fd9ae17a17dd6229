import FileSharing.Proofs.Discretion
import FileSharing.Proofs.Talk

/-!
# Routing requests to end a dialog

A request to end a dialog goes to a session of its call, and the answer depends on where
the session is: a file transfer that is registered has not ended, so it ends now and
leaves; any other session only answers.  That a registered file transfer has not ended is
so between operations, where file transfers are left to enter the registry by the
services and nobody interrupts one from outside.

A session of the call is found by looking through the registry, and it is not known which
one, where there are several.  Whichever it is, a request ends one session, be there others
of its call or not.

## Main definitions

* `World.Finishes` — between two worlds, a file transfer that ends leaves.
* `World.Managed` — file transfers are left to the services.
* `Stack.Ready` — every file transfer that is registered lives.
* `Stack.HasCall` — a registered session belongs to a call.
* `World.IsHungUp` — the other party has ended a file transfer.

## Main results

* `World.Finishes.sessionLaws` — **a file transfer that ends leaves, unless it is
  interrupted from outside.**
* `ready_run` — **between operations every file transfer that is registered lives.**
* `bye_answered_once` — **a request to end a dialog is answered once, and ends at most
  one file transfer.**
* `bye_final_iff` — **it leaves no session of its call exactly where there was at most
  one.**
-/

namespace FileSharing

variable {E : Environment}

/-! ### File transfers that end leave -/

/-- Whether a turn is the last one of a session. -/
def Turn.IsLast : Turn → Prop
  | .finish _ => True
  | .close => True
  | _ => False

/-- After its last turn a session has left, whatever is done on the way. -/
theorem Course.removed {R L : World E → World E → Prop} (hR : ∀ {w w'}, R w w' → w.Grows w')
    (hL : ∀ {w w'}, L w w' → w.Grows w') {r : Ref} {t : Turn} {w w' : World E}
    (h : Course R L r t w w') (ht : t.IsLast) (hr : r < w.stack.sessions.size) :
    (w'.stack.session r).removed = true := by
  induction h with
  | logged level line _ ih => exact ih ht hr
  | finish e _ h₁ h₂ h₃ h₄ =>
    have hclaim := (World.grows_claiming _ r e).trans (hR h₁)
    have hgrows := hclaim.trans ((h₂.grows hL).trans (hR h₃))
    exact (hR h₄).removed (World.removed_leaving (Nat.lt_of_lt_of_le hr hgrows.size))
  | close h₁ h₂ =>
    have hgrows := (World.grows_interrupting _ r).trans (hR h₁)
    exact (hR h₂).removed (World.removed_leaving (Nat.lt_of_lt_of_le hr hgrows.size))
  | _ => exact absurd ht not_false

/-- Between two worlds a file transfer that ends leaves, unless it is interrupted from
outside. -/
structure World.Finishes (r : Ref) (w w' : World E) : Prop where
  grows : w.Grows w'
  finished : .asked (.session r .interrupt) ∉ w'.trace → w'.stack.isTransfer r = true →
    (w'.stack.session r).interrupted = true → (w'.stack.session r).removed = false →
      (w.stack.session r).interrupted = true

theorem World.Grows.isTransfer_eq {w w' : World E} {r : Ref} (h : w.Grows w')
    (hr : r < w.stack.sessions.size) : w'.stack.isTransfer r = w.stack.isTransfer r := by
  rw [Stack.isTransfer_eq, Stack.isTransfer_eq]
  exact (h.ages r hr).isSome

namespace World.Finishes

variable {w w₁ w₂ w' : World E} {r : Ref}

theorem ofSame (h : w.Grows w')
    (hsame : (w'.stack.session r).interrupted = (w.stack.session r).interrupted) :
    w.Finishes r w' :=
  ⟨h, fun _ _ hi _ => hsame ▸ hi⟩

theorem ofRemoved (h : w.Grows w') (hr : (w'.stack.session r).removed = true) :
    w.Finishes r w' :=
  ⟨h, fun _ _ _ hstays => absurd hr (by simp [hstays])⟩

theorem ofStands (h : w.Stands w') : w.Finishes r w' := ofSame h.grows (h.session r).2.1

theorem refl (w : World E) : w.Finishes r w := ofSame (.refl w) rfl

theorem emit (w : World E) (e : Event E.Note) : w.Finishes r (w.emit e) := ofSame (.emit w e) rfl

theorem trans (h : w.Finishes r w₁) (h' : w₁.Finishes r w₂) : w.Finishes r w₂ := by
  refine ⟨h.grows.trans h'.grows, fun hasked htransfer hi hstays => ?_⟩
  -- the second part has not ended the transfer, so the first part is to blame
  have hi₁ := h'.finished hasked htransfer hi hstays
  have hsize := Grows.lt_size_of_interrupted hi₁
  refine h.finished (fun hmem => hasked (h'.grows.trace.subset hmem)) ?_ hi₁ ?_
  · rw [← h'.grows.isTransfer_eq hsize, htransfer]
  · refine Bool.eq_false_iff.mpr fun hgone => ?_
    exact absurd (h'.grows.removed hgone) (by simp [hstays])

theorem fan {c : Callback} (h : Fan (World.Finishes r) r c w w') : w.Finishes r w' :=
  Fan.stays refl trans id (fun w _ => emit w _) (fun w _ _ => emit w _) h

/-- Whatever comes of an operation on a file transfer, the transfer leaves if it ends. -/
theorem course {t : Turn} (h : Course (World.Finishes r) (World.Finishes r) r t w w')
    (hr : r < w.stack.sessions.size) : w.Finishes r w' := by
  induction h with
  | logged level line _ ih => exact (emit _ _).trans (ih hr)
  | nothing h => exact h
  | tell c _ _ h => exact fan h
  | establish _ _ h => exact (ofStands (.establishing _ r)).trans (fan h)
  | finish e hi h₁ h₂ h₃ h₄ =>
    have hcourse := Course.finish e hi h₁ h₂ h₃ h₄
    exact ofRemoved (hcourse.grows grows grows) (hcourse.removed grows grows trivial hr)
  | close h₁ h₂ =>
    have hcourse := Course.close (L := World.Finishes r) h₁ h₂
    exact ofRemoved (hcourse.grows grows grows) (hcourse.removed grows grows trivial hr)
  | lasting client time _ _ h =>
    exact (ofStands (.withClient _ client)).trans ((emit _ _).trans h)
  | expired client time _ _ _ h' ih =>
    exact (ofStands (.withClient _ client)).trans ((emit _ _).trans ((ih hr).trans h'))
  | attach w l => exact ofStands (.updateTransfer w fun _ _ => rfl)
  | detach w l => exact ofStands (.updateTransfer w fun _ _ => rfl)

/-- **Whatever a stack does, a file transfer that ends leaves**, unless it is interrupted from
outside. -/
theorem sessionLaws {N : Handler E} (hN : ∀ (w : World E) op, w.Finishes r ((N op).run w).2) :
    SessionLaws N (World.Finishes r) (World.Finishes r) r := by
  have hsteady : Steady N (World.Finishes r) := {
    refl := refl
    trans := trans
    log := fun w _ _ => emit w _
    note := fun w _ => emit w _
    client := fun w c => ofStands (.withClient w c)
    nested := hN }
  exact {
    hsteady with
    grows := fun h => h.grows
    spared := fun h => ofSame h.grows (congrArg Life.ended h.life)
    begun := fun w n => ofStands (.ofMove (.begun w n))
    heard := fun h => h.grows
    listener := fun _ _ w => hsteady.play _ w
    thrown := fun _ h => h.trans (emit _ _)
    ignored := fun _ w _ => emit w _
    turn := fun _ w w' hr h => (emit w _).trans (course h (Stack.lt_size_of_isTransfer hr))
    interrupt := fun {w} _ => by
      have hgrows := World.grows_interrupting (w.emit (.asked (.session r .interrupt))) r
      refine ⟨(Grows.emit w _).trans hgrows, fun hasked => ?_⟩
      exact absurd (hgrows.trace.subset (List.mem_append_right _ List.mem_cons_self)) hasked
    interruptPlain := fun {w} hr hplain => by
      refine ⟨w.grows_interrupting r, fun _ htransfer => ?_⟩
      rw [(w.grows_interrupting r).isTransfer_eq hr, hplain] at htransfer
      exact absurd htransfer (by decide)
    make := fun h => by
      refine ⟨h.grows, fun _ _ hi => ?_⟩
      exact absurd hi (by simp [h.isNew.interrupted]) }

theorem run (depth : Nat) {α : Type} (p : Program E.State E.Note α) (w : World E) (r : Ref) :
    w.Finishes r ((run E depth p).run w).2 :=
  Laws.run refl (fun _ h => (sessionLaws h).laws) depth p w

end World.Finishes

/-! ### Registered file transfers live -/

/-- Whether an event interferes with file transfers: one is to be registered, or to be
interrupted, from outside. -/
def Event.meddles {ν : Type} (s : Stack) : Event ν → Bool
  | .asked (.register (some r)) => s.isTransfer r
  | .asked (.session r .interrupt) => s.isTransfer r
  | _ => false

/-- Whether file transfers are left to the services. -/
def World.Managed (w : World E) : Prop := ∀ e ∈ w.trace, e.meddles w.stack = false

instance (w : World E) : Decidable w.Managed :=
  inferInstanceAs (Decidable (∀ e ∈ w.trace, e.meddles w.stack = false))

/-- Every entry is filed under its name, every file transfer that is registered lives, and no
listener is attached twice. -/
structure Stack.Ready (s : Stack) : Prop where
  filed : s.Filed
  live : ∀ r, s.Holds r → s.isTransfer r = true →
    (s.session r).interrupted = false ∧ (s.session r).removed = false
  nodup : ∀ r, (s.transfer r).listeners.members.Nodup

/-- A file transfer that is left to the services is not registered after it has left. -/
theorem World.Managed.not_isStale {settings : Settings} {client : E.State} {w : World E} {r : Ref}
    (hmanaged : w.Managed) (h : (World.start settings client).Evolves w)
    (htransfer : w.stack.isTransfer r = true) : ¬w.IsStale r := by
  intro hstale
  rcases h.stale (Stack.filed_fresh settings) hstale with hbefore | hcount
  · exact absurd hbefore.holds List.not_mem_nil
  · -- somebody would have asked for the transfer to be registered
    have hmem : r ∈ registrations w.trace :=
      List.count_pos_iff.mp (Nat.lt_of_le_of_lt (Nat.zero_le _) hcount)
    obtain ⟨e, he, hr⟩ := List.mem_flatMap.mp hmem
    cases e with
    | asked op =>
      obtain rfl := Op.eq_register_of_mem hr
      exact absurd htransfer (by simpa [Event.meddles] using hmanaged _ he)
    | _ => exact absurd hr List.not_mem_nil

/-- **Between operations every file transfer that is registered lives**, where file transfers
are left to the services. -/
theorem ready_run (settings : Settings) (client : E.State) (depth : Nat) {α : Type}
    (p : Program E.State E.Note α) :
    let w := ((run E depth p).run (.start settings client)).2
    w.Managed → w.stack.Ready := by
  intro w hmanaged
  have hevolves : (World.start settings client).Evolves w := .run depth p _
  have hfiled : (World.start settings client : World E).stack.Filed := Stack.filed_fresh settings
  refine ⟨hevolves.filed hfiled, fun r hholds htransfer => ?_, fun r => ?_⟩
  · have hstays : (w.stack.session r).removed = false := by
      refine Bool.eq_false_iff.mpr fun hgone => ?_
      exact hmanaged.not_isStale hevolves htransfer ⟨hholds, hgone⟩
    refine ⟨Bool.eq_false_iff.mpr fun hi => ?_, hstays⟩
    -- it has ended, and not by itself, or else it would have left
    have hfinishes : (World.start settings client).Finishes r w := .run depth p _ r
    refine absurd (hfinishes.finished (fun hasked => ?_) htransfer hi hstays) Bool.false_ne_true
    exact absurd htransfer (by simpa [Event.meddles] using hmanaged _ hasked)
  · exact (Telling.run depth p (.start settings client) r).nodup List.nodup_nil

/-! ### Sessions of a call -/

namespace Stack

variable {s : Stack} {r q : Ref} {c : Text}

/-- Whether a registered session belongs to a call; the empty call has no sessions. -/
structure HasCall (s : Stack) (r : Ref) (c : Text) : Prop where
  nonempty : c ≠ []
  holds : s.Holds r
  callId : (s.session r).callId = c

theorem mem_ofCall_iff : r ∈ s.ofCall c ↔ s.HasCall r c := by
  unfold ofCall
  split
  · next hc =>
    have hempty : c = [] := by simpa using hc
    exact iff_of_false List.not_mem_nil fun h => h.nonempty hempty
  · next hc =>
    rw [List.mem_filter]
    constructor
    · rintro ⟨hholds, hcall⟩
      exact ⟨by simpa using hc, hholds, of_decide_eq_true hcall⟩
    · intro h
      exact ⟨h.holds, decide_eq_true h.callId⟩

/-- Whichever session is found for a call, it belongs to it. -/
theorem HasCall.ofFound {w : World E} (h : w.findByCall? c = some r) : w.stack.HasCall r c :=
  mem_ofCall_iff.mp (mem_ofCall_of_found h)

/-- None is found only where there is none. -/
theorem findByCall?_eq_none {w : World E} :
    w.findByCall? c = none ↔ ∀ r, ¬w.stack.HasCall r c := by
  rw [World.findByCall?, findByCall?_eq_none_iff, List.eq_nil_iff_forall_not_mem]
  exact forall_congr' fun r => not_congr mem_ofCall_iff

/-! ### After a file transfer has been ended -/

theorem session_hungUp_of_ne (h : q ≠ r) : (s.hungUp r).session q = s.session q :=
  session_update_of_ne h _

theorem holds_hungUp (hs : s.Filed) (hr : s.Holds r) :
    (s.hungUp r).Holds q ↔ s.Holds q ∧ q ≠ r := by
  constructor
  · intro hq
    obtain ⟨e, he, rfl⟩ := List.mem_map.mp hq
    obtain ⟨hmem, hname⟩ := List.mem_filter.mp he
    refine ⟨List.mem_map_of_mem hmem, fun heq => ?_⟩
    -- what is taken out by its name is the entry of the session itself
    exact of_decide_eq_true hname ((hs.ref_eq_iff hr hmem).mp heq)
  · rintro ⟨hq, hne⟩
    obtain ⟨e, he, rfl⟩ := List.mem_map.mp hq
    refine List.mem_map_of_mem (List.mem_filter.mpr ⟨he, decide_eq_true fun hname => ?_⟩)
    exact hne ((hs.ref_eq_iff hr he).mpr hname)

/-- Of the sessions of a call, all others are left. -/
theorem hasCall_hungUp (hs : s.Filed) (hr : s.Holds r) :
    (s.hungUp r).HasCall q c ↔ s.HasCall q c ∧ q ≠ r := by
  constructor
  · intro hcall
    obtain ⟨hholds, hne⟩ := (holds_hungUp hs hr).mp hcall.holds
    refine ⟨⟨hcall.nonempty, hholds, ?_⟩, hne⟩
    rw [← session_hungUp_of_ne hne]
    exact hcall.callId
  · rintro ⟨hcall, hne⟩
    refine ⟨hcall.nonempty, (holds_hungUp hs hr).mpr ⟨hcall.holds, hne⟩, ?_⟩
    rw [session_hungUp_of_ne hne]
    exact hcall.callId

end Stack

/-! ### Answers -/

/-- The status code of a response. -/
def Sip.Message.status? (m : Sip.Message) : Option Int :=
  match m.start with
  | .response code _ => some code
  | .request _ _ => none

theorem status?_byeAnswer (w : World E) (r : Ref) (request : Sip.Message) :
    (w.byeAnswer r request).1.status? = some 200 := by
  unfold World.byeAnswer
  split
  · rfl
  · rfl

/-- What is answered where no session belongs to a call. -/
def noSessionFor (c : Text) : Reply :=
  .outcome (.error ⟨.sessionNotFound, "No session for Call-ID " ++ c⟩)

section Answers

open Act

variable {N : Handler E} {w : World E} {r : Ref} {request : Sip.Message}

theorem receiveBye_of_not_isBye (h : request.isBye = false) :
    result N (carryOut (.receiveBye request)) w
        = .outcome (.error ⟨.invalidArgument, "Not a BYE request"⟩) ∧
      World.Yields w.stack [] w (after N (carryOut (.receiveBye request)) w) ∧
      (after N (carryOut (.receiveBye request)) w).client = w.client := by
  rw [carryOut, after_bind, after_emit, result_bind, after_emit, perform, Act.receiveBye, h]
  exact ⟨rfl, .emitted (.emit w rfl) rfl, rfl⟩

/-- A request for a call without sessions is answered, and that is all. -/
theorem receiveBye_of_unknown (hbye : request.isBye = true)
    (hnone : ∀ r, ¬w.stack.HasCall r request.callId) :
    result N (carryOut (.receiveBye request)) w = noSessionFor request.callId ∧
      World.Yields w.stack [.response none (unknownDialog request)] w
        (after N (carryOut (.receiveBye request)) w) := by
  have hfound : w.findByCall? request.callId = none := Stack.findByCall?_eq_none.mpr hnone
  rw [carryOut, after_bind, after_emit, result_bind, after_emit, perform, Act.receiveBye, hbye]
  simp only [Bool.not_true, Bool.false_eq_true, if_false, after_bind, result_bind,
    after_findByCall, result_findByCall, World.emit_findByCall, hfound, result_pure, after_pure,
    result_fail, after_fail, after_warn]
  refine ⟨rfl, ?_⟩
  have hwarned : World.Yields w.stack [] w ((w.emit (.asked (.receiveBye request))).emit
      (.log .warn ("BYE for unknown dialog " ++ request.callId))) :=
    .emitted (.emit w rfl) rfl
  have hsent := hwarned.hear (.sendResponse (N := N) none (unknownDialog request) _)
  exact (hsent.quiet (.warnOnFailure (N := N) _ _ _)).emitted rfl

/-- The world in which a request was received and is passed on to a session. -/
def World.passing (w : World E) (r : Ref) (request : Sip.Message) : World E :=
  (w.emit (.asked (.receiveBye request))).emit (.asked (.session r (.bye request)))

/-- A request for a call with sessions goes to one of them, of which nobody else hears. -/
theorem receiveBye_of_found (hbye : request.isBye = true)
    (hfound : w.findByCall? request.callId = some r) :
    World.Yields w.stack [] w (w.passing r request) ∧
      result N (carryOut (.receiveBye request)) w
        = .outcome (result N (bye r request) (w.passing r request)) ∧
      after N (carryOut (.receiveBye request)) w
        = after N (bye r request) (w.passing r request) := by
  refine ⟨.emitted (.emit w rfl) rfl, ?_⟩
  rw [carryOut, after_bind, after_emit, result_bind, after_emit, perform, Act.receiveBye, hbye]
  simp only [Bool.not_true, Bool.false_eq_true, if_false, after_bind, result_bind,
    after_findByCall, result_findByCall, World.emit_findByCall, hfound]
  exact ⟨rfl, rfl⟩

/-- What is answered to the caller is whether the session's response could be sent. -/
theorem result_receiveBye (hbye : request.isBye = true)
    (hfound : w.findByCall? request.callId = some r) :
    result N (carryOut (.receiveBye request)) w = .outcome (w.byeOutcome r request) := by
  rw [(receiveBye_of_found hbye hfound).2.1, result_bye]
  rfl

theorem Stack.Ready.receiveBye_of_transfer (hw : w.stack.Ready) (hquiet : E.HasDiscreetListeners)
    (hremoved : w.stack.watched = true → ∀ id, (E.removed id).Asks fun _ => False)
    (hbye : request.isBye = true) (hfound : w.findByCall? request.callId = some r)
    (htransfer : w.stack.isTransfer r = true) :
    World.Yields (w.stack.hungUp r)
      (.response (some r) (w.byeAnswer r request).1 ::
        callbacks r (w.stack.session r).contact (.aborted .byRemote)
          (w.stack.transfer r).listeners.members) w
      (after N (carryOut (.receiveBye request)) w) := by
  obtain ⟨hi, hstays⟩ := hw.live r (Stack.HasCall.ofFound hfound).holds htransfer
  obtain ⟨hasked, -, hafter⟩ := receiveBye_of_found (N := N) hbye hfound
  rw [hafter]
  exact hasked.trans (hquiet.hungUp_of_live (w := w.passing r request) hremoved request htransfer
    hi hstays)

theorem receiveBye_of_plain (hbye : request.isBye = true)
    (hfound : w.findByCall? request.callId = some r)
    (hplain : w.stack.isTransfer r = false) :
    World.Yields (w.stack.interrupt r) [.response (some r) (w.byeAnswer r request).1] w
      (after N (carryOut (.receiveBye request)) w) := by
  obtain ⟨hasked, -, hafter⟩ := receiveBye_of_found (N := N) hbye hfound
  have hanswered := bye_of_other (N := N) (w := w.passing r request) (r := r) request
    fun htransfer => absurd (show w.stack.isTransfer r = true from htransfer) (by simp [hplain])
  rw [hafter]
  exact hasked.trans hanswered.1

/-- Nothing is taken back as a session leaves, whatever the client does when it is told. -/
theorem grows_leave (levels : Nat) (w : World E) (r : Ref) :
    w.Grows (after (exec E levels) (leave r) w) := by
  have hlaws := World.Evolves.laws fun (w : World E) op => World.Evolves.exec levels w op
  exact (World.grows_leaving w r).trans (hlaws.toSteady.leave r w).grows

theorem removed_leave (levels : Nat) (hr : r < w.stack.sessions.size) :
    ((after (exec E levels) (leave r) w).stack.session r).removed = true := by
  have hlaws := World.Evolves.laws fun (w : World E) op => World.Evolves.exec levels w op
  exact (hlaws.toSteady.leave r w).grows.removed (World.removed_leaving hr)

end Answers

/-! ### One request -/

/-- Between two worlds the other party has ended a file transfer, which has answered `m`, has told
each of its listeners once, and has left.  The client, which is told of that in the end, may have
done more. -/
structure World.IsHungUp (r : Ref) (m : Sip.Message) (w w' : World E) : Prop where
  interrupted : (w'.stack.session r).interrupted = true
  removed : (w'.stack.session r).removed = true
  nodup : (w.stack.transfer r).listeners.members.Nodup
  said : ∃ T, FileSharing.said w'.trace = FileSharing.said w.trace ++ .response (some r) m ::
    (callbacks r (w.stack.session r).contact (.aborted .byRemote)
      (w.stack.transfer r).listeners.members ++ T)
  /-- The refresh is queued after all that the client does. -/
  refreshes : ∃ cs, w'.stack.refreshes = cs ++ [(w.stack.session r).contact]

open Act in
/-- A file transfer that lives is hung up, whatever the client does when it has left. -/
theorem Stack.Ready.isHungUp {w : World E} {r : Ref} {request : Sip.Message} (hw : w.stack.Ready)
    (hquiet : E.HasDiscreetListeners) (levels : Nat) (hbye : request.isBye = true)
    (hfound : w.findByCall? request.callId = some r) (htransfer : w.stack.isTransfer r = true) :
    w.IsHungUp r (w.byeAnswer r request).1
      (after (exec E levels) (carryOut (.receiveBye request)) w) := by
  have hsize := Stack.lt_size_of_isTransfer htransfer
  obtain ⟨hi, -⟩ := hw.live r (Stack.HasCall.ofFound hfound).holds htransfer
  obtain ⟨hasked, -, hafter⟩ := receiveBye_of_found (N := exec E levels) hbye hfound
  obtain ⟨w₁, hheard, hbye⟩ := hquiet.bye_of_live (N := exec E levels)
    (w := w.passing r request) request htransfer hi
  replace hheard := hasked.trans hheard
  have hgrows := grows_leave levels w₁ r
  have hinterrupted : (w₁.stack.session r).interrupted = true := by
    rw [hheard.stack]
    exact congrArg Session.interrupted (Stack.session_update_self hsize _)
  have hsize₁ : r < w₁.stack.sessions.size := World.Grows.lt_size_of_interrupted hinterrupted
  rw [hafter, hbye]
  obtain ⟨T, hT⟩ := said_of_prefix hgrows.trace
  refine ⟨hgrows.interrupted hinterrupted, removed_leave levels hsize₁, hw.nodup r, ⟨T, ?_⟩, _, rfl⟩
  rw [World.emit_trace, said_of_not_isSaid rfl, World.change_trace, hT, hheard.said,
    List.append_assoc]
  rfl

/-- **A request to end a dialog is answered once, and ends at most one file transfer**,
whatever has happened before and whether or not the answer can be sent.

What is no such request is refused, and changes nothing.  A request for a call without
sessions is answered that there is none, and changes nothing either.  Any other one is
answered by one session of the call, and a plain session is interrupted by it and does nothing
else.  A file transfer whose listeners do not use the stack meanwhile is interrupted and
leaves the registry, each of its listeners is told once, and a capability refresh is queued;
nothing else changes, unless the client wants to be told of sessions that leave and uses the
stack then. -/
theorem bye_answered_once (settings : Settings) (client : E.State) (depth levels : Nat)
    {α : Type} (p : Program E.State E.Note α) (request : Sip.Message) :
    let w := ((run E depth p).run (.start settings client)).2
    let answer := (exec E (levels + 1) (.receiveBye request)).run w
    w.Managed →
    (request.isBye = false →
      answer.1 = .outcome (.error ⟨.invalidArgument, "Not a BYE request"⟩) ∧
        answer.2.stack = w.stack ∧ answer.2.client = w.client ∧
        said answer.2.trace = said w.trace) ∧
    (request.isBye = true → (∀ r, ¬w.stack.HasCall r request.callId) →
      answer.1 = noSessionFor request.callId ∧ answer.2.stack = w.stack ∧
        ∃ m, m.status? = some 481 ∧
          said answer.2.trace = said w.trace ++ [.response none m]) ∧
    (request.isBye = true → (∃ r, w.stack.HasCall r request.callId) →
      ∃ r m, w.stack.HasCall r request.callId ∧ m.status? = some 200 ∧
        answer.1 = .outcome (w.byeOutcome r request) ∧
        (w.stack.isTransfer r = false →
          answer.2.stack = w.stack.interrupt r ∧
          said answer.2.trace = said w.trace ++ [.response (some r) m]) ∧
        (w.stack.isTransfer r = true → E.HasDiscreetListeners →
          w.IsHungUp r m answer.2 ∧ (answer.2.Managed → ¬answer.2.stack.Holds r) ∧
          ((w.stack.watched = true → ∀ id, (E.removed id).Asks fun _ => False) →
            answer.2.stack = w.stack.hungUp r ∧
            (∀ q, answer.2.stack.Holds q ↔ w.stack.Holds q ∧ q ≠ r) ∧
            said answer.2.trace = said w.trace ++ .response (some r) m ::
              callbacks r (w.stack.session r).contact (.aborted .byRemote)
                (w.stack.transfer r).listeners.members))) := by
  intro w answer hmanaged
  have hready : w.stack.Ready := ready_run settings client depth p hmanaged
  refine ⟨fun hbye => ?_, fun hbye hnone => ?_, fun hbye ⟨r₀, hcall⟩ => ?_⟩
  · obtain ⟨hresult, hyields, hclient⟩ := receiveBye_of_not_isBye (N := exec E levels) (w := w) hbye
    exact ⟨hresult, hyields.stack, hclient, hyields.said.trans (List.append_nil _)⟩
  · obtain ⟨hresult, hyields⟩ := receiveBye_of_unknown (N := exec E levels) hbye hnone
    exact ⟨hresult, hyields.stack, _, rfl, hyields.said⟩
  · cases hfound : w.findByCall? request.callId with
    | none => exact absurd hcall (Stack.findByCall?_eq_none.mp hfound r₀)
    | some r =>
      have hcall' := Stack.HasCall.ofFound hfound
      refine ⟨r, _, hcall', status?_byeAnswer w r request,
        result_receiveBye (N := exec E levels) hbye hfound, fun hplain => ?_,
        fun htransfer hquiet => ?_⟩
      · have hyields := receiveBye_of_plain (N := exec E levels) hbye hfound hplain
        exact ⟨hyields.stack, hyields.said⟩
      · have hended : w.IsHungUp r _ answer.2 :=
          hready.isHungUp hquiet levels hbye hfound htransfer
        have hstart : (World.start settings client).Evolves w := .run depth p _
        have hevolves : w.Evolves answer.2 := .exec (levels + 1) w (.receiveBye request)
        refine ⟨hended, fun hmanaged' hholds => ?_, fun hremoved => ?_⟩
        · have htransfer' := hevolves.grows.isTransfer htransfer
          exact hmanaged'.not_isStale (hstart.trans hevolves) htransfer' ⟨hholds, hended.removed⟩
        have hyields := hready.receiveBye_of_transfer (N := exec E levels) hquiet hremoved hbye
          hfound htransfer
        refine ⟨hyields.stack, fun q => ?_, hyields.said⟩
        rw [show answer.2.stack = w.stack.hungUp r from hyields.stack]
        exact Stack.holds_hungUp hready.filed hcall'.holds

/-- What is invited to a transfer in a dialog of the call `call`. -/
def invitation (id : Text) : Invitation :=
  { contact := ⟨"+33612345678"⟩, uri := [], content := .empty, icon := none, contribution := [],
    id := id, timestamp := 1, fileExpiry := 0, iconExpiry := 0,
    dialog := some (.start "call" "sip:me@home" "sip:you@home" "l" "r" 1) }

/-- Invitations of one call are received, one after another. -/
def receiveInvitations : List Text → Program Unit Unit Unit
  | [] => .done ()
  | id :: ids => .call (.service (.invite (invitation id))) fun _ => receiveInvitations ids

def endOfCall : Sip.Message :=
  (Sip.Message.request .bye "sip:me@home").withHeaders fun h =>
    h.set "From" "<sip:you@home>;tag=r"
      |>.set "To" "<sip:me@home>;tag=l"
      |>.set "Call-ID" "call"
      |>.set "CSeq" "2 BYE"

/-- The world after invitations of one call were received. -/
def invited (ids : List Text) : World (.obliging fun _ _ _ => .done none) :=
  ((run (.obliging fun _ _ _ => .done none) 1 (receiveInvitations ids)).run (.start .default ())).2

theorem isDiscreet_obliging : (Environment.obliging fun _ _ _ => .done none).IsDiscreet :=
  ⟨fun _ _ => trivial, fun _ => trivial⟩

theorem hasCall_invited_iff (r : Ref) :
    (invited ["a"]).stack.HasCall r endOfCall.callId ↔ r = 0 := by
  constructor
  · intro hr
    have hregistry : (invited ["a"]).stack.registry.map Prod.snd = [0] := by decide +kernel
    have hholds : r ∈ (invited ["a"]).stack.registry.map Prod.snd := hr.holds
    rw [hregistry] at hholds
    exact List.mem_singleton.mp hholds
  · rintro rfl
    exact ⟨by decide +kernel, by decide +kernel, by decide +kernel⟩

/-- The only transfer of the call is ended. -/
theorem bye_answered_once_invited :
    (invited ["a"]).Managed ∧ endOfCall.isBye = true ∧
      (invited ["a"]).stack.HasCall 0 endOfCall.callId ∧
      ((exec _ (0 + 1) (.receiveBye endOfCall)).run (invited ["a"])).2.stack
        = (invited ["a"]).stack.hungUp 0 := by
  have hmanaged : (invited ["a"]).Managed := by decide +kernel
  have hbye : endOfCall.isBye = true := by decide +kernel
  have hcall := (hasCall_invited_iff 0).mpr rfl
  have hkind : (invited ["a"]).stack.isTransfer 0 = true := by decide +kernel
  obtain ⟨r, m, hcall', -, -, -, htransfer⟩ := (bye_answered_once
    (E := .obliging fun _ _ _ => .done none) .default () 1 0 (receiveInvitations ["a"]) endOfCall
    hmanaged).2.2 hbye ⟨0, hcall⟩
  obtain rfl : r = 0 := (hasCall_invited_iff r).mp hcall'
  rw [← invited] at htransfer
  have hended := (htransfer hkind isDiscreet_obliging.hasDiscreetListeners).2.2
    fun _ => isDiscreet_obliging.removed
  exact ⟨hmanaged, hbye, hcall, hended.1⟩

/-- A client that gives its second session up when it is told that one has left. -/
def Environment.forsaking : Environment :=
  { Environment.obliging (fun _ _ _ => .done none) with
    removed := fun _ => .call (.transfer 1 (.abort .byUser)) fun _ => .done () }

/-- The client wants to hear of departures, and is invited in two calls. -/
def receiveTwoCalls : Program Unit Unit Unit :=
  .call (.watch true) fun _ =>
  .call (.service (.invite (invitation "a"))) fun _ =>
  .call (.service (.invite { invitation "b" with
    dialog := some (.start "other" "sip:me@home" "sip:you@home" "l" "q" 1) })) fun _ => .done ()

/-- The request that ends the one call makes this client end the other one as well. -/
theorem not_bye_answered_once_forsaking :
    let w := ((run .forsaking 1 receiveTwoCalls).run (.start .default ())).2
    let w' := ((exec .forsaking 2 (.receiveBye endOfCall)).run w).2
    w.Managed ∧ Environment.forsaking.HasDiscreetListeners ∧ endOfCall.isBye = true ∧
      w.stack.HasCall 0 endOfCall.callId ∧ ¬w.stack.HasCall 1 endOfCall.callId ∧
      w.stack.registry.map Prod.snd = [1, 0] ∧ w'.stack.registry = [] ∧
      (w.stack.session 1).interrupted = false ∧ (w'.stack.session 1).interrupted = true ∧
      (w'.trace.filterMap fun e => match e with
        | .response q m => some (q, m.status?)
        | .request q m => some (some q, m.status?)
        | _ => none) = [(some 0, some 200), (some 1, none)] := by
  refine ⟨by decide +kernel, fun _ _ => trivial, by decide +kernel, ?_, ?_, by decide +kernel⟩
  · exact ⟨by decide +kernel, by decide +kernel, by decide +kernel⟩
  · intro hcall
    exact absurd hcall.callId (by decide +kernel)

/-! ### The same request again -/

/-- At most one registered session belongs to a call. -/
def Stack.AtMostOneHas (s : Stack) (c : Text) : Prop :=
  ∀ r q, s.HasCall r c → s.HasCall q c → r = q

/-- When a file transfer has been ended, no session of its call is left exactly where there was
at most one. -/
theorem Stack.not_hasCall_hungUp_iff {s : Stack} {r : Ref} {c : Text} (hs : s.Filed)
    (hr : s.HasCall r c) : (∀ q, ¬(s.hungUp r).HasCall q c) ↔ s.AtMostOneHas c := by
  constructor
  · intro hnone q q' hq hq'
    have heq : ∀ q, s.HasCall q c → q = r := by
      intro q hq
      by_contra hne
      exact hnone q ((hasCall_hungUp hs hr.holds).mpr ⟨hq, hne⟩)
    rw [heq q hq, heq q' hq']
  · intro honly q hq
    obtain ⟨hcall, hne⟩ := (hasCall_hungUp hs hr.holds).mp hq
    exact hne (honly q r hcall hr)

/-- Where a file transfer has been ended, all others that are registered still live. -/
theorem Stack.Ready.hungUp {s : Stack} {r : Ref} (hs : s.Ready) (hr : s.Holds r) :
    (s.hungUp r).Ready where
  filed := by
    have hsub : (s.hungUp r).registry.Sublist s.registry := List.filter_sublist
    refine ⟨hs.filed.nodup.sublist (hsub.map _), fun e he => ?_, fun e he => ?_⟩
    · exact Nat.lt_of_lt_of_eq (hs.filed.made e (hsub.subset he)) (size_update _).symm
    · rw [← hs.filed.name e (hsub.subset he)]
      exact apply_session_update Session.id fun _ => rfl
  live q hq htransfer := by
    obtain ⟨hholds, hne⟩ := (holds_hungUp hs.filed hr).mp hq
    rw [isTransfer_eq, session_hungUp_of_ne hne, ← isTransfer_eq] at htransfer
    rw [session_hungUp_of_ne hne]
    exact hs.live q hholds htransfer
  nodup q := by
    have hsame : (s.hungUp r).transfer q = s.transfer q :=
      apply_session_update (fun x => x.transfer.getD default) fun _ => rfl
    rw [hsame]
    exact hs.nodup q

theorem Stack.Ready.said_of_found {N : Handler E} {w : World E} {request : Sip.Message} {r : Ref}
    (hw : w.stack.Ready) (hdiscreet : E.IsDiscreet) (hbye : request.isBye = true)
    (hfound : w.findByCall? request.callId = some r) :
    ∃ T, said (Act.after N (Act.carryOut (.receiveBye request)) w).trace
      = said w.trace ++ .response (some r) (w.byeAnswer r request).1 :: T := by
  cases hkind : w.stack.isTransfer r with
  | true =>
    have hyields := hw.receiveBye_of_transfer (N := N) hdiscreet.hasDiscreetListeners
      (fun _ => hdiscreet.removed) hbye hfound hkind
    exact ⟨_, hyields.said⟩
  | false => exact ⟨_, (receiveBye_of_plain hbye hfound hkind).said⟩

/-- A file transfer that lives has left when it has been asked to end its dialog, whatever is
done while others are told. -/
theorem removed_of_receiveBye {w : World E} {request : Sip.Message} {r : Ref} (levels : Nat)
    (hbye : request.isBye = true) (hfound : w.findByCall? request.callId = some r)
    (htransfer : w.stack.isTransfer r = true) (hi : (w.stack.session r).interrupted = false) :
    (((exec E (levels + 1) (.receiveBye request)).run w).2.stack.session r).removed = true := by
  have hlaws := World.Evolves.laws fun (w : World E) op => World.Evolves.exec levels w op
  obtain ⟨-, -, hafter⟩ := receiveBye_of_found (N := exec E levels) hbye hfound
  show ((Act.after (exec E levels) (Act.carryOut (.receiveBye request)) w).stack.session r).removed
    = true
  rw [hafter]
  have hcourse := hlaws.toAmbient.bye request (w.passing r request) htransfer
  have hlast : (w.stack.life r).byeTurn.IsLast := by
    rw [Life.byeTurn, Life.unlessEnded_of_live hi]
    trivial
  exact hcourse.removed World.Evolves.grows World.Evolves.grows hlast
    (Stack.lt_size_of_isTransfer htransfer)

/-- The only session of a call has left the call when it has been asked to end its dialog. -/
theorem not_hasCall_after_bye {settings : Settings} {client : E.State} {w : World E}
    {request : Sip.Message} {r : Ref} (levels : Nat)
    (hstart : (World.start settings client).Evolves w) (hready : w.stack.Ready)
    (hbye : request.isBye = true) (hcall : w.stack.HasCall r request.callId)
    (htransfer : w.stack.isTransfer r = true) (honly : w.stack.AtMostOneHas request.callId) :
    let w' := ((exec E (levels + 1) (.receiveBye request)).run w).2
    w'.Managed → ¬w'.stack.HasCall r request.callId := by
  intro w' hmanaged hcall'
  cases hfound : w.findByCall? request.callId with
  | none => exact Stack.findByCall?_eq_none.mp hfound r hcall
  | some q =>
    -- the session that is asked is this one, so it has left
    obtain rfl : r = q := honly r q hcall (Stack.HasCall.ofFound hfound)
    have hlive := hready.live r hcall.holds htransfer
    have hgone : (w'.stack.session r).removed = true :=
      removed_of_receiveBye levels hbye hfound htransfer hlive.1
    have hevolves : w.Evolves w' := .exec (levels + 1) w (.receiveBye request)
    have htransfer' : w'.stack.isTransfer r = true := hevolves.grows.isTransfer htransfer
    exact hmanaged.not_isStale (hstart.trans hevolves) htransfer' ⟨hcall'.holds, hgone⟩

/-- Where nobody uses the stack while being told, of the sessions of a call only the one that is
asked leaves. -/
theorem Stack.Ready.after_receiveBye {N : Handler E} {w : World E} {request : Sip.Message}
    (hw : w.stack.Ready) (hdiscreet : E.IsDiscreet) (hbye : request.isBye = true)
    (hkind : ∀ r, w.stack.HasCall r request.callId → w.stack.isTransfer r = true) :
    let w' := Act.after N (Act.carryOut (.receiveBye request)) w
    w'.stack.Ready ∧
      ((∀ r, ¬w'.stack.HasCall r request.callId) ↔ w.stack.AtMostOneHas request.callId) := by
  intro w'
  cases hfound : w.findByCall? request.callId with
  | none =>
    have hunknown := Stack.findByCall?_eq_none.mp hfound
    have hstack : w'.stack = w.stack := (receiveBye_of_unknown hbye hunknown).2.stack
    rw [hstack]
    exact ⟨hw, fun _ r _ hr => absurd hr (hunknown r), fun _ => hunknown⟩
  | some r =>
    have hcall := Stack.HasCall.ofFound hfound
    have hstack : w'.stack = w.stack.hungUp r :=
      (hw.receiveBye_of_transfer hdiscreet.hasDiscreetListeners (fun _ => hdiscreet.removed) hbye
        hfound (hkind r hcall)).stack
    rw [hstack]
    exact ⟨hw.hungUp hcall.holds, Stack.not_hasCall_hungUp_iff hw.filed hcall⟩

/-- **A request to end a dialog leaves no session of its call where there was at most one**, as
long as none joins the call meanwhile, and then the same request is answered as for a call
without sessions.  Where nobody uses the stack while being told, none joins the call, and so
this is exactly where there was at most one. -/
theorem bye_final_iff (settings : Settings) (client : E.State) (depth levels : Nat) {α : Type}
    (p : Program E.State E.Note α) (request : Sip.Message) :
    let w := ((run E depth p).run (.start settings client)).2
    let w' := ((exec E (levels + 1) (.receiveBye request)).run w).2
    let again := (exec E (levels + 1) (.receiveBye request)).run w'
    let isUnknown := again.1 = noSessionFor request.callId ∧
      ∃ m, m.status? = some 481 ∧ said again.2.trace = said w'.trace ++ [.response none m]
    w.Managed → request.isBye = true →
      (∀ r, w.stack.HasCall r request.callId → w.stack.isTransfer r = true) →
      (w'.Managed → (∀ r, w'.stack.HasCall r request.callId → w.stack.HasCall r request.callId) →
        w.stack.AtMostOneHas request.callId →
          (∀ r, ¬w'.stack.HasCall r request.callId) ∧ isUnknown) ∧
      (E.IsDiscreet →
        ((∀ r, ¬w'.stack.HasCall r request.callId) ↔ w.stack.AtMostOneHas request.callId) ∧
        (isUnknown ↔ w.stack.AtMostOneHas request.callId)) := by
  intro w w' again isUnknown hmanaged hbye hkind
  have hready : w.stack.Ready := ready_run settings client depth p hmanaged
  have hagain : (∀ r, ¬w'.stack.HasCall r request.callId) → isUnknown := by
    intro hunknown
    obtain ⟨hresult, hyields⟩ := receiveBye_of_unknown (N := exec E levels) hbye hunknown
    exact ⟨hresult, _, rfl, hyields.said⟩
  refine ⟨fun hmanaged' hjoined honly => ?_, fun hdiscreet => ?_⟩
  · have hstart : (World.start settings client).Evolves w := .run depth p _
    have hnone : ∀ r, ¬w'.stack.HasCall r request.callId := by
      intro r hcall'
      have hcall := hjoined r hcall'
      exact not_hasCall_after_bye levels hstart hready hbye hcall (hkind r hcall) honly hmanaged'
        hcall'
    exact ⟨hnone, hagain hnone⟩
  · obtain ⟨hready', hnone⟩ :=
      hready.after_receiveBye (N := exec E levels) hdiscreet hbye hkind
    refine ⟨hnone, Iff.trans ⟨?_, hagain⟩ hnone⟩
    rintro ⟨-, m, -, hsaid⟩
    -- had a session answered, the response would be in its name
    refine Stack.findByCall?_eq_none.mp (Option.eq_none_iff_forall_ne_some.mpr fun r hfound => ?_)
    obtain ⟨T, hanswered⟩ := hready'.said_of_found (N := exec E levels) hdiscreet hbye hfound
    have hresponses := List.append_cancel_left (hanswered.symm.trans hsaid)
    obtain ⟨hresponse, -⟩ := List.cons.inj hresponses
    exact absurd hresponse (by simp)

/-- Where one invitation was received, the call is over. -/
theorem bye_final_iff_invited :
    let w' := ((exec _ (0 + 1) (.receiveBye endOfCall)).run (invited ["a"])).2
    (invited ["a"]).Managed ∧ w'.Managed ∧ endOfCall.isBye = true ∧
      (invited ["a"]).stack.HasCall 0 endOfCall.callId ∧
      (∀ r, w'.stack.HasCall r endOfCall.callId →
        (invited ["a"]).stack.HasCall r endOfCall.callId) ∧
      (invited ["a"]).stack.AtMostOneHas endOfCall.callId ∧
      (∀ r, ¬w'.stack.HasCall r endOfCall.callId) ∧
      ((exec _ (0 + 1) (.receiveBye endOfCall)).run w').1 = noSessionFor endOfCall.callId := by
  intro w'
  have hmanaged : (invited ["a"]).Managed := by decide +kernel
  have hmanaged' : w'.Managed := by decide +kernel
  have hbye : endOfCall.isBye = true := by decide +kernel
  have hkind : (invited ["a"]).stack.isTransfer 0 = true := by decide +kernel
  have hempty : w'.stack.registry = [] := by decide +kernel
  have hone := fun r => (hasCall_invited_iff r).mp
  have honly : (invited ["a"]).stack.AtMostOneHas endOfCall.callId :=
    fun r q hr hq => (hone r hr).trans (hone q hq).symm
  have hjoined : ∀ r, w'.stack.HasCall r endOfCall.callId →
      (invited ["a"]).stack.HasCall r endOfCall.callId := by
    intro r hr
    have hholds : r ∈ w'.stack.registry.map Prod.snd := hr.holds
    rw [hempty] at hholds
    exact absurd hholds List.not_mem_nil
  have hfinal := bye_final_iff (E := .obliging fun _ _ _ => .done none) .default () 1 0
    (receiveInvitations ["a"]) endOfCall hmanaged hbye fun r hr => hone r hr ▸ hkind
  rw [← invited] at hfinal
  have hnone := (hfinal.2 isDiscreet_obliging).1.mpr honly
  exact ⟨hmanaged, hmanaged', hbye, (hasCall_invited_iff 0).mpr rfl, hjoined, honly, hnone,
    (hfinal.1 hmanaged' hjoined honly).2.1⟩

/-- Where two invitations of one call were received, one of them is left. -/
theorem not_bye_final_invited :
    (invited ["a", "b"]).Managed ∧ endOfCall.isBye = true ∧ endOfCall.callId ≠ [] ∧
      ((exec _ 1 (.receiveBye endOfCall)).run (invited ["a", "b"])).2.stack.isTransfer 0 = true ∧
      ((exec _ 1 (.receiveBye endOfCall)).run (invited ["a", "b"])).2.stack.HasCall 0
        endOfCall.callId := by
  refine ⟨by decide +kernel, rfl, by decide +kernel, by decide +kernel, ?_⟩
  exact ⟨by decide +kernel, by decide +kernel, by decide +kernel⟩

end FileSharing
