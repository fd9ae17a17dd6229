import FileSharing.Proofs.Settling

/-!
# Sessions in the registry

A session that a service returns has entered the registry.  From then on the registry
knows it under its name until it is interrupted, and it is interrupted if and only if
it has left: whatever fails on the way, no session is lost and none is left behind.

## Main results

* `registered_of_serve` — a session that a service returns has entered the registry.
* `registered_iff_live` — **between operations, sessions are registered as long as
  they are not interrupted.**
-/

namespace FileSharing

variable {E : Environment} {N : Handler E} {w : World E} {r : Ref}

/-! ### Sessions that are returned -/

section Returned

open Act

variable {R : World E → World E → Prop}

/-- An operation on a transfer does not answer with a session. -/
theorem result_askTransfer_ne (op : TransferOp) (o : Outcome Ref) :
    result N (Act.askTransfer r op) w ≠ .session o := by
  rw [Act.askTransfer, result_bind]
  cases op with
  | setClock | start | accept | reject =>
    rw [Act.onTransfer, result_bind]
    split
    · simp
    · simp
  | _ => simp [Act.onTransfer]

theorem result_withTransfer_ne (id : Text) (op : TransferOp) (o : Outcome Ref) :
    result N (Act.withTransfer id op) w ≠ .session o := by
  rw [Act.withTransfer, result_bind]
  split
  · exact result_askTransfer_ne op o
  · simp

theorem result_withInvitation_ne (id : Text) (op : TransferOp) (o : Outcome Ref) :
    result N (Act.withInvitation id op) w ≠ .session o := by
  rw [Act.withInvitation, result_bind]
  split
  · exact result_askTransfer_ne op o
  · simp

theorem result_launch {q : Ref} (h : result N (Act.launch r) w = .ok q) : q = r := by
  rw [Act.launch, result_bind, result_bind] at h
  split at h
  · exact (Except.ok.inj h).symm
  · exact absurd h (by simp)

/-- The session that is returned has entered, whatever followed on that. -/
theorem registered_of_created {contact : Contact} {c : Content} {P : Session → Prop}
    {go : Ref → Act E (Outcome Ref)} {o : Outcome Ref} {w' : World E}
    (hcreation : Creation N contact c P go w o w')
    (hgo : ∀ {q : Ref} {w : World E}, w.stack.isTransfer q = true → P (w.stack.session q) →
      w.Grows (after N (go q) w))
    (hname : ∀ {q : Ref} {w : World E}, result N (go q) w = .ok r → r = q) (ho : o = .ok r) :
    Registered r w'.trace := by
  cases hcreation with
  | refused => exact absurd ho (by simp)
  | taken => exact absurd ho (by simp)
  | @entered q w₁ hprepared hP hfree line =>
    obtain ⟨w₀, -, hmade, -⟩ := hprepared
    obtain rfl : r = q := hname ho
    -- it has entered before anything follows, and that cannot be taken back
    have hentered : Registered r (w₁.enrolling r).trace :=
      ⟨_, List.mem_append_left _ (List.mem_append_right _ List.mem_cons_self)⟩
    have hgone := hgo (w := (w₁.enrolling r).emit (.log .info line)) hmade.kind hP
    exact hentered.mono ((World.Grows.emit _ _).trans hgone).trace

/-- A session that a service returns has entered the registry. -/
theorem registered_of_serve (hrules : Rules N R) {op : ServiceOp}
    (h : result N (Act.serve op) w = .session (.ok r)) :
    Registered r (after N (Act.serve op) w).trace := by
  cases op with
  | send contact content icon =>
    refine registered_of_created (Act.creation_sendFile contact content icon w) ?_ result_launch
      (Reply.session.inj h)
    exact fun hq hupload => hrules.grows (hrules.launch hq hupload.role)
  | invite i =>
    refine registered_of_created (Act.creation_invite i w) (fun _ _ => .refl _) ?_
      (Reply.session.inj h)
    exact fun hq => (Except.ok.inj hq).symm
  | accept id | reject id => exact absurd h (result_withInvitation_ne id _ _)
  | pause id | resume id | abort id => exact absurd h (result_withTransfer_ne id _ _)
  | _ => simp [Act.serve] at h

end Returned

/-! ### Runs -/

/-- An operation with its nested ones leaves no session on its way out. -/
theorem settles_exec (depth : Nat) (w : World E) (op : Op) :
    w.Settles (fun _ => True) ((exec E depth op).run w).2 :=
  Laws.exec .refl (fun _ h => World.Settles.laws h) depth w op

/-- A session that a service returns has entered the registry. -/
theorem registered_of_returned {depth : Nat} {op : ServiceOp}
    (h : ((exec E depth (.service op)).run w).1 = .session (.ok r)) :
    Registered r ((exec E depth (.service op)).run w).2.trace := by
  cases depth with
  | zero => exact absurd h (by simp [exec])
  | succ depth => exact registered_of_serve (World.Settles.laws (settles_exec depth)).rules h

/-- What an operation has left in the trace is the beginning of what a run leaves that
begins with it. -/
theorem trace_prefix_of_call {α : Type} {p : Program E.State E.Note α} {op : Op}
    {next : Reply → Program E.State E.Note α} (hp : p = .call op next) (depth : Nat) (w : World E) :
    ((exec E depth op).run w).2.trace <+: ((run E depth p).run w).2.trace := by
  subst hp
  exact ((World.Settles.laws (settles_exec depth)).toSteady.play (next _) _).grows.trace

/-- Before anything has happened, everything is in order. -/
theorem orderly_start (settings : Settings) (client : E.State) :
    (World.start settings client : World E).Orderly := by
  rintro r ⟨id, hid⟩
  exact absurd hid List.not_mem_nil

/-- **Between operations, sessions are registered as long as they are not
interrupted**, and a session that is interrupted has left.  This is so for all that
have entered the registry, and with them for all that a service has returned on the
way, to the client or to a listener. -/
theorem registered_iff_live (settings : Settings) (client : E.State) (depth : Nat) {α : Type}
    (p : Program E.State E.Note α) :
    let w := ((run E depth p).run (.start settings client)).2
    (∀ depth (w₁ : World E) op r, ((exec E depth (.service op)).run w₁).1 = .session (.ok r) →
      ((exec E depth (.service op)).run w₁).2.trace <+: w.trace → Registered r w.trace) ∧
    (Disciplined w.trace → ∀ r, Registered r w.trace →
      (w.stack.find? (w.stack.session r).id = some r ↔ (w.stack.session r).interrupted = false) ∧
      ((w.stack.session r).interrupted = true ↔ (w.stack.session r).removed = true)) := by
  intro w
  refine ⟨fun depth w₁ op r hreturned hearlier => ?_, fun hd r hr => ?_⟩
  · exact (registered_of_returned hreturned).mono hearlier
  · have hrun : (World.start settings client).Settles (fun _ => True) w :=
      (World.Settles.laws (settles_exec depth)).toSteady.play p _
    have hstart := orderly_start (E := E) settings client
    have hplace := hrun.orderly hd hstart r hr
    have hleft : (w.stack.session r).interrupted = true → (w.stack.session r).removed = true := by
      intro hi
      by_contra hstays
      have hleaving := hrun.settled hd hstart r trivial ⟨hr, hi, Bool.eq_false_iff.mpr hstays⟩
      obtain ⟨id, hid⟩ := hleaving.registered
      exact absurd hid List.not_mem_nil
    have hiff : (w.stack.session r).interrupted = true ↔ (w.stack.session r).removed = true :=
      ⟨hleft, hplace.interrupted⟩
    refine ⟨?_, hiff⟩
    rw [hplace.found, Bool.eq_false_iff, Bool.eq_false_iff, Ne, Ne, hiff]

/-- A file is sent, and its transfer is given up. -/
def sendAndAbort : Program Unit Unit Unit :=
  .call (.service (.send ⟨"+33612345678"⟩ .empty none)) fun _ =>
  .call (.service (.abort "transfer")) fun _ => .done ()

/-- A transfer that is given up has left the registry. -/
theorem registered_iff_live_sendAndAbort :
    let w := ((run (.obliging fun _ _ _ => .done none) 2 sendAndAbort).run
      (.start .default ())).2
    Disciplined w.trace ∧ Registered 0 w.trace ∧ (w.stack.session 0).removed = true ∧
      (w.stack.find? (w.stack.session 0).id = some 0 ↔
        (w.stack.session 0).interrupted = false) ∧
      ((w.stack.session 0).interrupted = true ↔ (w.stack.session 0).removed = true) := by
  intro w
  have hd : Disciplined w.trace := by decide +kernel
  have hleft : (w.stack.session 0).removed = true := by decide +kernel
  have hrun := registered_iff_live (E := .obliging fun _ _ _ => .done none) .default () 2
    sendAndAbort
  have hreturned : ((exec (.obliging fun _ _ _ => .done none) 2
      (.service (.send ⟨"+33612345678"⟩ .empty none))).run (.start .default ())).1
        = .session (.ok 0) := rfl
  have hearlier := trace_prefix_of_call (E := .obliging fun _ _ _ => .done none) (p := sendAndAbort)
    rfl 2 (.start .default ())
  have hr : Registered 0 w.trace := hrun.1 2 _ _ 0 hreturned hearlier
  exact ⟨hd, hr, hleft, hrun.2 hd 0 hr⟩

end FileSharing
