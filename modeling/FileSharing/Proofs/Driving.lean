import FileSharing.Proofs.Conduct

/-!
# How the control of a transfer is driven

A session calls the control of its transfer by a protocol, whatever its client, the
engine and the other party do: the control is started until that succeeds once, it is
paused and resumed while data flows, and it is told once that the transfer is given up,
after which it is left alone.  A download that can expire is started and resumed only
when the clock has just said that it has not.

## Main definitions

* `Obeys` — that each event of a history is admissible after those before it.
* `MayCall`, `Protocol` — when the control of a session may be called.
* `World.Driven` — what a session remembers of the calls so far.

## Main results

* `World.Drives.conduct` — the conduct of a session keeps to the protocol.
* `control_protocol` — **the calls of a control obey the protocol**, in every run.
-/

namespace FileSharing

variable {E : Environment}

/-! ### Histories -/

section Histories

variable {α : Type} {P : List α → α → Prop} {T T' : List α}

/-- Each event of a history is admissible after those before it. -/
def Obeys (P : List α → α → Prop) (T : List α) : Prop := ∀ A e B, T = A ++ e :: B → P A e

theorem Obeys.nil : Obeys P [] := by
  intro A e B h
  simp at h

theorem Obeys.of_append (h : Obeys P (T ++ T')) : Obeys P T := by
  intro A e B hA
  exact h A e (B ++ T') (by rw [hA, List.append_assoc, List.cons_append])

theorem Obeys.concat (h : Obeys P T) {e : α} (he : P T e) : Obeys P (T ++ [e]) := by
  intro A e' B hsplit
  -- the event in question is the last one, or it is one of those before
  rcases List.eq_nil_or_concat B with rfl | ⟨B', b, rfl⟩
  · obtain ⟨rfl, hlast⟩ := List.append_inj' hsplit rfl
    exact List.singleton_inj.mp hlast ▸ he
  · have hsplit' : T ++ [e] = (A ++ e' :: B') ++ [b] := by simpa using hsplit
    exact h A e' B' (List.append_inj' hsplit' rfl).1

theorem Obeys.append (h : Obeys P T) (hT' : ∀ A, ∀ e ∈ T', P A e) : Obeys P (T ++ T') := by
  induction T' generalizing T with
  | nil => simpa using h
  | cons e T' ih =>
    rw [List.append_cons]
    refine ih (h.concat (hT' T e List.mem_cons_self)) fun A e' he' => ?_
    exact hT' A e' (List.mem_cons_of_mem e he')

end Histories

/-! ### The protocol -/

section Protocol

variable {ν : Type} {r : Ref} {t : Terms} {T : List (Event ν)}

/-- A session has taken the engine's report that data flows. -/
def Started (r : Ref) (T : List (Event ν)) : Prop :=
  ∃ A B, JustAsked r (.engine .started) A ∧ T = A ++ .established r :: B

/-- When a session may call the control of its transfer, after what has happened. -/
def MayCall (r : Ref) (t : Terms) (T : List (Event ν)) : ControlCall → Prop
  | .start => .interrupted r ∉ T ∧ (∀ n, .controlDone r n .start true ∉ T) ∧ InTime r t T
  | .pause => .interrupted r ∉ T ∧ Started r T
  | .resume => .interrupted r ∉ T ∧ Started r T ∧ InTime r t T
  | .cancel => JustGivenUp r T

/-- What may happen next, as far as the control of a session is concerned: it is not
called once it was told that the transfer is given up, it is started with success at
most once, and the session is interrupted at most once. -/
def Protocol (r : Ref) (t : Terms) (T : List (Event ν)) : Event ν → Prop
  | .control s _ call => s = r → MayCall r t T call ∧ ∀ n, .control r n .cancel ∉ T
  | .controlDone s _ .start true => s = r → ∀ n, .controlDone r n .start true ∉ T
  | .interrupted s => s = r → .interrupted r ∉ T
  | _ => True

/-- Whether the protocol has something to say on an event. -/
def Event.IsDriving (r : Ref) : Event ν → Prop
  | .control s _ _ => s = r
  | .controlDone s _ .start true => s = r
  | .interrupted s => s = r
  | _ => False

theorem protocol_of_not_isDriving {e : Event ν} (he : ¬e.IsDriving r) : Protocol r t T e := by
  cases e with
  | control s n call => exact fun hs => absurd hs he
  | controlDone s n call succeeded =>
    cases call with
    | start =>
      cases succeeded with
      | true => exact fun hs => absurd hs he
      | false => trivial
    | _ => trivial
  | interrupted s => exact fun hs => absurd hs he
  | _ => trivial

theorem Event.IsMinor.not_isDriving {e : Event ν} (he : e.IsMinor) : ¬e.IsDriving r := by
  cases e with
  | control s n call => exact absurd he not_false
  | controlDone s n call succeeded => exact absurd he not_false
  | interrupted s => exact absurd he not_false
  | _ => exact not_false

theorem Started.append (h : Started r T) (T' : List (Event ν)) : Started r (T ++ T') := by
  obtain ⟨A, B, hasked, rfl⟩ := h
  exact ⟨A, B ++ T', hasked, by simp⟩

/-- A transfer is given up when its session is interrupted. -/
theorem Obeys.interrupted_of_cancel (h : Obeys (Protocol r t) T) {n : Nat}
    (hcancel : .control r n .cancel ∈ T) : .interrupted r ∈ T := by
  obtain ⟨A, B, rfl⟩ := List.append_of_mem hcancel
  obtain ⟨A', op, reason, a, b, -, -, -, -, rfl⟩ := (h A _ B rfl rfl).1
  simp

/-- A transfer that was just given up has not been so before. -/
theorem Obeys.cancel_not_mem (h : Obeys (Protocol r t) T) (hgiven : JustGivenUp r T) (n : Nat) :
    .control r n .cancel ∉ T := by
  obtain ⟨A, op, reason, a, b, -, -, ha, hb, rfl⟩ := hgiven
  have hfirst : .interrupted r ∉ A := h A (.interrupted r) _ rfl rfl
  intro hcancel
  rcases List.mem_append.mp hcancel with hcancel | hcancel
  · exact hfirst (h.of_append.interrupted_of_cancel hcancel)
  · -- after the interruption there is only the claim, and lines in the log
    simp only [List.mem_cons, List.not_mem_nil, or_false, reduceCtorEq, false_or] at hcancel
    rcases hcancel with rfl | rfl
    · exact ha
    · exact hb

end Protocol

/-! ### What a session remembers -/

/-- What decides whether a session calls the control of its transfer. -/
def Posture.stage (p : Posture) : Bool × Phase × Bool := (p.interrupted, p.phase, p.begun)

/-- The control of a session has been called by the protocol, and the marks of the session
tell how far that has come. -/
structure World.Driven (r : Ref) (t : Terms) (w : World E) : Prop where
  interrupted : .interrupted r ∈ w.trace → (w.stack.session r).interrupted = true
  begun : ∀ n, .controlDone r n .start true ∈ w.trace → (w.stack.transfer r).begun = true
  started : (w.stack.transfer r).phase = .established → Started r w.trace
  protocol : Obeys (Protocol r t) w.trace

/-- What happens between two worlds keeps to the protocol of a session whose file has the
terms `t`. -/
structure World.Drives (r : Ref) (t : Terms) (w w' : World E) : Prop where
  grows : w.Grows w'
  driven : (r < w'.stack.sessions.size → (w'.stack.transfer r).terms = t) →
    w.Driven r t → w'.Driven r t

/-- Interrupting a session changes no file part. -/
theorem World.transfer_interrupting (w : World E) (r q : Ref) :
    (w.interrupting r).stack.transfer q = w.stack.transfer q := by
  unfold interrupting
  split
  · rfl
  · exact Stack.apply_session_update (fun x => x.transfer.getD default) fun _ => rfl

namespace World.Drives

variable {r s : Ref} {t : Terms} {w w₁ w₂ w' : World E}

theorem refl (w : World E) : w.Drives r t w := ⟨.refl w, fun _ h => h⟩

theorem trans (h : w.Drives r t w₁) (h' : w₁.Drives r t w₂) : w.Drives r t w₂ := by
  refine ⟨h.grows.trans h'.grows, fun ht hw => h'.driven ht (h.driven (fun hr => ?_) hw)⟩
  rw [← h'.grows.terms_of_lt hr]
  exact ht (Nat.lt_of_lt_of_le hr h'.grows.size)

/-- Something happens on which the protocol has nothing to say. -/
theorem quiet (hgrows : w.Grows w')
    (hstage : (w'.stack.posture r).stage = (w.stack.posture r).stage)
    (htrace : ∃ T, w'.trace = w.trace ++ T ∧ ∀ e ∈ T, ¬e.IsDriving r) : w.Drives r t w' := by
  obtain ⟨T, hT, hdriving⟩ := htrace
  have hi : (w'.stack.session r).interrupted = (w.stack.session r).interrupted :=
    congrArg Prod.fst hstage
  have hp : (w'.stack.transfer r).phase = (w.stack.transfer r).phase :=
    congrArg (fun x => x.2.1) hstage
  have hb : (w'.stack.transfer r).begun = (w.stack.transfer r).begun :=
    congrArg (fun x => x.2.2) hstage
  refine ⟨hgrows, fun _ hw => ⟨?_, ?_, ?_, ?_⟩⟩
  · rw [hT, hi]
    intro hmem
    rcases List.mem_append.mp hmem with hmem | hmem
    · exact hw.interrupted hmem
    · exact absurd rfl (hdriving _ hmem)
  · rw [hT, hb]
    intro n hmem
    rcases List.mem_append.mp hmem with hmem | hmem
    · exact hw.begun n hmem
    · exact absurd rfl (hdriving _ hmem)
  · rw [hT, hp]
    exact fun hphase => (hw.started hphase).append T
  · rw [hT]
    exact hw.protocol.append fun A e he => protocol_of_not_isDriving (hdriving e he)

theorem idle (h : w.Idles w') : w.Drives r t w' := by
  obtain ⟨T, hT, hminor⟩ := h.trace
  exact quiet h.grows (congrArg Posture.stage (h.posture r))
    ⟨T, hT, fun e he => (hminor e he).not_isDriving⟩

theorem emit (w : World E) {e : Event E.Note} (he : ¬e.IsDriving r) : w.Drives r t (w.emit e) :=
  quiet (.emit w e) rfl ⟨[e], rfl, by simpa using he⟩

/-- Anything but the sessions changes. -/
theorem change (w : World E) {f : Stack → Stack} (h : (f w.stack).sessions = w.stack.sessions) :
    w.Drives r t (w.change f) := by
  refine quiet (.change w h) ?_ ⟨[], by simp, by simp⟩
  rw [World.change_stack, Stack.posture, Stack.session, h]
  rfl

/-- A session changes in a way that the protocol of `r` does not depend on. -/
theorem update (w : World E) {f : Session → Session}
    (hages : (w.stack.session s).Ages (f (w.stack.session s)))
    (hstage : s = r → ∀ x, (f x).posture.stage = x.posture.stage) :
    w.Drives r t (w.change (·.update s f)) := by
  refine quiet (.update w s hages) ?_ ⟨[], by simp, by simp⟩
  by_cases hs : s = r
  · exact Stack.apply_session_update (fun x => x.posture.stage) (hstage hs)
  · rw [World.change_stack, Stack.posture, Stack.session_update_of_ne (Ne.symm hs)]
    rfl

/-! ### What sessions do -/

theorem interrupting (hr : s < w.stack.sessions.size)
    (hi : (w.stack.session s).interrupted = false) : w.Drives r t (w.interrupting s) := by
  by_cases hs : s = r
  · subst hs
    obtain ⟨line, htrace⟩ := World.trace_interrupting hi
    have htransfer := World.transfer_interrupting w s s
    refine ⟨w.grows_interrupting s, fun _ hw => ⟨?_, ?_, ?_, ?_⟩⟩
    · exact fun _ => World.interrupted_interrupting hr
    · rw [htransfer, htrace]
      intro n hmem
      exact hw.begun n (by simpa using hmem)
    · rw [htransfer, htrace]
      exact fun hphase => (hw.started hphase).append _
    · -- the session has not been interrupted before, as it would still be so
      have hfirst : .interrupted s ∉ w.trace := fun hmem => by simp [hw.interrupted hmem] at hi
      rw [htrace, List.append_cons]
      refine .concat (.concat hw.protocol ?_) ?_
      · exact fun _ => hfirst
      · trivial
  · rw [World.interrupting, if_neg (by simp [hi])]
    refine trans (update w ?_ fun h => absurd h hs) (trans (emit _ ?_) (emit _ ?_))
    · exact .interrupt _
    · exact hs
    · exact not_false

theorem establishing (hr : w.stack.isTransfer s = true)
    (hasked : JustAsked s (.engine .started) w.trace) : w.Drives r t (w.establishing s) := by
  by_cases hs : s = r
  · subst hs
    have htransfer :=
      Stack.transfer_updateTransfer_self hr fun t => { t with phase := .established }
    refine ⟨w.grows_establishing s, fun _ hw => ⟨?_, ?_, ?_, ?_⟩⟩
    · intro hmem
      refine (Stack.interrupted_updateTransfer _).trans (hw.interrupted ?_)
      simpa [World.establishing] using hmem
    · intro n hmem
      refine (congrArg Transfer.begun htransfer).trans (hw.begun n ?_)
      simpa [World.establishing] using hmem
    · exact fun _ => ⟨w.trace, [_], hasked, by simp [World.establishing]; rfl⟩
    · refine .concat (.concat hw.protocol ?_) ?_
      · trivial
      · trivial
  · refine trans (update w ?_ fun h => absurd h hs) (trans (emit _ ?_) (emit _ ?_))
    · exact .ofTransfer _ fun _ _ => rfl
    · exact not_false
    · exact not_false

/-- A session calls its control where it may. -/
theorem control (hr : s < w.stack.sessions.size) {call : ControlCall}
    (hpermits : w.Permits s call) (n : Nat) : w.Drives r t (w.emit (.control s n call)) := by
  by_cases hs : s = r
  · subst hs
    refine ⟨.emit w _, fun ht hw => ⟨?_, ?_, fun hphase => (hw.started hphase).append _, ?_⟩⟩
    · exact fun hmem => hw.interrupted (by simpa using hmem)
    · exact fun m hmem => hw.begun m (by simpa using hmem)
    · have hterms := ht hr
      rw [World.emit_stack] at hterms
      -- a session that is not interrupted has not given its transfer up
      have hfirst : (w.stack.session s).interrupted = false → .interrupted s ∉ w.trace :=
        fun hi hmem => by simp [hw.interrupted hmem] at hi
      have hcancel : (w.stack.session s).interrupted = false →
          ∀ m, .control s m .cancel ∉ w.trace :=
        fun hi m hmem => hfirst hi (hw.protocol.interrupted_of_cancel hmem)
      refine hw.protocol.concat fun _ => ?_
      cases call with
      | start =>
        obtain ⟨hi, hb, htime⟩ := hpermits
        refine ⟨⟨hfirst hi, fun m hmem => ?_, hterms ▸ htime⟩, hcancel hi⟩
        simp [hw.begun m hmem] at hb
      | pause => exact ⟨⟨hfirst hpermits.1, hw.started hpermits.2⟩, hcancel hpermits.1⟩
      | resume =>
        obtain ⟨hi, hp, htime⟩ := hpermits
        exact ⟨⟨hfirst hi, hw.started hp, hterms ▸ htime⟩, hcancel hi⟩
      | cancel => exact ⟨hpermits, hw.protocol.cancel_not_mem hpermits⟩
  · exact emit w hs

/-- The control has been started for the first time. -/
theorem begun (hr : w.stack.isTransfer s = true) (hb : (w.stack.transfer s).begun = false)
    (n : Nat) :
    w.Drives r t ((w.emit (.controlDone s n .start true)).change
      (·.updateTransfer s fun t => { t with begun := true })) := by
  by_cases hs : s = r
  · subst hs
    have htransfer := Stack.transfer_updateTransfer_self hr fun t => { t with begun := true }
    refine ⟨.trans (.emit w _) (.updateTransfer _ s fun t => rfl), fun _ hw => ⟨?_, ?_, ?_, ?_⟩⟩
    · intro hmem
      refine (Stack.interrupted_updateTransfer _).trans (hw.interrupted ?_)
      simpa using hmem
    · exact fun _ _ => congrArg Transfer.begun htransfer
    · intro hphase
      exact (hw.started ((congrArg Transfer.phase htransfer).symm.trans hphase)).append _
    · exact hw.protocol.concat fun _ m hmem => by simp [hw.begun m hmem] at hb
  · refine trans (emit w ?_) (update _ ?_ fun h => absurd h hs)
    · exact hs
    · exact .ofTransfer _ fun _ _ => rfl

variable {N : Handler E}

theorem steady (hN : ∀ (w : World E) op, w.Drives r t ((N op).run w).2) :
    Steady N (World.Drives r t) :=
  .ofIdles idle trans hN

theorem drive (hN : ∀ (w : World E) op, w.Drives r t ((N op).run w).2)
    (hr : s < w.stack.sessions.size) {call : ControlCall} (hcall : call ≠ .start)
    (hpermits : w.Permits s call) (n : Nat) :
    w.Drives r t (Act.after N (Act.drive s n call) w) := by
  refine (steady hN).drive (control hr hpermits n) fun w b => emit w ?_
  cases call with
  | start => exact absurd rfl hcall
  | _ => exact not_false

/-- A control that does nothing to the stack while it is started begins at most once. -/
theorem begin (hN : ∀ (w : World E) op, w.Drives r t ((N op).run w).2)
    (hquiet : ∀ n, (E.control r n .start).Asks fun _ => False) (hr : w.stack.isTransfer s = true)
    (hpermits : w.Permits s .start) (n : Nat) :
    w.Drives r t (Act.after N (Act.begin s n) w) := by
  have hcontrol := control (r := r) (t := t) (Stack.lt_size_of_isTransfer hr) hpermits n
  by_cases hs : s = r
  · subst hs
    have hcalled := World.Idles.called (N := N) (hquiet n) (w.emit (.control s n .start))
    have hb := (congrArg Posture.begun (hcalled.posture s)).trans hpermits.2.1
    rcases Act.after_begin (N := N) s n w with hafter | hafter
    · rw [hafter]
      exact trans hcontrol (trans (idle hcalled) (emit _ not_false))
    · rw [hafter]
      exact trans hcontrol (trans (idle hcalled) (begun (hcalled.grows.isTransfer hr) hb n))
  · -- another session does not matter
    refine (steady hN).begin (fun w => emit w hs) (fun w b => emit w ?_) (fun w => ?_) w
    · cases b with
      | true => exact hs
      | false => exact not_false
    · exact update w (.ofTransfer _ fun _ _ => rfl) fun h => absurd h hs

/-- A session is made.  Where it is the one in question, it reads as before. -/
theorem made {file : Bool} (h : w.Made s file w') : w.Drives r t w' := by
  obtain ⟨T, hT, hmaking⟩ := h.trace
  refine quiet h.grows ?_ ⟨T, hT, fun e he => ?_⟩
  · by_cases hs : r = s
    · subst hs
      have hfile : ∀ x : Option Transfer, (∀ y ∈ x, y.IsNew) →
          (x.getD default).phase = .pending ∧ (x.getD default).begun = false := by
        intro x hx
        cases x with
        | none => exact ⟨rfl, rfl⟩
        | some y => exact ⟨(hx y rfl).phase, (hx y rfl).begun⟩
      obtain ⟨hp, hb⟩ := hfile _ h.isNew.transfer
      rw [Stack.posture, Stack.posture, Stack.session_of_size_le (Nat.le_of_eq h.fresh)]
      exact Prod.ext h.isNew.interrupted (Prod.ext hp hb)
    · rw [Stack.posture, h.others r hs]
      rfl
  · exact (hmaking e he).isMinor.not_isDriving

/-- A session is given a dialog, or another one. -/
theorem dialog (s : Ref) (w : World E) (d : Sip.Dialog) :
    w.Drives r t (w.change (·.update s fun x => { x with dialog := some d })) := by
  refine update w ?_ fun _ _ => rfl
  exact .dialog _ _

theorem closeDialog (hN : ∀ (w : World E) op, w.Drives r t ((N op).run w).2) (s : Ref)
    (reason : AbortReason) (w : World E) :
    w.Drives r t (Act.after N (Act.closeDialog s reason) w) :=
  (steady hN).closeDialog (dialog s) (fun w _ => emit w not_false) reason w

/-- **The conduct of sessions keeps to the protocol of each of them.** -/
theorem conduct (hN : ∀ (w : World E) op, w.Drives r t ((N op).run w).2)
    (hquiet : ∀ n, (E.control r n .start).Asks fun _ => False) :
    Conduct N (World.Drives r t) fun _ _ => World.Drives r t where
  toSteady := steady hN
  grows h := h.grows
  idle := idle
  capabilities {w _ _} _ := trans (change w rfl) (emit _ not_false)
  asked _ w _ := emit w not_false
  dialog s d w := trans (emit w (e := .asked _) not_false) (dialog s _ d)
  interrupts := interrupting
  establishes hr _ _ hasked := establishing hr hasked
  begins hr hpermits := begin hN hquiet hr hpermits _
  drives hr hcall hpermits := drive hN (Stack.lt_size_of_isTransfer hr) hcall hpermits _
  claims hr hi := trans (interrupting (Stack.lt_size_of_isTransfer hr) hi) (emit _ not_false)
  closes _ := emit _ not_false
  later := trans
  done h := h
  hangsUp _ h := trans h (closeDialog hN _ _ _)
  hangsUpPlain _ _ := closeDialog hN _ _ _
  refreshes _ _ _ h := trans h (trans (change _ rfl) (emit _ not_false))
  makes := made

end World.Drives

/-! ### Runs -/

theorem driven_start (r : Ref) (t : Terms) (settings : Settings) (client : E.State) :
    (World.start settings client : World E).Driven r t where
  interrupted h := absurd h List.not_mem_nil
  begun _ h := absurd h List.not_mem_nil
  started h := Phase.noConfusion h
  protocol := .nil

/-- An operation with its nested ones keeps to the protocol of a session whose control does
nothing to the stack while it is started. -/
theorem drives_exec {r : Ref} {t : Terms}
    (hquiet : ∀ n, (E.control r n .start).Asks fun _ => False) (depth : Nat) (w : World E)
    (op : Op) : w.Drives r t ((exec E depth op).run w).2 :=
  Rules.exec .refl (fun _ hN => (World.Drives.conduct hN hquiet).rules) depth w op

/-- **The calls of a control obey the protocol**, whatever the client, the listeners, the
engine, the clock and the other party do: a control that does nothing to the stack while
it is started is started with success at most once and not again, it is paused and resumed
only after data has begun to flow and before the session is interrupted, and it is told
once, by whatever gave the transfer up and thereby interrupted the session, that this is so,
with no call after that.  The control of a download that can expire is started and resumed
only where the clock has just been read and it is in time. -/
theorem control_protocol (r : Ref) (hquiet : ∀ n, (E.control r n .start).Asks fun _ => False)
    (settings : Settings) (client : E.State) (depth : Nat) {α : Type}
    (p : Program E.State E.Note α) :
    let w := ((run E depth p).run (.start settings client)).2
    Obeys (Protocol r (w.stack.transfer r).terms) w.trace := by
  intro w
  have hrun : (World.start settings client).Drives r (w.stack.transfer r).terms w :=
    (World.Drives.conduct (drives_exec hquiet depth) hquiet).play p _
  exact (hrun.driven (fun _ => rfl) (driven_start r _ settings client)).protocol

/-- An invitation is accepted, its transfer is held, goes on, and is given up. -/
def acceptAndAbort : Program Unit Unit Unit :=
  .call (.create ⟨"ft", ⟨"+33612345678"⟩, [], 0,
    some ⟨.empty, none, [], 10, 0, .incoming .system⟩⟩) fun _ =>
  .call (.transfer 0 .accept) fun _ =>
  .call (.transfer 0 (.engine .started)) fun _ =>
  .call (.transfer 0 .pause) fun _ =>
  .call (.transfer 0 .resume) fun _ =>
  .call (.transfer 0 (.abort .byUser)) fun _ =>
  .call (.transfer 0 .resume) fun _ => .done ()

/-- A transfer that can expire, whose control is called in each of the four ways. -/
theorem control_protocol_acceptAndAbort :
    let E := Environment.obliging fun _ _ _ => .done none
    let w := ((run E 1 acceptAndAbort).run (.start .default ())).2
    (∀ n, (E.control 0 n .start).Asks fun _ => False) ∧
      (w.stack.transfer 0).terms.canExpire = true ∧
      (w.trace.filterMap fun e => match e with
        | .control _ _ call => some call
        | _ => none) = [.start, .pause, .resume, .cancel] ∧
      Obeys (Protocol 0 (w.stack.transfer 0).terms) w.trace := by
  intro E w
  have hquiet : ∀ n, (E.control 0 n .start).Asks fun _ => False := fun _ => trivial
  have hcalls : (w.trace.filterMap fun e => match e with
      | .control _ _ call => some call
      | _ => none) = [.start, .pause, .resume, .cancel] := by decide +kernel
  exact ⟨hquiet, by decide +kernel, hcalls, control_protocol 0 hquiet _ _ 1 acceptAndAbort⟩

end FileSharing
