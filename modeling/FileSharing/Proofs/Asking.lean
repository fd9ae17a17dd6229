import FileSharing.Proofs.Refinement
import FileSharing.Proofs.Watching

/-!
# What is asked for

The trace marks every operation that is asked for, those that callbacks ask for and those that
the services ask of sessions among them.  So there are more marks than operations of a client's
program.  But where a program turns to one session, and callbacks only begin or cease to listen,
the marks are the operations of the program in their order, and in between those of callbacks.

## Main definitions

* `asks` — the operations that a trace marks.
* `Program.asked` — the operations that a program asks for.
* `Interspersed` — operations with others in between.
* `World.AsksOnly` — nothing is asked for but what is allowed.

## Main results

* `asks_run` — **the marks of a program are the operations it asks for, and those of the
  callbacks.**
-/

namespace FileSharing

variable {ν : Type} {E : Environment} {N : Handler E} {r : Ref}

/-! ### Marks -/

/-- The operation that an event marks. -/
def Event.ask? : Event ν → Option Op
  | .asked op => some op
  | _ => none

/-- The operations that are asked for, in order. -/
def asks (T : List (Event ν)) : List Op := T.filterMap Event.ask?

theorem asks_append (T T' : List (Event ν)) : asks (T ++ T') = asks T ++ asks T' :=
  List.filterMap_append

theorem asks_emit (w : World E) {e : Event E.Note} (he : e.ask? = none) :
    asks (w.emit e).trace = asks w.trace := by
  rw [World.emit_trace, asks_append, asks, asks, List.filterMap_cons_none he]
  exact List.append_nil _

namespace World

variable (w : World E) (r : Ref)

theorem asks_interrupting : asks (w.interrupting r).trace = asks w.trace := by
  unfold interrupting
  split
  · rfl
  · exact (asks_emit _ rfl).trans (asks_emit _ rfl)

theorem asks_dismissing (id : Text) : asks (w.dismissing id).trace = asks w.trace := by
  unfold dismissing
  split
  · dsimp only
    split
    · exact (asks_emit _ rfl).trans (asks_emit _ rfl)
    · exact asks_emit _ rfl
  · rfl

theorem asks_leaving : asks (w.leaving r).trace = asks w.trace := by
  unfold leaving
  split
  · rfl
  · exact asks_dismissing _ _

end World

/-- Between two worlds nothing is asked for but what `P` allows. -/
structure World.AsksOnly (P : Op → Prop) (w w' : World E) : Prop where
  grows : w.Grows w'
  asks : ∃ ops, FileSharing.asks w'.trace = FileSharing.asks w.trace ++ ops ∧ ∀ op ∈ ops, P op

namespace World.AsksOnly

variable {P : Op → Prop} {w w₁ w₂ w' : World E}

/-- Nothing is asked for. -/
theorem ofQuiet (h : w.Grows w') (ha : FileSharing.asks w'.trace = FileSharing.asks w.trace) :
    w.AsksOnly P w' :=
  ⟨h, [], by rw [ha, List.append_nil], fun _ hop => absurd hop List.not_mem_nil⟩

theorem refl (w : World E) : w.AsksOnly P w := ofQuiet (.refl w) rfl

theorem trans (h : w.AsksOnly P w₁) (h' : w₁.AsksOnly P w₂) : w.AsksOnly P w₂ := by
  obtain ⟨ops, hops, hP⟩ := h.asks
  obtain ⟨ops', hops', hP'⟩ := h'.asks
  refine ⟨h.grows.trans h'.grows, ops ++ ops', by rw [hops', hops, List.append_assoc], ?_⟩
  intro op hop
  rcases List.mem_append.mp hop with hop | hop
  · exact hP op hop
  · exact hP' op hop

theorem emit (w : World E) {e : Event E.Note} (he : e.ask? = none) : w.AsksOnly P (w.emit e) :=
  ofQuiet (.emit w e) (asks_emit w he)

theorem withClient (w : World E) (c : E.State) : w.AsksOnly P (w.withClient c) :=
  ofQuiet (.withClient w c) rfl

theorem interrupting (w : World E) (r : Ref) : w.AsksOnly P (w.interrupting r) :=
  ofQuiet (w.grows_interrupting r) (w.asks_interrupting r)

theorem leaving (w : World E) (r : Ref) : w.AsksOnly P (w.leaving r) :=
  ofQuiet (w.grows_leaving r) (w.asks_leaving r)

theorem relisten (w : World E) (r : Ref) (ls : ListenerSet Listener) :
    w.AsksOnly P (w.change (·.updateTransfer r fun t => { t with listeners := ls })) :=
  ofQuiet (.updateTransfer w r fun _ => rfl) rfl

theorem ofMove (h : SessionMove r w w') : w.AsksOnly P w' := by
  refine ofQuiet (Abides.ofMove h).grows ?_
  cases h with
  | dialog | delivered | setClock => rfl
  | _ => exact asks_emit _ rfl

theorem fan {c : Callback} (h : Fan (World.AsksOnly P) r c w w') : w.AsksOnly P w' :=
  Fan.stays refl trans id (fun w _ => emit w rfl) (fun w _ _ => emit w rfl) h

/-- Whatever comes of an operation on a session, nothing is asked for but by callbacks. -/
theorem course {t : Turn} (h : Course (World.AsksOnly P) (World.AsksOnly P) r t w w') :
    w.AsksOnly P w' := by
  induction h with
  | logged level line _ ih => exact (emit _ rfl).trans ih
  | nothing h => exact h
  | tell c _ _ h => exact fan h
  | @establish w w' _ _ h =>
    have hphase : w.AsksOnly P (w.establishing r) :=
      .ofQuiet (w.grows_establishing r) ((asks_emit _ rfl).trans (asks_emit _ rfl))
    exact hphase.trans (fan h)
  | @finish w w₁ w₂ w₃ w' e _ h₁ h₂ h₃ h₄ =>
    have hclaim : w.AsksOnly P (w.claiming r e) := (interrupting w r).trans (emit _ rfl)
    have hleave : w₃.AsksOnly P w' := (leaving w₃ r).trans h₄
    exact hclaim.trans (h₁.trans ((fan h₂).trans (h₃.trans hleave)))
  | close h₁ h₂ => exact (interrupting _ r).trans (h₁.trans ((leaving _ r).trans h₂))
  | lasting client time _ _ h => exact (withClient _ client).trans ((emit _ rfl).trans h)
  | expired client time _ _ _ h' ih =>
    exact (withClient _ client).trans ((emit _ rfl).trans (ih.trans h'))
  | attach w l => exact relisten w r _
  | detach w l => exact relisten w r _

end World.AsksOnly

/-! ### Operations on one session -/

/-- Whether an operation turns to this session. -/
def Op.TurnsTo (r : Ref) : Op → Prop
  | .transfer s _ => s = r
  | .session s _ => s = r
  | _ => False

open Act

section Callbacks

variable {P : Op → Prop} {w : World E}

/-- Something is asked for that is allowed. -/
theorem World.AsksOnly.asked {op : Op} (hop : P op) (w : World E) :
    w.AsksOnly P (w.emit (.asked op)) := by
  refine ⟨.emit w _, [op], asks_append _ _, fun o ho => ?_⟩
  rw [List.mem_singleton.mp ho]
  exact hop

variable (hE : E.Asks P) (hN : ∀ (w : World E) (op : Op), P op → w.AsksOnly P ((N op).run w).2)

include hE hN

/-- Callbacks that ask for nothing else may be made at any time. -/
theorem World.AsksOnly.ambient :
    Ambient N (World.AsksOnly P) fun _ => World.AsksOnly P where
  refl := refl
  trans := trans
  log w _ _ := emit w rfl
  client := withClient
  control r n call :=
    after_play_of_asks (hE.control r n call) refl trans (fun w _ => emit w rfl) withClient hN
  removed id := after_play_of_asks (hE.removed id) refl trans (fun w _ => emit w rfl) withClient hN
  grows h := h.grows
  move := ofMove
  heard h := h.grows
  listener r l c :=
    after_play_of_asks (hE.listener l r c) refl trans (fun w _ => emit w rfl) withClient hN
  thrown _ h := h.trans (emit _ rfl)

/-- An operation that turns to a file transfer is marked, and after that only what callbacks
ask for. -/
theorem World.AsksOnly.carryOut {op : Op} (hop : op.TurnsTo r)
    (hr : w.stack.isTransfer r = true) :
    (w.emit (.asked op)).AsksOnly P (after N (Act.carryOut op) w) := by
  have h := ambient hE hN
  have hkind : (w.stack.session r).transfer.isSome = true := Stack.isTransfer_eq ▸ hr
  rw [Act.carryOut, after_bind, after_emit]
  cases op with
  | transfer s op =>
    obtain rfl : s = r := hop
    rw [perform, after_stack_bind, if_pos (by exact hr)]
    exact course (h.onTransfer op (w.emit _) hr)
  | session s op =>
    obtain rfl : s = r := hop
    rw [perform, after_stack_bind, if_pos (by exact Stack.lt_size_of_isTransfer hr)]
    cases op with
    | setDialog d => exact h.move (.dialog _ _)
    | interrupt =>
      rw [onSession, after_bind, after_interrupt]
      exact interrupting _ _
    | closeMedia => exact h.closeMedia _
    | bye request => exact course (h.bye request (w.emit _) hr)
    | closePlain reason =>
      rw [onSession, after_session_bind, if_pos (by exact hkind)]
      exact refl _
    | removePlain =>
      rw [onSession, after_session_bind, if_pos (by exact hkind)]
      exact refl _
  | _ => exact absurd hop not_false

end Callbacks

/-- Beginning or ceasing to listen asks for nothing but that, however deep it is nested. -/
theorem World.AsksOnly.exec (hE : E.Asks Op.IsListening) (depth : Nat) (w : World E) (op : Op)
    (hop : op.IsListening) : w.AsksOnly Op.IsListening ((exec E depth op).run w).2 := by
  induction depth generalizing w op with
  | zero => exact refl w
  | succ depth ih =>
    have h := ambient hE ih
    have htransfer : ∀ {op : TransferOp}, op.IsListening → ∀ {r} {w : World E},
        w.stack.isTransfer r = true →
          w.AsksOnly Op.IsListening (after (FileSharing.exec E depth) (askTransfer r op) w) := by
      intro op hop r w hr
      have hasked : w.AsksOnly Op.IsListening (w.emit (.asked (.transfer r op))) := asked hop w
      exact hasked.trans (course (h.onTransfer op (w.emit _) hr))
    have hlisteners : ∀ (w : World E) ls, w.AsksOnly Op.IsListening
        (w.change fun s => { s with listeners := ls }) :=
      fun w _ => ofQuiet (.change w rfl) rfl
    show w.AsksOnly Op.IsListening (after (FileSharing.exec E depth) (Act.carryOut op) w)
    refine .trans (asked hop w) ?_
    rw [Act.carryOut, after_bind, after_emit]
    cases op with
    | transfer s op =>
      rw [perform, after_stack_bind]
      split
      · next hs => exact course (h.onTransfer op (w.emit _) hs)
      · exact refl _
    | service op =>
      rw [perform]
      cases op with
      | addListener l =>
        rw [serve, after_bind]
        refine h.toPlacid.addServiceListener h.grows l hlisteners (htransfer ?_) _
        exact trivial
      | removeListener l =>
        rw [serve, after_bind]
        refine h.toPlacid.removeServiceListener h.grows l hlisteners (htransfer ?_) _
        exact trivial
      | _ => exact absurd hop not_false
    | _ => exact absurd hop not_false

/-! ### Programs -/

/-- The operations that a program asks for, each carried out by `N`. -/
def Program.asked {α : Type} (N : Handler E) : Program E.State E.Note α → World E → List Op
  | .done _, _ => []
  | .call op next, w => op :: (next ((N op).run w).1).asked N ((N op).run w).2
  | .look next, w => (next w.stack w.client).asked N w
  | .change f next, w => next.asked N (w.withClient (f w.client))
  | .write n next, w => next.asked N (w.emit (.note n))

/-- Whether all of these operations are those, in their order, where each of them may be
followed by some that `P` allows. -/
inductive Interspersed (P : Op → Prop) : List Op → List Op → Prop where
  | nil : Interspersed P [] []
  | cons (op : Op) {others ops all : List Op} (hothers : ∀ o ∈ others, P o)
    (h : Interspersed P ops all) : Interspersed P (op :: ops) (op :: (others ++ all))

theorem interspersed_asks_play (hE : E.Asks Op.IsListening) (depth : Nat) {α : Type}
    {p : Program E.State E.Note α} (hp : p.Asks (Op.TurnsTo r)) {w : World E}
    (hr : w.stack.isTransfer r = true) :
    ∃ all, asks (after (exec E (depth + 1)) (play p) w).trace = asks w.trace ++ all ∧
      Interspersed Op.IsListening (p.asked (exec E (depth + 1)) w) all := by
  induction p generalizing w with
  | done a => exact ⟨[], (List.append_nil _).symm, .nil⟩
  | call op next ih =>
    have hcall := World.AsksOnly.carryOut hE (World.AsksOnly.exec hE depth) hp.1 hr
    obtain ⟨others, hmarks, hothers⟩ := hcall.asks
    obtain ⟨all, hall, hrest⟩ :=
      ih _ (hp.2 _) (((World.Grows.emit w _).trans hcall.grows).isTransfer hr)
    refine ⟨op :: (others ++ all), ?_, .cons op hothers hrest⟩
    refine hall.trans ?_
    rw [hmarks, World.emit_trace, asks_append, List.append_assoc, List.append_assoc]
    rfl
  | look next ih => exact ih _ _ (hp _ _) hr
  | change f next ih => exact ih hp (w := w.withClient _) hr
  | write n next ih =>
    obtain ⟨all, hall, hrest⟩ := ih hp (w := w.emit (.note n)) hr
    exact ⟨all, hall.trans (congrArg (· ++ all) (asks_emit w rfl)), hrest⟩

/-- **The marks of a program are the operations it asks for**, in their order, and in between
those that callbacks ask for, where it turns to one file transfer and callbacks only begin or
cease to listen. -/
theorem asks_run (hE : E.Asks Op.IsListening) (depth : Nat) {α : Type}
    {p : Program E.State E.Note α} (hp : p.Asks (Op.TurnsTo r)) {w : World E}
    (hr : w.stack.isTransfer r = true) :
    ∃ T, ((run E (depth + 1) p).run w).2.trace = w.trace ++ T ∧
      Interspersed Op.IsListening (p.asked (exec E (depth + 1)) w) (asks T) := by
  obtain ⟨all, hall, hops⟩ := interspersed_asks_play hE depth hp hr
  obtain ⟨T, hT⟩ := (World.Evolves.run (depth + 1) p w).grows.trace
  refine ⟨T, hT.symm, ?_⟩
  have hmarks : asks w.trace ++ asks T = asks w.trace ++ all := by
    rw [← asks_append, hT]
    exact hall
  rw [List.append_cancel_left hmarks]
  exact hops

end FileSharing
