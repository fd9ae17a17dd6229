import FileSharing.Proofs.Watching

/-!
# Listeners of all transfers

A listener of the file transfer service is to hear of every transfer.  Each transfer keeps
listeners of its own, and the service changes them along with its own ones.  So as long as
nobody else has a hand in them, every transfer that the service has registered has the
listeners of the service, in the same order, whenever a client can see it.

## Main definitions

* `World.Mirrors` — every transfer that only the service has registered has the listeners of
  the service.

## Main results

* `listeners_mirrored` — **whenever a client can see it, every transfer that only the service
  has registered has the listeners of the service.**
-/

namespace FileSharing

variable {E : Environment}

/-- Listeners that are attached one after another, each once, are there in that order. -/
theorem ListenerSet.foldl_add {ls : List Listener} {s : ListenerSet Listener}
    (h : (s.members ++ ls).Nodup) :
    ls.foldl (fun s l => (s.add (some l)).2) s = ⟨s.members ++ ls⟩ := by
  induction ls generalizing s with
  | nil => rw [List.append_nil]; rfl
  | cons l ls ih =>
    have hnew : l ∉ s.members := fun hl =>
      (List.nodup_append.mp h).2.2 l hl l List.mem_cons_self rfl
    have hadd : (s.add (some l)).2 = ⟨s.members ++ [l]⟩ := by rw [add, if_neg hnew]
    rw [List.foldl_cons, hadd, ih (by simpa using h)]
    simp

/-- A transfer that the service has made has its listeners. -/
theorem Stack.attached_eq {s : Stack} (h : s.listeners.members.Nodup) : s.attached = s.listeners :=
  ListenerSet.foldl_add (s := .empty) h

/-- Every registered transfer that only the service has registered has the listeners of the
service. -/
structure World.Mirrors (w : World E) : Prop where
  made : ∀ e ∈ w.stack.registry, e.2 < w.stack.sessions.size
  nodup : w.stack.listeners.members.Nodup
  mirrored : ∀ r ∈ w.stack.transfers, r ∉ registrations w.trace →
    (w.stack.transfer r).listeners = w.stack.listeners

namespace World

variable {w w' : World E} {r : Ref}

theorem Relistens.mirrors_of (h : w.Relistens w') (hw : w.Mirrors) : w'.Mirrors where
  made := h.made hw.made
  nodup := h.nodup hw.nodup
  mirrored r hr hasked := by
    have hbefore := (h.transfers hw.made).subset hr
    have hnot := fun hmem => hasked (h.grows.mem_registrations hmem)
    exact h.mirrors hw.nodup r hbefore (hw.mirrored r hbefore hnot)

/-- A session enters that has the listeners of the service, or was to be registered. -/
theorem Mirrors.enrolling (hw : w.Mirrors) (hr : r < w.stack.sessions.size)
    (hlisteners : (w.stack.transfer r).listeners = w.stack.listeners ∨
      r ∈ registrations w.trace) : (w.enrolling r).Mirrors where
  made := made_enrolling hw.made hr
  nodup := hw.nodup
  mirrored q hq hasked := by
    have hnot := fun hmem => hasked ((w.grows_enrolling r).mem_registrations hmem)
    rcases mem_transfers_enrolling.mp hq with ⟨rfl, -⟩ | hq
    · exact hlisteners.resolve_right hnot
    · exact hw.mirrored q hq hnot

/-- Every step keeps the listeners together, where clients ask no transfer for its. -/
theorem Shift.mirrors (h : w.Shift False w') (hw : w.Mirrors) : w'.Mirrors := by
  cases h with
  | relistens h => exact h.mirrors_of hw
  | note n =>
    refine ⟨hw.made, hw.nodup, fun r hr hasked => hw.mirrored r hr fun hmem => hasked ?_⟩
    exact (Grows.emit w (.note n)).mem_registrations hmem
  | listening hfree _ => exact hfree.elim
  | @register r hr =>
    have hasked : (w.emit (.asked (.register (some r)))).Mirrors :=
      (Relistens.ofAbides (.emit w (by simp))).mirrors_of hw
    refine hasked.enrolling hr (.inr ?_)
    simp [registrations, Event.registers, Op.registers]
  | @enter w' r h hadmits =>
    have hmade : w'.Mirrors := (Relistens.ofAbides (.ofMade h)).mirrors_of hw
    refine hmade.enrolling h.lt_size (.inl ?_)
    rw [hadmits.listeners, Stack.attached_eq hw.nodup, h.rest]

/-- **Every run keeps the listeners together**, at each step on its way. -/
theorem Shifts.mirrors (h : w.Shifts False w') (hw : w.Mirrors) : w'.Mirrors := by
  induction h with
  | refl => exact hw
  | tail _ hstep ih => exact hstep.mirrors ih

theorem mirrors_start (settings : Settings) (client : E.State) :
    (World.start settings client : World E).Mirrors :=
  ⟨by simp [World.start, Stack.fresh], List.nodup_nil, fun _ h => absurd h List.not_mem_nil⟩

end World

/-- **Whenever a client can see it, every transfer that only the service has registered has
the listeners of the service**, in the same order, where listeners are managed only through
the service.  It does not matter what else the client does, or when its callbacks attach and
detach listeners. -/
theorem listeners_mirrored (hE : E.Asks Op.LeavesListeners) {α : Type}
    {p : Program E.State E.Note α} (hp : p.Asks Op.LeavesListeners) (settings : Settings)
    (client : E.State) (depth : Nat) :
    let w : World E.watched := .watched settings client depth p
    ∀ s, s = w.stack ∨ .note (.inl s) ∈ w.trace → ∀ r ∈ s.transfers,
      r ∉ registrations w.trace → (s.transfer r).listeners = s.listeners := by
  intro w s hs r hr hasked
  have hallowed : ∀ op : Op, op.LeavesListeners → op.IsAllowed False := fun _ h hnot => hnot h
  have hrun : World.Watches (E := E) False (.start settings client) w :=
    .run (hE.mono hallowed) depth (.mono hallowed hp) _
  have hstart := World.mirrors_start (E := E.watched) settings client
  rcases hs with rfl | hs
  · exact (hrun.shifts.mirrors hstart).mirrored r hr hasked
  · -- what was noted was so at a step, and nothing is taken back from the trace since
    rcases hrun.notes s hs with hs | ⟨w₁, hbefore, hafter, rfl⟩
    · exact absurd hs List.not_mem_nil
    · have hnot := fun hmem => hasked (hafter.grows.mem_registrations hmem)
      exact (hbefore.mirrors hstart).mirrored r hr hnot

/-- A listener that brings in another one whenever it is called. -/
def recruit (l : Listener) (_ : Ref) (_ : Callback) : Program Unit Unit (Option Text) :=
  if l = 0 then .call (.service (.addListener (some 7))) fun _ => .done none else .done none

/-- A file is sent, and its data begins to flow. -/
def sendAndStart : Program Unit Unit Unit :=
  .call (.service (.addListener (some 0))) fun _ =>
  .call (.service (.addListener (some 1))) fun _ =>
  .call (.service (.send ⟨"+33612345678"⟩ .empty none)) fun _ =>
  .call (.transfer 0 (.engine .started)) fun _ => .done ()

/-- The world when that has happened, where the first listener brings in another one. -/
def recruited : World (Environment.obliging recruit).watched :=
  .watched (E := .obliging recruit) .default () 2 sendAndStart

/-- What a client saw of the stack right before some listener was called. -/
def seenBefore {ν : Type} (l : Listener) : List (Event (Stack ⊕ ν)) → Option Stack
  | .note (.inl s) :: .callback r m contact c :: T =>
    if m = l then some s else seenBefore l (.callback r m contact c :: T)
  | _ :: T => seenBefore l T
  | [] => none

theorem note_mem_of_seenBefore {ν : Type} {l : Listener} {T : List (Event (Stack ⊕ ν))} {s : Stack}
    (h : seenBefore l T = some s) : .note (.inl s) ∈ T := by
  fun_induction seenBefore l T with
  | case1 s' => exact Option.some.inj h ▸ List.mem_cons_self
  | case2 _ _ _ _ _ _ _ ih => exact List.mem_cons_of_mem _ (ih h)
  | case3 _ _ _ ih => exact List.mem_cons_of_mem _ (ih h)
  | case4 => exact absurd h (by simp)

/-- A listener that is brought in while listeners are being called is seen at once. -/
theorem listeners_mirrored_recruit :
    ∃ s, seenBefore 1 recruited.trace = some s ∧ s.listeners.members = [0, 1, 7] ∧
      0 ∈ s.transfers ∧ (s.transfer 0).listeners = s.listeners := by
  have hE : (Environment.obliging recruit).Asks Op.LeavesListeners := by
    refine ⟨fun l r c => ?_, fun _ _ _ => trivial, fun _ => trivial⟩
    by_cases hl : l = 0
    · simp [Environment.obliging, recruit, hl, Program.Asks, Op.LeavesListeners]
    · simp [Environment.obliging, recruit, hl, Program.Asks]
  have hp : sendAndStart.Asks Op.LeavesListeners :=
    ⟨trivial, fun _ => ⟨trivial, fun _ => ⟨trivial, fun _ => ⟨not_false, fun _ => trivial⟩⟩⟩⟩
  have hmirrored : ∀ s, s = recruited.stack ∨ .note (.inl s) ∈ recruited.trace →
      ∀ r ∈ s.transfers, r ∉ registrations recruited.trace →
        (s.transfer r).listeners = s.listeners :=
    listeners_mirrored hE hp .default () 2
  have hasked : 0 ∉ registrations recruited.trace := by decide +kernel
  have hseen : (seenBefore 1 recruited.trace).any (fun s =>
      decide (s.listeners.members = [0, 1, 7] ∧ 0 ∈ s.transfers)) = true := by decide +kernel
  obtain ⟨s, hs, hshown⟩ := (Option.any_eq_true _ _).mp hseen
  obtain ⟨hmembers, hr⟩ := of_decide_eq_true hshown
  have hmem : .note (.inl s) ∈ recruited.trace := note_mem_of_seenBefore hs
  exact ⟨s, hs, hmembers, hr, hmirrored s (.inr hmem) 0 hr hasked⟩

/-- A transfer that the service has made leaves the registry and is registered again, and in
between a listener is attached. -/
def registerAgain : Program Unit Unit Unit :=
  .call (.service (.send ⟨"+33612345678"⟩ .empty none)) fun _ =>
  .call (.unregister "transfer") fun _ =>
  .call (.service (.addListener (some 0))) fun _ =>
  .call (.register (some 0)) fun _ => .done ()

/-- A transfer that somebody else has registered again may lack a listener. -/
theorem not_listeners_mirrored_registerAgain :
    let w := ((run (.obliging fun _ _ _ => .done none) 1 registerAgain).run (.start .default ())).2
    registerAgain.Asks (fun op => op.LeavesListeners ∧ ∀ d, op ≠ .create d) ∧
      w.stack.transfers = [0] ∧ w.stack.listeners.members = [0] ∧
      (w.stack.transfer 0).listeners.members = [] := by
  intro w
  refine ⟨?_, by decide +kernel⟩
  simp [registerAgain, Program.Asks, Op.LeavesListeners]

end FileSharing
