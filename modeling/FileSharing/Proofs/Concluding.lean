import FileSharing.Proofs.Entries

/-!
# Transfers that have ended

The end of a file transfer is claimed, or the transfer is to be closed; then listeners are
told, and controls and the dialog are dealt with, during all of which callbacks may start
anything.  But in the end the transfer leaves.  So when an operation is over, no transfer
that has ended is still there that was not on its way out before.

## Main definitions

* `OnlyRegisteredEnd` — that only sessions end that have entered the registry.
* `World.IsEnding` — a transfer has ended, and has not left.
* `World.Concludes` — what happens between two worlds leaves no transfer on its way out.

## Main results

* `World.Concludes.laws` — **whatever a stack does, every transfer that ends has left in the
  end.**
-/

namespace FileSharing

/-! ### Who ends -/

section Ends

variable {ν : Type} {r : Ref} {T T' : List (Event ν)}

/-- The session that ends with an event, or that is to leave. -/
def Event.departing : Event ν → Option Ref
  | .asked (.session r .removePlain) => some r
  | e => e.ending

/-- The sessions that have ended or were to leave, in order. -/
def departures (T : List (Event ν)) : List Ref := T.filterMap Event.departing

theorem departures_subset (h : T <+: T') : departures T ⊆ departures T' :=
  (h.sublist.filterMap Event.departing).subset

theorem mem_departures_of_mem_endings (h : r ∈ endings T) : r ∈ departures T := by
  obtain ⟨e, he, hends⟩ := List.mem_filterMap.mp h
  refine List.mem_filterMap.mpr ⟨e, he, ?_⟩
  unfold Event.departing
  split
  · exact absurd hends (by simp [Event.ending])
  · exact hends

/-- Whether only sessions end that have entered the registry. -/
def OnlyRegisteredEnd (T : List (Event ν)) : Prop :=
  Throughout (fun A e => ∀ r ∈ e.departing, Registered r A) T

instance : Decidable (OnlyRegisteredEnd T) := inferInstanceAs (Decidable (Throughout _ T))

theorem OnlyRegisteredEnd.ofPrefix (h : OnlyRegisteredEnd T') (hT : T <+: T') :
    OnlyRegisteredEnd T :=
  Throughout.ofPrefix h hT

theorem OnlyRegisteredEnd.registered (h : OnlyRegisteredEnd T) (hr : r ∈ departures T) :
    Registered r T := by
  obtain ⟨e, he, hends⟩ := List.mem_filterMap.mp hr
  obtain ⟨A, B, rfl⟩ := List.append_of_mem he
  exact (h A e B rfl r hends).mono (List.prefix_append _ _)

end Ends

variable {E : Environment}

/-! ### Being on the way out -/

/-- Whether a file transfer has ended, and has not left. -/
structure World.IsEnding (w : World E) (r : Ref) : Prop where
  isTransfer : w.stack.isTransfer r = true
  ended : r ∈ endings w.trace
  stays : (w.stack.session r).removed = false

/-- Only sessions have entered the registry that exist. -/
def World.RegistersMade (w : World E) : Prop :=
  ∀ r, Registered r w.trace → r < w.stack.sessions.size

/-- Between two worlds no transfer in `P` ends that does not leave, where only sessions end
that have entered the registry. -/
structure World.Concludes (P : Ref → Prop) (w w' : World E) : Prop where
  grows : w.Grows w'
  made : w.RegistersMade → w'.RegistersMade
  concluded : OnlyRegisteredEnd w'.trace → w.RegistersMade →
    ∀ r, P r → w'.IsEnding r → w.IsEnding r

/-- Between two worlds no transfer has ended, and nobody has entered that does not exist. -/
structure World.Lulls (w w' : World E) : Prop where
  grows : w.Grows w'
  registered : ∀ r, Registered r w'.trace → Registered r w.trace ∨ r < w'.stack.sessions.size
  ends : endings w'.trace = endings w.trace

namespace World.Lulls

variable {w w₁ w₂ : World E} {r : Ref}

theorem ofRests (h : w.Rests w₁) (hends : endings w₁.trace = endings w.trace) : w.Lulls w₁ :=
  ⟨h.grows, fun _ hr => .inl (h.registered hr), hends⟩

theorem trans (h : w.Lulls w₁) (h' : w₁.Lulls w₂) : w.Lulls w₂ := by
  refine ⟨h.grows.trans h'.grows, fun r hr => ?_, h'.ends.trans h.ends⟩
  rcases h'.registered r hr with hr | hr
  · exact (h.registered r hr).imp_right fun hr => Nat.lt_of_lt_of_le hr h'.grows.size
  · exact .inr hr

theorem emit (w : World E) {e : Event E.Note} (he : ∀ id r, e ≠ .registered id r)
    (hends : e.ending = none) : w.Lulls (w.emit e) :=
  ⟨.emit w e, fun _ hr => .inl (hr.ofEmit he), by simp [endings, hends]⟩

theorem withClient (w : World E) (c : E.State) : w.Lulls (w.withClient c) :=
  ofRests (.ofStands (.withClient w c)) rfl

theorem relisten (w : World E) (r : Ref) (ls : ListenerSet Listener) :
    w.Lulls (w.change (·.updateTransfer r fun t => { t with listeners := ls })) :=
  ofRests (.ofStands (.updateTransfer w fun _ _ => rfl)) rfl

/-! ### What sessions do -/

theorem interrupting (w : World E) (r : Ref) : w.Lulls (w.interrupting r) := by
  refine ofRests (.interrupting w r) ?_
  unfold World.interrupting
  split
  · rfl
  · simp [endings, Event.ending]

theorem establishing (w : World E) (r : Ref) : w.Lulls (w.establishing r) :=
  ofRests (.ofStands (.establishing w r)) (by simp [World.establishing, endings, Event.ending])

theorem endings_dismissing (w : World E) (id : Text) :
    endings (w.dismissing id).trace = endings w.trace := by
  unfold World.dismissing
  split
  · dsimp only
    split
    · simp [endings, Event.ending]
    · simp [endings, Event.ending]
  · rfl

theorem dismissing (w : World E) (id : Text) : w.Lulls (w.dismissing id) :=
  ⟨w.grows_dismissing id, fun _ hr => .inl (registered_dismissing hr), endings_dismissing w id⟩

theorem leaving (w : World E) (r : Ref) : w.Lulls (w.leaving r) := by
  refine ⟨w.grows_leaving r, fun _ hr => .inl (registered_leaving hr), ?_⟩
  unfold World.leaving
  split
  · rfl
  · exact endings_dismissing _ _

theorem ofMove (h : SessionMove r w w₁) : w.Lulls w₁ := by
  refine ofRests (.ofStands (.ofMove h)) ?_
  cases h with
  | dialog | delivered | setClock => rfl
  | _ => simp [endings, Event.ending]

/-! ### What the services do -/

theorem ofService (h : ServiceMove w w₁) : w.Lulls w₁ := by
  refine ofRests (.ofStands (.ofService h)) ?_
  cases h with
  | watched | settings => rfl
  | _ => simp [endings, Event.ending]

theorem ofMade {file : Bool} (h : w.Made r file w₁) : w.Lulls w₁ := by
  refine ofRests (.ofMade h) ?_
  obtain ⟨T, hT, hmaking⟩ := h.trace
  have hnone : endings T = [] := by
    refine List.filterMap_eq_nil_iff.mpr fun e he => ?_
    cases e with
    | claimed | asked => exact (hmaking _ he).elim
    | _ => rfl
  rw [hT, endings_append, hnone, List.append_nil]

theorem enrolling (hr : r < w.stack.sessions.size) : w.Lulls (w.enrolling r) := by
  refine ⟨w.grows_enrolling r, fun q ⟨id, hid⟩ => ?_, ?_⟩
  · by_cases hq : q = r
    · exact .inr (hq ▸ hr)
    · refine .inl ⟨id, ?_⟩
      simpa [World.enrolling, hq] using hid
  · simp [World.enrolling, endings, Event.ending]

end World.Lulls

/-! ### Leaving in the end -/

namespace World.Concludes

variable {P Q : Ref → Prop} {w w₀ w₁ w₂ w' : World E} {r : Ref}

theorem trans (h : w.Concludes P w₁) (h' : w₁.Concludes P w₂) : w.Concludes P w₂ := by
  refine ⟨h.grows.trans h'.grows, fun hw => h'.made (h.made hw), fun hd hw r hr hends => ?_⟩
  exact h.concluded (hd.ofPrefix h'.grows.trace) hw r hr (h'.concluded hd (h.made hw) r hr hends)

/-- Fewer transfers may be looked at. -/
theorem mono (h : w.Concludes P w₁) (hPQ : ∀ r, Q r → P r) : w.Concludes Q w₁ :=
  ⟨h.grows, h.made, fun hd hw r hr => h.concluded hd hw r (hPQ r hr)⟩

/-- A transfer that is not on its way out in the end need not be left aside. -/
theorem close (h : w.Concludes (· ≠ r) w₁) (hr : ¬w₁.IsEnding r) : w.Concludes P w₁ := by
  refine ⟨h.grows, h.made, fun hd hw q _ hq => h.concluded hd hw q ?_ hq⟩
  rintro rfl
  exact hr hq

/-- Where no transfer in `P` ends, none is on its way out. -/
theorem ofEndings (hgrows : w.Grows w₁)
    (hregistered : ∀ r, Registered r w₁.trace → Registered r w.trace ∨ r < w₁.stack.sessions.size)
    (hends : ∀ r, P r → w₁.IsEnding r → r ∈ endings w.trace) : w.Concludes P w₁ := by
  refine ⟨hgrows, fun hw r hr => ?_, fun hd hw r hr hending => ?_⟩
  · rcases hregistered r hr with hr | hr
    · exact Nat.lt_of_lt_of_le (hw r hr) hgrows.size
    · exact hr
  · have hended := hends r hr hending
    -- it has entered before it ended, so it was a transfer all along
    have hdeparts := mem_departures_of_mem_endings hended
    have hmade := hw r ((hd.ofPrefix hgrows.trace).registered hdeparts)
    refine ⟨?_, hended, Bool.eq_false_iff.mpr fun hgone => ?_⟩
    · rw [Stack.isTransfer_eq, ← (hgrows.ages r hmade).isSome, ← Stack.isTransfer_eq]
      exact hending.isTransfer
    · exact absurd (hgrows.removed hgone) (by simp [hending.stays])

theorem ofLulls (h : w.Lulls w₁) : w.Concludes P w₁ :=
  ofEndings h.grows h.registered fun _ _ hending => h.ends ▸ hending.ended

theorem refl (w : World E) : w.Concludes P w := ofLulls (.ofRests (.ofStands (.refl w)) rfl)

/-- An event with which no transfer in `P` ends. -/
theorem emit (w : World E) {e : Event E.Note} (he : ∀ id r, e ≠ .registered id r)
    (hends : ∀ r, P r → w.stack.isTransfer r = true → e.ending ≠ some r) :
    w.Concludes P (w.emit e) := by
  refine ofEndings (.emit w e) (fun _ hr => .inl (hr.ofEmit he)) ?_
  intro r hr hending
  have hended := hending.ended
  rw [emit_trace, endings_append, List.mem_append] at hended
  refine hended.resolve_right fun h => ?_
  obtain ⟨x, hx, hxr⟩ := List.mem_filterMap.mp h
  exact hends r hr hending.isTransfer (List.mem_singleton.mp hx ▸ hxr)

theorem claiming (w : World E) (r : Ref) (e : Ending) : w.Concludes (· ≠ r) (w.claiming r e) := by
  refine (ofLulls (.interrupting w r)).trans (emit _ (by simp) fun q hq _ => ?_)
  simpa [Event.ending] using Ne.symm hq

/-- Where a transfer leaves in the end, it is not on its way out. -/
theorem leave (h₁ : w.Concludes (· ≠ r) w₁) (hr : r < w.stack.sessions.size)
    (h₂ : (w₁.leaving r).Concludes (fun _ => True) w') : w.Concludes P w' := by
  have hmade := Nat.lt_of_lt_of_le hr h₁.grows.size
  have hgone := h₂.grows.removed (removed_leaving hmade)
  refine (h₁.trans ((ofLulls (.leaving w₁ r)).trans (h₂.mono fun _ _ => trivial))).close ?_
  exact fun hending => absurd hgone (by simp [hending.stays])

theorem fan {c : Callback} (h : Fan (World.Concludes P) r c w w') : w.Concludes P w' :=
  Fan.stays refl .trans id (fun w _ => ofLulls (.emit w (by simp) rfl))
    (fun w _ _ => ofLulls (.emit w (by simp) rfl)) h

/-- What comes of an operation on a session leaves no transfer on its way out; a request to
close the session may have ended it before. -/
theorem course {t : Turn}
    (h : Course (World.Concludes fun _ => True) (World.Concludes fun _ => True) r t w w')
    (h₀ : w₀.Concludes (fun q => t = .close → q ≠ r) w) (hr : r < w₀.stack.sessions.size) :
    w₀.Concludes (fun _ => True) w' := by
  induction h with
  | @logged w w' t level line _ ih =>
    exact ih (h₀.trans (ofLulls (.emit w (by simp) rfl)))
  | nothing h => exact (h₀.mono (by simp)).trans h
  | tell c _ _ h => exact (h₀.mono (by simp)).trans (fan h)
  | @establish w w' _ _ h =>
    exact (h₀.mono (by simp)).trans ((ofLulls (.establishing w r)).trans (fan h))
  | @finish w w₁ w₂ w₃ w' e _ h₁ h₂ h₃ h₄ =>
    -- from the claim on the transfer is on its way out, and all others have left
    have hcalls := (h₁.trans ((fan h₂).trans h₃)).mono (Q := (· ≠ r)) fun _ _ => trivial
    exact leave ((h₀.mono (by simp)).trans ((claiming w r e).trans hcalls)) hr h₄
  | @close w w₁ w' h₁ h₂ =>
    have hrest := h₁.mono (Q := (· ≠ r)) fun _ _ => trivial
    exact leave ((h₀.mono (by simp)).trans ((ofLulls (.interrupting w r)).trans hrest)) hr h₂
  | @lasting w w' client time _ _ h =>
    have hclock : w.Lulls ((w.withClient client).emit (.clock r time)) :=
      .trans (.withClient w client) (.emit _ (by simp) rfl)
    exact (h₀.mono (by simp)).trans ((ofLulls hclock).trans h)
  | @expired w w' w'' client time _ _ _ h' ih =>
    have hclock : w.Lulls ((w.withClient client).emit (.clock r time)) :=
      .trans (.withClient w client) (.emit _ (by simp) rfl)
    exact (ih ((h₀.mono (by simp)).trans (ofLulls hclock))).trans h'
  | attach w l => exact (h₀.mono (by simp)).trans (ofLulls (.relisten w r _))
  | detach w l => exact (h₀.mono (by simp)).trans (ofLulls (.relisten w r _))

/-! ### Laws -/

/-- Asking a transfer for something ends none, or that one where it is to be closed. -/
theorem asked (w : World E) (r : Ref) (x : Life) (op : TransferOp) :
    w.Concludes (fun q => x.turn op = .close → q ≠ r) (w.emit (.asked (.transfer r op))) := by
  refine emit w (by simp) fun q hq _ => ?_
  cases op with
  | close reason => simpa [Event.ending] using Ne.symm (hq rfl)
  | _ => simp [Event.ending]

/-- **Whatever a stack does, every transfer that ends has left in the end.** -/
theorem laws {N : Handler E}
    (hN : ∀ (w : World E) op, w.Concludes (fun _ => True) ((N op).run w).2) :
    Laws N (World.Concludes fun _ => True) fun _ => World.Concludes fun _ => True := by
  have hsteady : Steady N (World.Concludes fun _ => True) := {
    refl := refl
    trans := trans
    log := fun w _ _ => ofLulls (.emit w (by simp) rfl)
    note := fun w _ => ofLulls (.emit w (by simp) rfl)
    client := fun w c => ofLulls (.withClient w c)
    nested := hN }
  exact {
    hsteady with
    grows := fun h => h.grows
    move := fun h => ofLulls (.ofMove h)
    heard := fun h => h.grows
    listener := fun _ _ _ w => hsteady.play _ w
    thrown := fun _ h => h.trans (ofLulls (.emit _ (by simp) rfl))
    service := fun h => ofLulls (.ofService h)
    listeners := fun w _ => ofLulls (.ofRests (.ofStands (.change w rfl rfl)) rfl)
    asked := fun op w haside => by
      refine emit w (by simp) fun r _ hr hends => ?_
      -- only closing a transfer would end it, and what is aside concerns none
      cases op with
      | transfer q op =>
        cases op with
        | close reason =>
          obtain rfl : q = r := Option.some.inj hends
          have hplain : w.stack.isTransfer q = false := haside
          exact absurd hr (by simp [hplain])
        | _ => exact absurd hends (by simp [Event.ending])
      | _ => exact absurd hends (by simp [Event.ending])
    transfer := fun {r} op {w w'} hr h => course h (asked w r _ op) (Stack.lt_size_of_isTransfer hr)
    bye := fun {r m w w'} hr h =>
      course h (ofLulls (.emit w (by simp) rfl)) (Stack.lt_size_of_isTransfer hr)
    interrupt := fun {r w} _ => ofLulls (.trans (.emit w (by simp) rfl) (.interrupting _ r))
    interruptPlain := fun {r w} _ _ => ofLulls (.interrupting w r)
    removePlain := fun {r w w'} _ _ h =>
      (ofLulls (.trans (.emit w (by simp) rfl) (.leaving _ r))).trans h
    register := fun {r w} hr _ => ofLulls (.trans (.emit w (by simp) rfl) (.enrolling hr))
    unregister := fun {id w w'} h =>
      (ofLulls (.trans (.emit w (by simp) rfl) (.dismissing _ id))).trans h
    make := fun h => ofLulls (.ofMade h)
    enter := fun h _ _ => ofLulls (.trans (.ofMade h) (.enrolling h.lt_size)) }

theorem run (depth : Nat) {α : Type} (p : Program E.State E.Note α) (w : World E) :
    w.Concludes (fun _ => True) ((run E depth p).run w).2 :=
  Laws.run refl (fun _ h => laws h) depth p w

end World.Concludes

end FileSharing
