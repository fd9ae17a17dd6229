import FileSharing.Proofs.Asking
import FileSharing.Proofs.Endings

/-!
# What was asked for where an end is claimed

An end that is claimed is that of the operation which was asked for last, and the session has
lived when it was asked for.  The other way round, the first operation that is an end of a
session is followed by the claim of this end, before anything else is asked for.  So of all
the operations that might have ended a session, the one whose end its listeners hear of is the
first that it has taken.

## Main definitions

* `Op.Ends`, `Op.MayEnd` — which end of a session an operation is, or may be.
* `Warranted` — every end that is claimed was asked for.
* `Heeded` — the first end that is asked for is claimed.
* `World.Warrants` — between two worlds ends are claimed as they are asked for.

## Main results

* `World.Warrants.sessionLaws` — **whatever a stack does, ends are claimed as they are asked
  for.**
* `claims_run` — **so it is in every run.**
* `ending_asked_for` — **what listeners hear of an end is what was asked for first.**
-/

namespace FileSharing

variable {ν : Type} {E : Environment} {N : Handler E} {r : Ref}

/-! ### Ends -/

/-- Which end of a session an operation is, whatever else is known of the session. -/
inductive Op.Ends (r : Ref) : Op → Ending → Prop where
  | abort (reason : AbortReason) : Ends r (.transfer r (.abort reason)) (.abort reason)
  | failed (e : TransferError) : Ends r (.transfer r (.engine (.failed e))) (.error e)
  | transferred : Ends r (.transfer r (.engine .transferred)) .delivery
  | bye (request : Sip.Message) : Ends r (.session r (.bye request)) .bye

/-- Which end of a session an operation may be.  Only an invitation can be declined, and only
a file with an expiry expires. -/
inductive Op.MayEnd (r : Ref) : Op → Ending → Prop where
  | ends {op : Op} {e : Ending} (h : op.Ends r e) : MayEnd r op e
  | reject : MayEnd r (.transfer r .reject) (.abort .byUser)
  | accept : MayEnd r (.transfer r .accept) (.error .expired)
  | resume : MayEnd r (.transfer r .resume) (.error .expired)

/-- Which end of a session may come of a turn. -/
inductive Turn.MayClaim : Turn → Ending → Prop where
  | finish (e : Ending) : MayClaim (.finish e) e
  | compare : MayClaim .compare (.error .expired)

namespace Life

variable {x : Life} {op : Op} {e : Ending}

theorem mayClaim_of_unlessEnded {t : Turn} (h : (x.unlessEnded t).MayClaim e) : t.MayClaim e := by
  unfold unlessEnded at h
  split at h
  · cases h
  · exact h

theorem eq_expired_of_checked (h : x.checked.MayClaim e) : e = .error .expired := by
  unfold checked at h
  split at h
  · cases mayClaim_of_unlessEnded h
    rfl
  · cases h

theorem mayEnd_of_turn {op : TransferOp} (h : (x.turn op).MayClaim e) :
    (Op.transfer r op).MayEnd r e := by
  cases op with
  | engine event =>
    cases event with
    | started =>
      have h := mayClaim_of_unlessEnded h
      split at h
      · cases h
      · cases h
    | transferred =>
      cases mayClaim_of_unlessEnded h
      exact .ends .transferred
    | failed error =>
      cases mayClaim_of_unlessEnded h
      exact .ends (.failed error)
    | _ => cases mayClaim_of_unlessEnded h
  | accept =>
    rw [turn] at h
    split at h
    · cases h
    · rw [eq_expired_of_checked h]
      exact .accept
  | reject =>
    rw [turn] at h
    split at h
    · cases mayClaim_of_unlessEnded h
      exact .reject
    · cases h
  | resume =>
    rw [turn] at h
    split at h
    · rw [eq_expired_of_checked h]
      exact .resume
    · cases h
  | abort reason =>
    cases mayClaim_of_unlessEnded h
    exact .ends (.abort reason)
  | _ => cases h

/-- What may come of an operation on a session is what the operation may be. -/
theorem mayEnd_of_reaction (h : (x.reaction r op).MayClaim e) : op.MayEnd r e := by
  unfold reaction at h
  split at h
  · split at h
    · next hs =>
      subst hs
      exact mayEnd_of_turn h
    · cases h
  · split at h
    · next hs =>
      subst hs
      cases mayClaim_of_unlessEnded h
      exact .ends (.bye _)
    · cases h
  · split at h
    · cases h
    · cases h
  · cases h

/-- An operation that is an end of the session ends it, unless it has ended. -/
theorem reaction_of_ends (h : op.Ends r e) (hx : x.ended = false) :
    x.reaction r op = .finish e := by
  cases h with
  | abort reason => simp [reaction, turn, unlessEnded_of_live hx]
  | failed e => simp [reaction, turn, unlessEnded_of_live hx]
  | transferred => simp [reaction, turn, unlessEnded_of_live hx]
  | bye request => simp [reaction, byeTurn, unlessEnded_of_live hx]

end Life

/-- What may come of a turn at once is claimed before anything is asked for. -/
theorem Course.claimed {R L : World E → World E → Prop} (hR : ∀ {w w'}, R w w' → w.Grows w')
    (hL : ∀ {w w'}, L w w' → w.Grows w') {e : Ending} {w w' : World E}
    (h : Course R L r (.finish e) w w') :
    ∃ M C, w'.trace = w.trace ++ (M ++ .claimed r e :: C) ∧ asks M = [] := by
  generalize ht : Turn.finish e = t at h
  induction h with
  | logged level line _ ih =>
    obtain ⟨M, C, hM, hasks⟩ := ih ht
    refine ⟨.log level line :: M, C, ?_, hasks⟩
    rw [hM, World.emit_trace, List.append_assoc]
    rfl
  | @finish w w₁ w₂ w₃ w' e' _ h₁ h₂ h₃ h₄ =>
    cases ht
    obtain ⟨M, hM⟩ := (w.grows_interrupting r).trace
    have hrest : (w.claiming r e).Grows w' :=
      (hR h₁).trans ((h₂.grows hL).trans ((hR h₃).trans ((w₃.grows_leaving r).trans (hR h₄))))
    obtain ⟨C, hC⟩ := hrest.trace
    refine ⟨M, C, ?_, ?_⟩
    · rw [← hC, World.claiming, World.emit_trace, ← hM]
      simp
    · have hasks := w.asks_interrupting r
      rw [← hM, asks_append] at hasks
      exact List.append_right_eq_self.mp hasks
  | _ => cases ht

/-! ### Matching claims -/

section Lists

variable {due : Ending → Prop} {T T' : List (Event ν)}

/-- Whether every end of a session that is claimed is that of the operation asked for last, which
has interrupted the session.  Where nothing was asked for before, it is one that is `due`. -/
def Warranted (r : Ref) (due : Ending → Prop) (T : List (Event ν)) : Prop :=
  ∀ A e C, T = A ++ .claimed r e :: C →
    (asks A = [] ∧ .interrupted r ∈ A ∧ due e) ∨
      ∃ A' op M, A = A' ++ .asked op :: M ∧ asks M = [] ∧ .interrupted r ∈ M ∧ op.MayEnd r e

/-- Whether the first operation that is an end of a session is followed by the claim of this
end, with nothing asked for in between. -/
def Heeded (r : Ref) (T : List (Event ν)) : Prop :=
  ∀ A op e B, T = A ++ .asked op :: B → op.Ends r e → .interrupted r ∉ A →
    ∃ M C, B = M ++ .claimed r e :: C ∧ asks M = []

namespace Warranted

theorem ofUnclaimed (h : ∀ e, .claimed r e ∉ T) : Warranted r due T := by
  intro A e C hT
  refine absurd ?_ (h e)
  rw [hT]
  exact List.mem_append_right A List.mem_cons_self

theorem mono {due' : Ending → Prop} (h : Warranted r due T) (hdue : ∀ e, due e → due' e) :
    Warranted r due' T := by
  intro A e C hT
  rcases h A e C hT with ⟨hA, hi, he⟩ | hasked
  · exact .inl ⟨hA, hi, hdue e he⟩
  · exact .inr hasked

/-- Where nothing is due, nothing but what was asked for since is claimed. -/
theorem append (h : Warranted r due T) (h' : Warranted r (fun _ => False) T') :
    Warranted r due (T ++ T') := by
  intro A e C hT
  rcases List.append_eq_append_iff.mp hT with ⟨X, rfl, hX⟩ | ⟨X, rfl, hX⟩
  · rcases h' X e C hX with ⟨-, -, hdue⟩ | ⟨A', op, M, rfl, hM⟩
    · exact hdue.elim
    · exact .inr ⟨T ++ A', op, M, (List.append_assoc _ _ _).symm, hM⟩
  · cases X with
    | nil =>
      rcases h' [] e C hX.symm with ⟨-, -, hdue⟩ | ⟨A', op, M, hnil, -⟩
      · exact hdue.elim
      · exact absurd hnil (by simp)
    | cons x X =>
      obtain ⟨rfl, -⟩ := List.cons.inj hX
      exact h A e X rfl

/-- What is due is due for as long as nothing is asked for. -/
theorem prepend (h : ∀ e, .claimed r e ∉ T) (hasks : asks T = []) (h' : Warranted r due T') :
    Warranted r due (T ++ T') := by
  intro A e C hT
  rcases List.append_eq_append_iff.mp hT with ⟨X, rfl, hX⟩ | ⟨X, rfl, hX⟩
  · rcases h' X e C hX with ⟨hask, hi, hdue⟩ | ⟨A', op, M, rfl, hM⟩
    · refine .inl ⟨?_, List.mem_append_right T hi, hdue⟩
      rw [asks_append, hasks, hask]
      rfl
    · exact .inr ⟨T ++ A', op, M, (List.append_assoc _ _ _).symm, hM⟩
  · cases X with
    | nil =>
      refine .inl (List.append_nil A ▸ ?_)
      rcases h' [] e C hX.symm with ⟨-, hi, -⟩ | ⟨A', op, M, hnil, -⟩
      · exact absurd hi List.not_mem_nil
      · exact absurd hnil (by simp)
    | cons x X =>
      obtain ⟨rfl, -⟩ := List.cons.inj hX
      exact absurd (List.mem_append_right A List.mem_cons_self) (h e)

/-- An end that is due is claimed. -/
theorem claim {e : Ending} (h : ∀ e, .claimed r e ∉ T) (hasks : asks T = [])
    (hi : .interrupted r ∈ T) (he : due e) : Warranted r due (T ++ [.claimed r e]) := by
  intro A e' C hT
  rcases List.append_eq_append_iff.mp hT with ⟨X, rfl, hX⟩ | ⟨X, rfl, hX⟩
  · cases X with
    | nil =>
      cases hX
      exact .inl ⟨by simpa using hasks, List.mem_append_left [] hi, he⟩
    | cons x X => simp at hX
  · cases X with
    | nil =>
      cases hX
      exact .inl ⟨by simpa using hasks, by simpa using hi, he⟩
    | cons x X =>
      obtain ⟨rfl, -⟩ := List.cons.inj hX
      exact absurd (List.mem_append_right A List.mem_cons_self) (h e')

/-- What may be claimed after an operation is what the operation may be. -/
theorem asked {op : Op} (h : Warranted r due T) (hop : ∀ e, due e → op.MayEnd r e) :
    Warranted r (fun _ => False) (.asked op :: T) := by
  intro A e C hT
  cases A with
  | nil => exact absurd (List.cons.inj hT).1 (by simp)
  | cons x A =>
    obtain ⟨rfl, hrest⟩ := List.cons.inj hT
    rcases h A e C hrest with ⟨hA, hi, he⟩ | ⟨A', op', M, rfl, hM⟩
    · exact .inr ⟨[], op, A, rfl, hA, hi, hop e he⟩
    · exact .inr ⟨.asked op :: A', op', M, rfl, hM⟩

end Warranted

namespace Heeded

theorem ofMild (h : ∀ op ∈ asks T, ∀ e, ¬op.Ends r e) : Heeded r T := by
  intro A op e B hT hop
  refine absurd hop (h op ?_ e)
  rw [hT, asks_append]
  exact List.mem_append_right _ List.mem_cons_self

/-- After an interruption nothing has to be heeded. -/
theorem append (h : Heeded r T) (h' : .interrupted r ∉ T → Heeded r T') : Heeded r (T ++ T') := by
  intro A op e B hT hop hA
  rcases List.append_eq_append_iff.mp hT with ⟨X, rfl, hX⟩ | ⟨X, rfl, hX⟩
  · rw [List.mem_append, not_or] at hA
    exact h' hA.1 X op e B hX hop hA.2
  · cases X with
    | nil => exact h' (by simpa using hA) [] op e B hX.symm hop List.not_mem_nil
    | cons x X =>
      obtain ⟨rfl, rfl⟩ := List.cons.inj hX
      obtain ⟨M, C, rfl, hM⟩ := h A op e X rfl hop hA
      exact ⟨M, C ++ T', by simp, hM⟩

/-- An operation is asked for, and claims the end if it is one. -/
theorem asked {op : Op} (h : Heeded r T)
    (hop : ∀ e, op.Ends r e → ∃ M C, T = M ++ .claimed r e :: C ∧ asks M = []) :
    Heeded r (.asked op :: T) := by
  intro A op' e B hT hends hA
  cases A with
  | nil =>
    obtain ⟨heq, rfl⟩ := List.cons.inj hT
    cases heq
    exact hop e hends
  | cons x A =>
    obtain ⟨-, hrest⟩ := List.cons.inj hT
    exact h A op' e B hrest hends fun hmem => hA (List.mem_cons_of_mem x hmem)

end Heeded

end Lists

/-- Between two worlds the first operation that is an end of a session ends it. -/
structure World.Heeds (r : Ref) (w w' : World E) : Prop where
  grows : w.Grows w'
  live : w.stack.isTransfer r = true → (w.stack.session r).interrupted = false →
    ∃ T, w'.trace = w.trace ++ T ∧ Heeded r T ∧
      ((w'.stack.session r).interrupted = true → .interrupted r ∈ T)

/-- Moreover, ends are claimed as they are asked for.  What has been asked for before is
`due`. -/
structure World.Warrants (r : Ref) (due : Ending → Prop) (w w' : World E) : Prop
    extends World.Heeds r w w' where
  claims : ∃ T, w'.trace = w.trace ++ T ∧ Warranted r due T

theorem World.Heeds.trans {w w₁ w₂ : World E} (h : w.Heeds r w₁) (h' : w₁.Heeds r w₂) :
    w.Heeds r w₂ := by
  refine ⟨h.grows.trans h'.grows, fun hr hi => ?_⟩
  obtain ⟨T, hT, hheeded, hmarked⟩ := h.live hr hi
  obtain ⟨T', hT'⟩ := h'.grows.trace
  have hall : w₂.trace = w.trace ++ (T ++ T') := by rw [← hT', hT, List.append_assoc]
  -- a session that is not marked as interrupted lives
  have hnext : .interrupted r ∉ T → Heeded r T' ∧
      ((w₂.stack.session r).interrupted = true → .interrupted r ∈ T') := by
    intro hunmarked
    have hi₁ : (w₁.stack.session r).interrupted = false :=
      Bool.eq_false_iff.mpr fun hi₁ => hunmarked (hmarked hi₁)
    obtain ⟨T₂, hT₂, hlive⟩ := h'.live (h.grows.isTransfer hr) hi₁
    rwa [List.append_cancel_left (hT'.trans hT₂)]
  refine ⟨T ++ T', hall, hheeded.append fun hT => (hnext hT).1, fun hi₂ => ?_⟩
  rw [List.mem_append]
  by_cases hT : .interrupted r ∈ T
  · exact .inl hT
  · exact .inr ((hnext hT).2 hi₂)

namespace World.Warrants

variable {due : Ending → Prop} {w w₁ w₂ w₃ w' : World E}

theorem trans (h : w.Warrants r due w₁) (h' : w₁.Warrants r (fun _ => False) w₂) :
    w.Warrants r due w₂ := by
  obtain ⟨T, hT, hclaims⟩ := h.claims
  obtain ⟨T', hT', hclaims'⟩ := h'.claims
  refine ⟨h.toHeeds.trans h'.toHeeds, T ++ T', ?_, hclaims.append hclaims'⟩
  rw [hT', hT, List.append_assoc]

theorem mono {due' : Ending → Prop} (h : w.Warrants r due w') (hdue : ∀ e, due e → due' e) :
    w.Warrants r due' w' := by
  obtain ⟨T, hT, hclaims⟩ := h.claims
  exact ⟨h.toHeeds, T, hT, hclaims.mono hdue⟩

/-- Nothing is claimed, and nothing is asked for that is an end. -/
theorem ofMild {T : List (Event E.Note)} (h : w.Grows w') (hT : w'.trace = w.trace ++ T)
    (hclaims : ∀ e, .claimed r e ∉ T) (hasks : ∀ op ∈ asks T, ∀ e, ¬op.Ends r e)
    (hi : w.stack.isTransfer r = true → (w.stack.session r).interrupted = false →
      (w'.stack.session r).interrupted = true → .interrupted r ∈ T) :
    w.Warrants r due w' :=
  ⟨⟨h, fun hr hlive => ⟨T, hT, .ofMild hasks, hi hr hlive⟩⟩, T, hT, .ofUnclaimed hclaims⟩

theorem refl (w : World E) : w.Warrants r due w :=
  ofMild (.refl w) (List.append_nil _).symm (by simp) (by simp [asks]) fun _ hlive hi =>
    absurd hi (by simp [hlive])

/-- No session is marked, nothing is claimed, and nothing is asked for. -/
theorem ofStands {T : List (Event E.Note)} (h : w.Stands w') (hT : w'.trace = w.trace ++ T)
    (hclaims : ∀ e, .claimed r e ∉ T) (hasks : asks T = []) : w.Warrants r due w' := by
  refine ofMild h.grows hT hclaims (by simp [hasks]) fun _ hlive hi => ?_
  rw [(h.session r).2.1, hlive] at hi
  cases hi

theorem ofSpares (h : w.Spares r w') : w.Warrants r due w' := by
  obtain ⟨T, hT, habout⟩ := h.trace
  refine ofMild h.grows hT (fun e he => ?_) (fun op hop e hends => ?_) fun _ hlive hi => ?_
  · exact habout _ he rfl
  · obtain ⟨ev, hev, hask⟩ := List.mem_filterMap.mp hop
    cases ev with
    | asked op' =>
      cases hask
      refine habout _ hev ?_
      cases hends with
      | _ => rfl
    | _ => cases hask
  · have hsame := congrArg Life.ended h.life
    rw [Stack.life_ended, Stack.life_ended, hlive, hi] at hsame
    cases hsame

theorem emit (w : World E) {e : Event E.Note} (hclaim : ∀ e', e ≠ .claimed r e')
    (hask : e.ask? = none) : w.Warrants r due (w.emit e) := by
  refine ofMild (.emit w e) rfl (fun e' he => ?_) (fun op hop => ?_) fun _ hlive hi => ?_
  · exact hclaim e' (List.mem_singleton.mp he).symm
  · rw [asks, List.filterMap_cons_none hask] at hop
    exact absurd hop List.not_mem_nil
  · exact absurd hi (by simp [hlive])

/-- What is due is due until something is asked for. -/
theorem prepend (h : w.Warrants r (fun _ => False) w₁) (hasks : asks w₁.trace = asks w.trace)
    (h' : w₁.Warrants r due w₂) : w.Warrants r due w₂ := by
  obtain ⟨T, hT, hclaims⟩ := h.claims
  obtain ⟨T', hT', hclaims'⟩ := h'.claims
  have hnone : asks T = [] := by
    rw [hT, asks_append] at hasks
    exact List.append_right_eq_self.mp hasks
  have hunclaimed : ∀ e, .claimed r e ∉ T := by
    intro e he
    obtain ⟨A, C, rfl⟩ := List.append_of_mem he
    rcases hclaims A e C rfl with ⟨-, -, hdue⟩ | ⟨A', op, M, rfl, -⟩
    · exact hdue
    · simp [asks, Event.ask?] at hnone
  refine ⟨h.toHeeds.trans h'.toHeeds, T ++ T', ?_, .prepend hunclaimed hnone hclaims'⟩
  rw [hT', hT, List.append_assoc]

/-- The trace of a session that is interrupted now. -/
theorem trace_interrupting {w : World E} (hi : (w.stack.session r).interrupted = false) :
    (w.interrupting r).trace = w.trace ++ [.interrupted r,
      .log .debug (ascii "Session " ++ (w.stack.session r).id ++ " interrupted")] := by
  rw [World.interrupting, if_neg (by simp [hi])]
  simp

theorem interrupting (w : World E) (r : Ref) : w.Warrants r due (w.interrupting r) := by
  by_cases hi : (w.stack.session r).interrupted = true
  · rw [World.interrupting_of_interrupted hi]
    exact refl w
  · refine ofMild (w.grows_interrupting r) (trace_interrupting (Bool.eq_false_iff.mpr hi)) ?_ ?_ ?_
    · simp
    · simp [asks, Event.ask?]
    · exact fun _ _ _ => List.mem_cons_self

/-- The end that is due is claimed. -/
theorem claiming {e : Ending} (hi : (w.stack.session r).interrupted = false) (he : due e) :
    w.Warrants r due (w.claiming r e) := by
  have hT : (w.claiming r e).trace = w.trace ++ ([.interrupted r,
      .log .debug (ascii "Session " ++ (w.stack.session r).id ++ " interrupted")]
        ++ [.claimed r e]) := by
    rw [World.claiming, World.emit_trace, trace_interrupting hi, List.append_assoc]
  refine ⟨⟨w.grows_claiming r e, fun _ _ => ⟨_, hT, .ofMild ?_, ?_⟩⟩, _, hT, ?_⟩
  · simp [asks, Event.ask?]
  · simp
  · exact .claim (by simp) rfl List.mem_cons_self he

theorem fan {c : Callback} (h : Fan (World.Warrants r fun _ => False) r c w w') :
    w.Warrants r (fun _ => False) w' :=
  Fan.stays refl trans id (fun w _ => emit w (by simp) rfl) (fun w _ _ => emit w (by simp) rfl) h

/-- What comes of an operation claims no end but what may come of it. -/
theorem course {t : Turn}
    (h : Course (World.Warrants r fun _ => False) (World.Warrants r fun _ => False) r t w w')
    (hr : w.stack.isTransfer r = true) : w.Warrants r t.MayClaim w' := by
  induction h with
  | logged level line _ ih => exact prepend (emit _ (by simp) rfl) (asks_emit _ rfl) (ih hr)
  | nothing h => exact h.mono fun _ => False.elim
  | tell c _ _ h => exact (fan h).mono fun _ => False.elim
  | @establish w w' _ _ h =>
    have hphase : w.Warrants r Turn.establish.MayClaim (w.establishing r) :=
      ofStands (.establishing w r) (List.append_assoc _ _ _) (by simp) rfl
    exact hphase.trans (fan h)
  | @finish w w₁ w₂ w₃ w' e hi h₁ h₂ h₃ h₄ =>
    have hleave : w₃.Warrants r (fun _ => False) w' := .trans (ofSpares (.leaving w₃ r)) h₄
    have hclaim : w.Warrants r (Turn.finish e).MayClaim (w.claiming r e) :=
      claiming hi (.finish e)
    exact hclaim.trans (h₁.trans ((fan h₂).trans (h₃.trans hleave)))
  | @close w w₁ w' h₁ h₂ =>
    have hleave : w₁.Warrants r (fun _ => False) w' := .trans (ofSpares (.leaving w₁ r)) h₂
    exact (interrupting w r).trans (h₁.trans hleave)
  | @lasting w w' client time _ _ h =>
    have hclock : w.Warrants r Turn.compare.MayClaim ((w.withClient client).emit (.clock r time)) :=
      .trans (ofSpares (.withClient w client)) (emit _ (by simp) rfl)
    exact hclock.trans h
  | @expired w w' w'' client time _ _ h h' ih =>
    have hclock : w.Warrants r (fun _ => False) ((w.withClient client).emit (.clock r time)) :=
      .trans (ofSpares (.withClient w client)) (emit _ (by simp) rfl)
    refine .trans (prepend hclock (asks_emit _ rfl) ((ih hr).mono fun e he => ?_)) h'
    cases he
    exact .compare
  | attach w l =>
    exact ofStands (.updateTransfer w fun _ _ => rfl) (List.append_nil _).symm (by simp) rfl
  | detach w l =>
    exact ofStands (.updateTransfer w fun _ _ => rfl) (List.append_nil _).symm (by simp) rfl

/-- An operation is asked for, and what is due then is the end that it may be. -/
theorem asked {op : Op} (h : (w.emit (.asked op)).Warrants r due w')
    (hdue : ∀ e, due e → op.MayEnd r e)
    (hends : (w.stack.session r).interrupted = false → ∀ e, op.Ends r e →
      ∃ M C, w'.trace = (w.emit (.asked op)).trace ++ (M ++ .claimed r e :: C) ∧ asks M = []) :
    w.Warrants r (fun _ => False) w' := by
  obtain ⟨T, hT, hclaims⟩ := h.claims
  have hall : w'.trace = w.trace ++ (.asked op :: T) := by
    rw [hT, World.emit_trace, List.append_assoc]
    rfl
  refine ⟨⟨(World.Grows.emit w _).trans h.grows, fun hr hi => ?_⟩, _, hall, hclaims.asked hdue⟩
  obtain ⟨T', hT', hheeded, hmarked⟩ := h.live hr hi
  rw [List.append_cancel_left (hT.symm.trans hT')] at hall
  refine ⟨_, hall, hheeded.asked fun e he => ?_, fun hi' => List.mem_cons_of_mem _ (hmarked hi')⟩
  obtain ⟨M, C, hM, hasks⟩ := hends hi e he
  exact ⟨M, C, List.append_cancel_left (hT'.symm.trans hM), hasks⟩

theorem ofMade {file : Bool} (h : w.Made r file w') : w.Warrants r due w' := by
  obtain ⟨T, hT, hmaking⟩ := h.trace
  refine ofMild h.grows hT (fun e he => hmaking _ he) (fun op hop => ?_) fun hr => ?_
  · obtain ⟨ev, hev, hask⟩ := List.mem_filterMap.mp hop
    cases ev with
    | asked op' => exact absurd (hmaking _ hev) not_false
    | _ => cases hask
  · exact absurd (h.fresh ▸ Stack.lt_size_of_isTransfer hr) (Nat.lt_irrefl _)

/-- **Whatever a stack does, ends are claimed as they are asked for.** -/
theorem sessionLaws (hN : ∀ (w : World E) op, w.Warrants r (fun _ => False) ((N op).run w).2) :
    SessionLaws N (World.Warrants r fun _ => False) (World.Warrants r fun _ => False) r := by
  have hsteady : Steady N (World.Warrants r fun _ => False) := {
    refl := refl
    trans := trans
    log := fun w _ _ => emit w (by simp) rfl
    note := fun w _ => emit w (by simp) rfl
    client := fun w c => ofSpares (.withClient w c)
    nested := hN }
  exact {
    hsteady with
    grows := fun h => h.grows
    spared := ofSpares
    begun := fun w n => ofStands (.ofMove (.begun w n)) rfl (by simp) rfl
    heard := fun h => h.grows
    listener := fun _ _ w => hsteady.play _ w
    thrown := fun _ h => h.trans (emit _ (by simp) rfl)
    ignored := fun op w hr => ⟨⟨.emit w _, fun hr' => absurd hr' (by simp [hr])⟩, [.asked op], rfl,
      .ofUnclaimed (by simp)⟩
    turn := fun op w w' hr h => by
      refine asked (course h hr) (fun _ => Life.mayEnd_of_reaction) fun hi e he => ?_
      rw [Life.reaction_of_ends he hi] at h
      exact h.claimed (fun h => h.grows) fun h => h.grows
    interrupt := fun {w} _ => by
      refine asked (interrupting _ r) (fun _ => False.elim) fun _ e he => ?_
      cases he
    interruptPlain := fun {w} _ _ => interrupting w r
    make := ofMade }

theorem run (depth : Nat) {α : Type} (p : Program E.State E.Note α) (w : World E) (r : Ref) :
    w.Warrants r (fun _ => False) ((FileSharing.run E depth p).run w).2 :=
  Laws.run refl (fun _ hN => (sessionLaws hN).laws) depth p w

end World.Warrants

/-- **Every end that is claimed is that of the operation asked for last**, which has found the
session alive.  Of a file transfer that lives, the first operation that is an end of it is
followed by the claim of this end, before anything else is asked for. -/
theorem claims_run (depth : Nat) {α : Type} (p : Program E.State E.Note α) (w : World E) (r : Ref) :
    ∃ T, ((run E depth p).run w).2.trace = w.trace ++ T ∧
      (∀ A e C, T = A ++ .claimed r e :: C →
        ∃ A' op M, A = A' ++ .asked op :: M ∧ asks M = [] ∧ .interrupted r ∈ M ∧ op.MayEnd r e) ∧
      (w.stack.isTransfer r = true → (w.stack.session r).interrupted = false → Heeded r T) := by
  have hrun : w.Warrants r (fun _ => False) ((run E depth p).run w).2 := .run depth p w r
  obtain ⟨T, hT, hclaims⟩ := hrun.claims
  refine ⟨T, hT, fun A e C hA => ?_, fun hr hi => ?_⟩
  · rcases hclaims A e C hA with ⟨-, -, hdue⟩ | hasked
    · exact hdue.elim
    · exact hasked
  · obtain ⟨T', hT', hheeded, -⟩ := hrun.live hr hi
    rwa [List.append_cancel_left (hT.symm.trans hT')]

/-- **What listeners hear of an end is what was asked for first**: the operation asked for last
before the end is claimed is that end, and nothing has interrupted the session before. -/
theorem ending_asked_for (settings : Settings) (client : E.State) (depth : Nat) {α : Type}
    (p : Program E.State E.Note α) (r : Ref) {l : Listener} {contact : Contact} {c : Callback} :
    let w := ((run E depth p).run (.start settings client)).2
    .callback r l contact c ∈ w.trace → c.isTerminal = true →
      ∃ A op M e C, w.trace = A ++ .asked op :: (M ++ .claimed r e :: C) ∧ asks M = [] ∧
        .interrupted r ∉ A ∧ op.MayEnd r e ∧ c = e.callback (w.stack.transfer r) := by
  intro w hmem hc
  obtain ⟨hspeech, -⟩ := speech_run settings client depth p r
  rw [← mem_talk (r := r) (by simp [Event.isTalk])] at hmem
  rcases hspeech.told_or_untold with hnot | ⟨⟨t⟩⟩
  · exact absurd hc (by simp [hnot.2 l contact c hmem])
  · obtain ⟨-, -, rfl⟩ := t.of_callback_mem hmem hc
    obtain ⟨T, hT, hclaims, -⟩ := claims_run depth p (.start settings client) r
    have hall : w.trace = T := hT
    obtain ⟨A, C, hclaim, hbefore, -⟩ := exists_of_talk_eq t.eq
    obtain ⟨A', op, M, rfl, hasks, hi, hop⟩ := hclaims A t.ending C (hall ▸ hclaim)
    refine ⟨A', op, M, t.ending, C, ?_, hasks, fun hmem => ?_, hop, (Ending.callback_eq _ _).symm⟩
    · exact hclaim.trans (List.append_assoc _ _ _)
    · -- all that was told before the claim is chatter, and the one interruption that follows
      have hlast : talk r (.asked op :: M) ≠ [] :=
        List.ne_nil_of_mem ((mem_talk (by simp [Event.isTalk])).mpr (List.mem_cons_of_mem _ hi))
      have hchatter : t.before = talk r A' ++ (talk r (.asked op :: M)).dropLast := by
        rw [← List.dropLast_append_of_ne_nil hlast, ← talk_append, hbefore, List.dropLast_concat]
      have hearly : .interrupted r ∈ t.before := by
        rw [hchatter]
        exact List.mem_append_left _ ((mem_talk (by simp [Event.isTalk])).mpr hmem)
      exact t.chatter _ hearly

end FileSharing
