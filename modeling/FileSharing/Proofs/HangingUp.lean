import FileSharing.Proofs.Conduct
import Mathlib.Logic.Function.Iterate

/-!
# How often a session hangs up

A session ends its dialog by a request.  It sends one whenever it is asked to close, and one
when it is given up, unless the reason says that the other party was first; it does not
remember that it has sent one, or received one.  So as many requests are sent as were
demanded.

## Main definitions

* `demands`, `sent` — how often a session is to end its dialog, and the requests that it
  sends.
* `Dues`, `World.Owes` — what a session has sent, and how much it still owes.

## Main results

* `World.HangsUp.conduct` — the conduct of sessions keeps the account.
* `byes_demanded` — **a session sends as many requests to end its dialog as were demanded**,
  and so at most one exactly where at most one was.
-/

namespace FileSharing

variable {E : Environment}

open Sip (Dialog)

/-! ### Requests -/

namespace Sip.Dialog

variable (d : Dialog)

/-- The first requests that can end a dialog, each of which counts. -/
def byes (n : Nat) : List Message := (List.range n).map fun i => (advance^[i + 1] d).byeRequest

/-- How many of the requests that are demanded a dialog can send. -/
def due (n : Nat) : Nat := if d.isEstablished then n else 0

@[simp] theorem length_byes (n : Nat) : (d.byes n).length = n := by simp [byes]

theorem byes_succ (n : Nat) : d.byes (n + 1) = d.byes n ++ [(advance^[n + 1] d).byeRequest] := by
  rw [byes, byes, List.range_succ, List.map_append]
  rfl

theorem due_add (m n : Nat) : d.due (m + n) = d.due m + d.due n := by
  unfold due
  split
  · rfl
  · rfl

theorem isEstablished_iterate (n : Nat) : (advance^[n] d).isEstablished = d.isEstablished := by
  induction n with
  | zero => rfl
  | succ n ih =>
    rw [Function.iterate_succ_apply']
    exact ih

variable {d}

theorem due_of_established (h : d.isEstablished = true) (n : Nat) : d.due n = n := if_pos h

theorem due_of_not_established (h : d.isEstablished = false) (n : Nat) : d.due n = 0 :=
  if_neg (by simp [h])

end Sip.Dialog

/-! ### What a trace says -/

section Traces

variable {ν : Type} {r : Ref} {T T' : List (Event ν)}

/-- Whether an event demands of a session that it end its dialog. -/
def Event.isDemand (r : Ref) : Event ν → Bool
  | .asked (.transfer s (.close reason)) => s = r ∧ reason ≠ .byRemote
  | .claimed s (.abort reason) => s = r ∧ reason ≠ .byRemote
  | _ => false

/-- The request that a session sends. -/
def Event.sent? (r : Ref) : Event ν → Option Sip.Message
  | .request s m => if s = r then some m else none
  | _ => none

/-- How often it is demanded of a session that it end its dialog. -/
def demands (r : Ref) (T : List (Event ν)) : Nat := T.countP (Event.isDemand r)

/-- The requests that a session sends. -/
def sent (r : Ref) (T : List (Event ν)) : List Sip.Message := T.filterMap (Event.sent? r)

/-- Whether a session is given a dialog from outside. -/
def Event.setsDialog (r : Ref) : Event ν → Bool
  | .asked (.session s (.setDialog _)) => s = r
  | _ => false

/-- A session is not given another dialog. -/
def KeepsDialog (r : Ref) (T : List (Event ν)) : Prop := ∀ e ∈ T, e.setsDialog r = false

instance : Decidable (KeepsDialog r T) :=
  inferInstanceAs (Decidable (∀ e ∈ T, Event.setsDialog r e = false))

/-- Whether an event neither demands a request of a session nor is one. -/
structure Event.IsBeside (r : Ref) (e : Event ν) : Prop where
  demand : e.isDemand r = false
  sent : e.sent? r = none

theorem Event.IsMinor.isBeside {e : Event ν} (he : e.IsMinor) : e.IsBeside r := by
  cases e with
  | asked op => exact absurd he not_false
  | request s m => exact absurd he not_false
  | claimed s ending => exact absurd he not_false
  | _ => exact ⟨rfl, rfl⟩

theorem not_isDemand_asked {s : Stack} {op : Op} (hr : s.isTransfer r = true)
    (hop : ¬op.Closes s) : (.asked op : Event ν).isDemand r = false := by
  cases op with
  | transfer q op =>
    cases op with
    | close reason =>
      have hq : q ≠ r := by
        rintro rfl
        exact hop hr
      exact decide_eq_false fun h => hq h.1
    | _ => rfl
  | _ => rfl

theorem demands_append : demands r (T ++ T') = demands r T + demands r T' := List.countP_append

theorem sent_append : sent r (T ++ T') = sent r T ++ sent r T' := List.filterMap_append

theorem sent_concat (T : List (Event ν)) (e : Event ν) :
    sent r (T ++ [e]) = sent r T ++ (e.sent? r).toList := filterMap_concat _ T e

theorem demands_concat (T : List (Event ν)) (e : Event ν) :
    demands r (T ++ [e]) = demands r T + if e.isDemand r then 1 else 0 := by
  rw [demands_append, demands, demands, List.countP_singleton]

theorem KeepsDialog.of_append (h : KeepsDialog r (T ++ T')) : KeepsDialog r T :=
  fun e he => h e (List.mem_append_left T' he)

end Traces

/-! ### The account -/

/-- What a session has sent in its dialog since that was `d`, of which it is `dialog` now,
and that it still owes `k` requests. -/
structure Dues {ν : Type} (r : Ref) (d : Dialog) (k : Nat) (T : List (Event ν))
    (dialog : Option Dialog) : Prop where
  dialog : dialog = some (Dialog.advance^[(sent r T).length] d)
  requests : sent r T = d.byes (sent r T).length
  owed : d.due (demands r T) = (sent r T).length + d.due k
  /-- At no time more had been sent than was demanded. -/
  earlier : ∀ A, A <+: T → (sent r A).length ≤ d.due (demands r A)

namespace Dues

variable {ν : Type} {r : Ref} {d : Dialog} {k k' : Nat} {T T' : List (Event ν)}
  {dialog dialog' : Option Dialog}

/-- One more event: what has been demanded has to be what was sent and what is owed. -/
theorem step (h : Dues r d k T dialog) {e : Event ν}
    (hdialog : dialog' = some (Dialog.advance^[(sent r (T ++ [e])).length] d))
    (hsent : sent r (T ++ [e]) = d.byes (sent r (T ++ [e])).length)
    (howed : d.due (demands r (T ++ [e]))
      = (sent r (T ++ [e])).length + d.due k') :
    Dues r d k' (T ++ [e]) dialog' := by
  refine ⟨hdialog, hsent, howed, ?_⟩
  intro A hA
  rcases List.prefix_concat_iff.mp hA with rfl | hA
  · rw [howed]
    exact Nat.le_add_right _ _
  · exact h.earlier A hA

/-- An event beside the dialog changes nothing. -/
theorem beside (h : Dues r d k T dialog) {e : Event ν} (he : e.IsBeside r) :
    Dues r d k (T ++ [e]) dialog := by
  have hsent : sent r (T ++ [e]) = sent r T := by
    rw [sent_concat, he.sent, Option.toList_none, List.append_nil]
  have hdemands : demands r (T ++ [e]) = demands r T := by
    rw [demands_concat, he.demand]
    rfl
  apply h.step
  · rw [hsent]
    exact h.dialog
  · rw [hsent]
    exact h.requests
  · rw [hsent, hdemands]
    exact h.owed

theorem append (h : Dues r d k T dialog) (hT' : ∀ e ∈ T', e.IsBeside r) :
    Dues r d k (T ++ T') dialog := by
  induction T' generalizing T with
  | nil =>
    rw [List.append_nil]
    exact h
  | cons e T' ih =>
    obtain ⟨he, hT'⟩ := List.forall_mem_cons.mp hT'
    rw [List.append_cons]
    exact ih (h.beside he) hT'

/-- One more request is demanded. -/
theorem demand (h : Dues r d k T dialog) {e : Event ν} (he : e.isDemand r = true)
    (hsent : e.sent? r = none) : Dues r d (k + 1) (T ++ [e]) dialog := by
  have hsame : sent r (T ++ [e]) = sent r T := by
    rw [sent_concat, hsent, Option.toList_none, List.append_nil]
  have hmore : demands r (T ++ [e]) = demands r T + 1 := by rw [demands_concat, if_pos he]
  apply h.step
  · rw [hsame]
    exact h.dialog
  · rw [hsame]
    exact h.requests
  · rw [hsame, hmore, d.due_add, h.owed, d.due_add, Nat.add_assoc]

/-- One of the requests that are owed is sent. -/
theorem pay {d' : Dialog} (h : Dues r d (k + 1) T (some d')) (hd : d'.isEstablished = true) :
    Dues r d k (T ++ [.request r d'.advance.byeRequest]) (some d'.advance) := by
  have hd' := Option.some.inj h.dialog
  generalize hn : (sent r T).length = n at hd'
  subst hd'
  rw [Dialog.isEstablished_iterate] at hd
  rw [← Function.iterate_succ_apply' Dialog.advance]
  have hsent : sent r (T ++ [.request r (Dialog.advance^[n + 1] d).byeRequest])
      = d.byes (n + 1) := by
    rw [sent_concat, h.requests, hn, d.byes_succ, Event.sent?, if_pos rfl, Option.toList_some]
  have hlength := congrArg List.length hsent
  rw [Dialog.length_byes] at hlength
  apply h.step
  · rw [hlength]
  · rw [hlength]
    exact hsent
  · have howed := h.owed
    simp only [Dialog.due_of_established hd] at howed ⊢
    rw [hlength, demands_concat, howed, hn]
    simp only [Event.isDemand, Bool.false_eq_true, if_false]
    omega

/-- Nothing is owed in a dialog that is not established. -/
theorem forgo {d' : Dialog} (h : Dues r d (k + 1) T (some d')) (hd : d'.isEstablished = false) :
    Dues r d k T (some d') := by
  rw [Option.some.inj h.dialog, Dialog.isEstablished_iterate] at hd
  refine { h with owed := ?_ }
  rw [h.owed, Dialog.due_of_not_established hd, Dialog.due_of_not_established hd]

end Dues

/-- A session has a dialog since some time at which it was `d`, and owes `k` requests,
unless it was given another dialog. -/
def World.Owes (r : Ref) (d : Dialog) (T₀ : List (Event E.Note)) (k : Nat) (w : World E) : Prop :=
  w.stack.isTransfer r = true ∧ ∃ T, w.trace = T₀ ++ T ∧
    (KeepsDialog r T → Dues r d k T (w.stack.session r).dialog)

/-- Between two worlds a session that owes `i` requests comes to owe `j`. -/
structure World.HangsUp (r : Ref) (i j : Nat) (w w' : World E) : Prop where
  grows : w.Grows w'
  owes : ∀ d T₀ k, w.Owes r d T₀ (k + i) → w'.Owes r d T₀ (k + j)

namespace World.HangsUp

variable {w w₁ w₂ w' : World E} {r s : Ref} {i j k : Nat}

theorem refl (w : World E) : w.HangsUp r i i w := ⟨.refl w, fun _ _ _ h => h⟩

theorem trans (h : w.HangsUp r i j w₁) (h' : w₁.HangsUp r j k w₂) : w.HangsUp r i k w₂ :=
  ⟨h.grows.trans h'.grows, fun d T₀ k hw => h'.owes d T₀ k (h.owes d T₀ k hw)⟩

/-- What is owed besides stays so. -/
theorem besides (h : w.HangsUp r 0 0 w') (j : Nat) : w.HangsUp r j j w' :=
  ⟨h.grows, fun d T₀ k hw => h.owes d T₀ (k + j) hw⟩

/-- Only file transfers matter. -/
theorem ofTransfer (hgrows : w.Grows w') (h : w.stack.isTransfer r = true → w.HangsUp r i j w') :
    w.HangsUp r i j w' :=
  ⟨hgrows, fun d T₀ k hw => (h hw.1).owes d T₀ k hw⟩

/-- Something happens beside the dialog of a session. -/
theorem quiet (hgrows : w.Grows w')
    (hdialog : (w'.stack.session r).dialog = (w.stack.session r).dialog)
    (htrace : ∃ T, w'.trace = w.trace ++ T ∧ ∀ e ∈ T, e.IsBeside r) : w.HangsUp r i i w' := by
  obtain ⟨T', hT', hbeside⟩ := htrace
  refine ⟨hgrows, fun d T₀ k hw => ?_⟩
  obtain ⟨hr, T, hT, hdues⟩ := hw
  refine ⟨hgrows.isTransfer hr, T ++ T', by rw [hT', hT, List.append_assoc], fun hkeeps => ?_⟩
  rw [hdialog]
  exact (hdues hkeeps.of_append).append hbeside

theorem idle (h : w.Idles w') : w.HangsUp r i i w' := by
  obtain ⟨T, hT, hminor⟩ := h.trace
  refine quiet h.grows (congrArg Posture.dialog (h.posture r)) ⟨T, hT, ?_⟩
  exact fun e he => (hminor e he).isBeside

theorem emit (w : World E) {e : Event E.Note} (he : e.IsBeside r) :
    w.HangsUp r i i (w.emit e) :=
  quiet (.emit w e) rfl ⟨[e], rfl, by simpa using he⟩

/-- A session changes, but not the dialog in question. -/
theorem update (w : World E) (s : Ref) {f : Session → Session}
    (hages : (w.stack.session s).Ages (f (w.stack.session s)))
    (hdialog : ∀ x, (f x).dialog = x.dialog) : w.HangsUp r i i (w.change (·.update s f)) :=
  quiet (.update w s hages) (Stack.apply_session_update Session.dialog hdialog)
    ⟨[], by simp, by simp⟩

/-- Another session is given a dialog. -/
theorem dialog_of_ne (hs : s ≠ r) (w : World E) (d : Dialog) :
    w.HangsUp r i i (w.change (·.update s fun x => { x with dialog := some d })) := by
  refine quiet (.update w s ?_) ?_ ⟨[], by simp, by simp⟩
  · exact .dialog _ _
  · rw [World.change_stack, Stack.session_update_of_ne (Ne.symm hs)]

/-- A session is given a dialog from outside. -/
theorem dialog (s : Ref) (d : Dialog) (w : World E) :
    w.HangsUp r i i ((w.emit (.asked (.session s (.setDialog d)))).change
      (·.update s fun x => { x with dialog := some d })) := by
  by_cases hs : s = r
  · subst hs
    have hgrows : w.Grows ((w.emit (.asked (.session s (.setDialog d)))).change
        (·.update s fun x => { x with dialog := some d })) := by
      refine .trans (.emit w _) (.update _ s ?_)
      exact .dialog _ _
    refine ⟨hgrows, fun d' T₀ k ⟨hr, T, hT, _⟩ => ?_⟩
    refine ⟨hgrows.isTransfer hr, T ++ [.asked (.session s (.setDialog d))], ?_, fun hkeeps => ?_⟩
    · rw [World.change_trace, World.emit_trace, hT, List.append_assoc]
    · have hset := hkeeps _ (List.mem_append_right T (List.mem_singleton.mpr rfl))
      simp [Event.setsDialog] at hset
  · exact trans (emit w ⟨rfl, rfl⟩) (dialog_of_ne hs _ d)

/-! ### Where the account moves -/

/-- A request is demanded. -/
theorem demand (w : World E) {e : Event E.Note} (he : e.isDemand r = true)
    (hsent : e.sent? r = none) : w.HangsUp r 0 1 (w.emit e) := by
  refine ⟨.emit w e, fun d T₀ k ⟨hr, T, hT, hdues⟩ => ⟨hr, T ++ [e], ?_, fun hkeeps => ?_⟩⟩
  · rw [World.emit_trace, hT, List.append_assoc]
  · exact (hdues hkeeps.of_append).demand he hsent

/-- A request is sent. -/
theorem pay {d : Dialog} (hdialog : (w.stack.session r).dialog = some d)
    (hd : d.isEstablished = true) (line : Text) :
    w.HangsUp r 1 0 (((w.change (·.update r fun x => { x with dialog := some d.advance })).emit
      (.log .debug line)).emit (.request r d.advance.byeRequest)) := by
  have hgrows : w.Grows (((w.change (·.update r fun x =>
      { x with dialog := some d.advance })).emit (.log .debug line)).emit
        (.request r d.advance.byeRequest)) := by
    refine .emitted (.emitted (.update w r ?_) _) _
    exact .dialog _ _
  refine ⟨hgrows, fun d' T₀ k ⟨hr, T, hT, hdues⟩ => ?_⟩
  refine ⟨hgrows.isTransfer hr,
    (T ++ [.log .debug line]) ++ [.request r d.advance.byeRequest], ?_, fun hkeeps => ?_⟩
  · simp [hT]
  · have hpaid := hdues hkeeps.of_append.of_append
    rw [hdialog] at hpaid
    have hafter := Stack.session_update_self (Stack.lt_size_of_isTransfer hr)
      fun x => { x with dialog := some d.advance }
    rw [World.emit_stack, World.emit_stack, World.change_stack, hafter]
    exact (hpaid.beside ⟨rfl, rfl⟩).pay hd

/-- Where there is no established dialog, nothing can be sent. -/
theorem forgo (h : ∀ d ∈ (w.stack.session r).dialog, d.isEstablished = false) :
    w.HangsUp r 1 0 w := by
  refine ⟨.refl w, fun d T₀ k ⟨hr, T, hT, hdues⟩ => ⟨hr, T, hT, fun hkeeps => ?_⟩⟩
  have howed := hdues hkeeps
  have hdialog := howed.dialog
  rw [hdialog] at h howed ⊢
  exact howed.forgo (h _ rfl)

/-! ### Conduct -/

/-- How many requests a session `s` that has something to do owes for it, seen by `r`. -/
def owing (r s : Ref) : Duty → Nat
  | .hangUp reason => if s = r ∧ reason ≠ .byRemote then 1 else 0
  | _ => 0

/-- An event that demands a request under the condition that one is owed. -/
theorem demands {reason : AbortReason} (w : World E) {e : Event E.Note}
    (he : e.isDemand r = decide (s = r ∧ reason ≠ .byRemote)) (hsent : e.sent? r = none) :
    w.HangsUp r 0 (owing r s (.hangUp reason)) (w.emit e) := by
  by_cases h : s = r ∧ reason ≠ .byRemote
  · rw [owing, if_pos h]
    exact demand w (he.trans (decide_eq_true h)) hsent
  · rw [owing, if_neg h]
    exact emit w ⟨he.trans (decide_eq_false h), hsent⟩

theorem interrupting (w : World E) (s : Ref) : w.HangsUp r i i (w.interrupting s) := by
  unfold World.interrupting
  split
  · exact refl w
  · refine trans (update w s ?_ ?_) (trans (emit _ ⟨rfl, rfl⟩) (emit _ ⟨rfl, rfl⟩))
    · exact .interrupt _
    · exact fun _ => rfl

theorem claiming (w : World E) (s : Ref) (ending : Ending) :
    w.HangsUp r 0 (owing r s ending.duty) (w.claiming s ending) := by
  refine trans (interrupting w s) ?_
  cases ending with
  | abort reason => exact demands _ rfl rfl
  | error e => exact emit _ ⟨rfl, rfl⟩
  | delivery => exact emit _ ⟨rfl, rfl⟩
  | bye => exact emit _ ⟨rfl, rfl⟩

variable {N : Handler E}

theorem steady (hN : ∀ (w : World E) op, w.HangsUp r 0 0 ((N op).run w).2) :
    Steady N (World.HangsUp r 0 0) :=
  .ofIdles idle trans hN

theorem made {file : Bool} (h : w.Made s file w') : w.HangsUp r i i w' := by
  obtain ⟨T, hT, hmaking⟩ := h.trace
  refine ofTransfer h.grows fun hr => quiet h.grows ?_ ⟨T, hT, fun e he => ?_⟩
  · rw [h.others r (Nat.ne_of_lt (h.fresh ▸ Stack.lt_size_of_isTransfer hr))]
  · exact (hmaking e he).isMinor.isBeside

/-- Another session ends its dialog. -/
theorem closeDialog_of_ne (hN : ∀ (w : World E) op, w.HangsUp r 0 0 ((N op).run w).2)
    (hs : s ≠ r) (reason : AbortReason) (w : World E) :
    w.HangsUp r 0 0 (Act.after N (Act.closeDialog s reason) w) :=
  (steady hN).closeDialog (dialog_of_ne hs) (fun w _ => emit w ⟨rfl, if_neg hs⟩) reason w

/-- The session itself ends its dialog. -/
theorem closeDialog (hN : ∀ (w : World E) op, w.HangsUp r 0 0 ((N op).run w).2)
    (reason : AbortReason) (w : World E) :
    w.HangsUp r (owing r r (.hangUp reason)) 0 (Act.after N (Act.closeDialog r reason) w) := by
  rw [Act.closeDialog, Act.after_session_bind, Act.after_bind, Act.after_info]
  generalize (_ ++ ascii ")" : Text) = line
  refine trans (emit w (e := .log .info line) ⟨rfl, rfl⟩) ?_
  generalize hw₁ : w.emit _ = w₁
  have hsession : w.stack.session r = w₁.stack.session r := by rw [← hw₁, World.emit_stack]
  rw [hsession]
  by_cases hreason : reason = .byRemote
  · -- the other party was first
    rw [owing, if_neg (fun h => h.2 hreason)]
    cases (w₁.stack.session r).dialog with
    | none => exact refl w₁
    | some d =>
      dsimp only
      rw [if_pos (by simp [hreason])]
      exact refl w₁
  · rw [owing, if_pos ⟨rfl, hreason⟩]
    cases hdialog : (w₁.stack.session r).dialog with
    | none => exact forgo (by simp [hdialog])
    | some d =>
      dsimp only
      cases hd : d.isEstablished with
      | false => exact forgo (by simpa [hdialog] using hd)
      | true =>
        rw [if_neg (by simp [hreason])]
        refine trans (pay hdialog hd d.advance.byeLog) ?_
        exact (steady hN).bind ((steady hN).ask _ _) ((steady hN).report _ _)

/-- **The conduct of sessions keeps the account.** -/
theorem conduct (hN : ∀ (w : World E) op, w.HangsUp r 0 0 ((N op).run w).2) :
    Conduct N (World.HangsUp r 0 0) fun s d => World.HangsUp r 0 (owing r s d) where
  toSteady := steady hN
  grows h := h.grows
  idle := idle
  capabilities _ := by
    refine trans (quiet (.change _ rfl) ?_ ⟨[], by simp, by simp⟩) (emit _ ⟨rfl, rfl⟩)
    rfl
  asked op w hop := ofTransfer (.emit w _) fun hr => emit w ⟨not_isDemand_asked hr hop, rfl⟩
  dialog := dialog
  interrupts _ _ := interrupting _ _
  establishes {r w} _ _ _ _ := by
    refine trans (update w r ?_ ?_) (trans (emit _ ⟨rfl, rfl⟩) (emit _ ⟨rfl, rfl⟩))
    · exact .ofTransfer _ fun _ _ => rfl
    · exact fun _ => rfl
  begins {r n w} _ _ := by
    refine (steady hN).begin (fun w => emit w ⟨rfl, rfl⟩)
      (fun w _ => emit w ⟨rfl, rfl⟩) (fun w => update w r ?_ ?_) w
    · exact .ofTransfer _ fun _ _ => rfl
    · exact fun _ => rfl
  drives _ _ _ := (steady hN).drive (emit _ ⟨rfl, rfl⟩) fun w _ => emit w ⟨rfl, rfl⟩
  claims _ _ := claiming _ _ _
  closes _ := demands _ rfl rfl
  later h h' := trans h (h'.besides _)
  done h := h
  hangsUp {s reason _ w'} _ h := by
    by_cases hs : s = r
    · subst hs
      exact trans h (closeDialog hN reason w')
    · rw [owing, if_neg fun h => hs h.1] at h
      exact trans h (closeDialog_of_ne hN hs reason w')
  hangsUpPlain {s reason w} _ hplain := by
    by_cases hs : s = r
    · subst hs
      exact ofTransfer (closeDialog hN reason w).grows fun hr =>
        absurd (hr.symm.trans hplain) (by decide)
    · exact closeDialog_of_ne hN hs reason w
  refreshes _ _ _ h := by
    refine trans h (trans (quiet (.change _ rfl) ?_ ⟨[], by simp, by simp⟩) (emit _ ⟨rfl, rfl⟩))
    rfl
  makes := made

end World.HangsUp

/-! ### Runs -/

/-- An operation with its nested ones keeps the account. -/
theorem hangsUp_exec (r : Ref) (depth : Nat) (w : World E) (op : Op) :
    w.HangsUp r 0 0 ((exec E depth op).run w).2 :=
  Rules.exec .refl (fun _ hN => (World.HangsUp.conduct hN).rules) depth w op

/-- A session that has a dialog owes nothing in it. -/
theorem World.owes_nothing {w : World E} {r : Ref} {d : Dialog}
    (hr : w.stack.isTransfer r = true) (hd : (w.stack.session r).dialog = some d) :
    w.Owes r d w.trace 0 := by
  refine ⟨hr, [], (List.append_nil _).symm, fun _ => ⟨hd, rfl, ?_, fun A hA => ?_⟩⟩
  · rw [Nat.add_comm]
    rfl
  · rw [List.prefix_nil.mp hA]
    exact Nat.zero_le _

/-- A session sends requests after a time exactly where more are demanded after it, or had
not been sent by then. -/
theorem Dues.sent_eq_nil_iff {ν : Type} {r : Ref} {d : Dialog} {dialog : Option Dialog}
    {A B : List (Event ν)} {e : Event ν} (h : Dues r d 0 (A ++ e :: B) dialog)
    (he : e.IsBeside r) :
    sent r B = [] ↔
      d.isEstablished = false ∨ demands r B = 0 ∧ demands r A = (sent r A).length := by
  have howed := h.owed
  have hbefore := h.earlier A (List.prefix_append A _)
  rw [List.append_cons, sent_append, sent_concat, demands_append, demands_concat, he.sent,
    he.demand, if_neg Bool.false_ne_true, List.length_append, Option.toList_none,
    List.append_nil] at howed
  rw [← List.length_eq_zero_iff]
  cases hd : d.isEstablished with
  | false =>
    simp only [Dialog.due_of_not_established hd] at howed
    simp only [true_or, iff_true]
    omega
  | true =>
    simp only [Dialog.due_of_established hd] at howed hbefore
    simp only [Bool.true_eq_false, false_or]
    omega

/-- **A session sends as many requests to end its dialog as were demanded**, in any world
and whatever listeners and collaborators do meanwhile: one for every time it is asked to
close and one for every time it is given up, except where the other party was first.  So it
sends at most one exactly where at most one was demanded, and none after the other party's
request exactly where none was demanded after it or still to be sent. -/
theorem byes_demanded (w : World E) {r : Ref} {d : Dialog} (hr : w.stack.isTransfer r = true)
    (hd : (w.stack.session r).dialog = some d) (depth : Nat) {α : Type}
    (p : Program E.State E.Note α) :
    let w' := ((run E depth p).run w).2
    ∃ T, w'.trace = w.trace ++ T ∧ (KeepsDialog r T →
      sent r T = d.byes (d.due (demands r T)) ∧
      (w'.stack.session r).dialog = some (Dialog.advance^[d.due (demands r T)] d) ∧
      ((sent r T).length ≤ 1 ↔ d.isEstablished = false ∨ demands r T ≤ 1) ∧
      ∀ A m B, T = A ++ .asked (.session r (.bye m)) :: B →
        (sent r B = [] ↔
          d.isEstablished = false ∨ demands r B = 0 ∧ demands r A = (sent r A).length)) := by
  intro w'
  have hrun : w.HangsUp r 0 0 w' := (World.HangsUp.conduct (hangsUp_exec r depth)).play p w
  obtain ⟨-, T, hT, hdues⟩ := hrun.owes d w.trace 0 (World.owes_nothing hr hd)
  refine ⟨T, hT, fun hkeeps => ?_⟩
  have h : Dues r d 0 T (w'.stack.session r).dialog := hdues hkeeps
  have howed : d.due (demands r T) = (sent r T).length := by
    rw [h.owed, Nat.add_eq_left]
    exact ite_self 0
  refine ⟨howed ▸ h.requests, howed ▸ h.dialog, ?_, ?_⟩
  · rw [← howed]
    cases hd : d.isEstablished with
    | false => simp [Dialog.due_of_not_established hd]
    | true => simp [Dialog.due_of_established hd]
  · rintro A m B rfl
    exact h.sent_eq_nil_iff ⟨rfl, rfl⟩

/-- A listener that closes a session once it hears that the session was given up. -/
def closeAborted (_ : Listener) (r : Ref) : Callback → Program Unit Unit (Option Text)
  | .aborted _ => .call (.transfer r (.close .byUser)) fun _ => .done none
  | _ => .done none

/-- A dialog that the other party has confirmed. -/
def confirmed : Dialog := .start "call" "sip:me@home" "sip:you@home" "here" "there" 1

/-- An upload with a dialog, to which the client listens. -/
def calling : World (.obliging closeAborted) :=
  let p : Program Unit Unit Unit :=
    .call (.create ⟨"a", ⟨"+331"⟩, [], 0, some ⟨.empty, none, [], 0, 0, .outgoing⟩⟩) fun _ =>
    .call (.session 0 (.setDialog confirmed)) fun _ =>
    .call (.transfer 0 (.addListener (some 0))) fun _ => .done ()
  ((run (.obliging closeAborted) 2 p).run (.start .default ())).2

/-- The upload is given up, and its listener closes it. -/
def givenUp : World (.obliging closeAborted) :=
  let p : Program Unit Unit Unit := .call (.transfer 0 (.abort .bySystem)) fun _ => .done ()
  ((run (.obliging closeAborted) 2 p).run calling).2

/-- A session that its listener closes while it is given up sends two requests. -/
theorem byes_demanded_givenUp :
    calling.stack.isTransfer 0 = true ∧ (calling.stack.session 0).dialog = some confirmed ∧
      ∃ T, givenUp.trace = calling.trace ++ T ∧ KeepsDialog 0 T ∧ demands 0 T = 2 ∧
        sent 0 T = confirmed.byes 2 := by
  have hr : calling.stack.isTransfer 0 = true := by decide +kernel
  have hd : (calling.stack.session 0).dialog = some confirmed := by decide +kernel
  obtain ⟨T, hT, hbyes⟩ := byes_demanded calling hr hd 2
    (.call (.transfer 0 (.abort .bySystem)) fun _ => .done ())
  have hlater : givenUp.trace.drop calling.trace.length = T := by
    rw [show givenUp.trace = calling.trace ++ T from hT, List.drop_left]
  have hkeeps : KeepsDialog 0 T := by
    rw [← hlater]
    decide +kernel
  have hdemands : demands 0 T = 2 := by
    rw [← hlater]
    decide +kernel
  have hsent := (hbyes hkeeps).1
  rw [hdemands] at hsent
  exact ⟨hr, hd, T, hT, hkeeps, hdemands, hsent⟩

/-- A session that is closed twice sends two requests, and one that is closed after the
other party has ended the dialog still sends one. -/
theorem not_at_most_one_bye :
    let N := exec (.obliging closeAborted) 1
    let closed := ((N (.transfer 0 (.close .byUser))).run calling).2
    let again := ((N (.transfer 0 (.close .byUser))).run closed).2
    let ended := ((N (.session 0 (.bye (.request .bye "sip:me@home")))).run calling).2
    let after := ((N (.transfer 0 (.close .byUser))).run ended).2
    (sent 0 closed.trace).length = 1 ∧ (sent 0 again.trace).length = 2 ∧
      sent 0 ended.trace = [] ∧ (sent 0 after.trace).length = 1 := by
  decide +kernel

end FileSharing
