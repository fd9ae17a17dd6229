import FileSharing.Proofs.Balancing
import FileSharing.Proofs.Watching

/-!
# Clients that are told of departures

A client that wants to hear of sessions leaving the registry from the start, and never asks not
to, is told once of each session that leaves, whoever makes it leave: the client by its name, the
session when it ends, or a callback, also one that is run because another session has just left.
So whenever the client looks, also while it is being told, the names that have entered are those
that it was told of, together with those that it finds registered.

## Main definitions

* `World.NotesBalance` — the registry was the balance whenever the client looked.
* `World.IsReckoned` — that is so now as well, and the client wants to hear of departures.
* `World.Reckons` — a step, or a run, after which a world is reckoned if it was before.

## Main results

* `World.Reckons.course`, `World.Reckons.exec`, `World.Reckons.run` — what comes of an operation
  of a session, an operation with its nested ones, and a program of the client leave a world
  reckoned.
* `departures_told` — **as many sessions have entered under a name as the client was told of, and
  one more while one is registered.**
-/

namespace FileSharing

variable {E : Environment}

/-! ### Reckoning -/

namespace World

variable {w w' : World E.watched}

/-- Whenever the client noted what it saw of the stack, the registry was the balance of what had
happened till then. -/
def NotesBalance (w : World E.watched) : Prop :=
  Obeys (fun T e => ∀ s, e = .note (.inl s) → Balances T s) w.trace

theorem NotesBalance.unnoted (h : w.NotesBalance) (hw : w.Unnoted w') : w'.NotesBalance := by
  obtain ⟨T, hT, hnotes⟩ := hw
  rw [NotesBalance, hT]
  exact Obeys.append h fun A e he s heq => absurd (heq ▸ he) (hnotes _)

/-- The client wants to hear of departures, the registry is the balance, and was so whenever the
client looked. -/
structure IsReckoned (w : World E.watched) : Prop where
  watched : w.stack.watched = true
  balances : Balances w.trace w.stack
  notes : w.NotesBalance

/-- Where the client does not ask to hear of departures no longer, a world is reckoned if one was
before. -/
structure Reckons (w w' : World E.watched) : Prop where
  grows : w.Grows w'
  keeps : .asked (.watch false) ∉ w'.trace → w.IsReckoned → w'.IsReckoned

namespace Reckons

open Act

variable {N : Handler E.watched} {w w₁ w₂ w' : World E.watched} {r : Ref}

theorem trans (h : w.Reckons w₁) (h' : w₁.Reckons w₂) : w.Reckons w₂ where
  grows := h.grows.trans h'.grows
  keeps hasked hw := h'.keeps hasked (h.keeps (fun hmem => hasked (h'.grows.trace.subset hmem)) hw)

/-- Nobody enters or leaves. -/
theorem passes (hgrows : w.Grows w') (h : w.Passes w') : w.Reckons w' where
  grows := hgrows
  keeps _ hw :=
    ⟨h.watched hw.watched, h.balances hw.balances, hw.notes.unnoted h.unnoted⟩

theorem refl (w : World E.watched) : w.Reckons w := passes (.refl w) (.refl w)

theorem emit (w : World E.watched) {e : Event E.watched.Note} (he : e.IsSilent) :
    w.Reckons (w.emit e) :=
  passes (.emit w e) (.emit w he)

theorem withClient (w : World E.watched) (c : E.watched.State) : w.Reckons (w.withClient c) :=
  passes (.withClient w c) (.withClient w c)

theorem ofMove (h : SessionMove r w w') : w.Reckons w' :=
  passes (Abides.ofMove h).grows (.ofMove h)

theorem ofMade {file : Bool} (h : w.Made r file w') : w.Reckons w' := passes h.grows (.ofMade h)

theorem interrupting (w : World E.watched) (r : Ref) : w.Reckons (w.interrupting r) :=
  passes (w.grows_interrupting r) (.interrupting w r)

theorem dismissing (w : World E.watched) (id : Text) : w.Reckons (w.dismissing id) where
  grows := w.grows_dismissing id
  keeps _ hw := ⟨(w.watched_dismissing id).trans hw.watched,
    balances_dismissing hw.balances hw.watched id, hw.notes.unnoted (w.unnoted_dismissing id)⟩

theorem leaving (w : World E.watched) (r : Ref) : w.Reckons (w.leaving r) where
  grows := w.grows_leaving r
  keeps _ hw := ⟨(w.watched_leaving r).trans hw.watched,
    balances_leaving hw.balances hw.watched r, hw.notes.unnoted (w.unnoted_leaving r)⟩

/-- A session enters whose name is free. -/
theorem enrolling (hfree : w.stack.find? (w.stack.session r).id = none) :
    w.Reckons (w.enrolling r) where
  grows := w.grows_enrolling r
  keeps _ hw := ⟨hw.watched, balances_enrolling hw.balances hfree,
    hw.notes.unnoted (w.unnoted_enrolling r)⟩

/-- Someone begins or ceases to listen to a transfer. -/
theorem relisten (w : World E.watched) (r : Ref) (ls : ListenerSet Listener) :
    w.Reckons (w.change (·.updateTransfer r fun t => { t with listeners := ls })) :=
  passes (.updateTransfer w r fun _ => rfl) (.change w rfl id)

/-- What a service does on the side: only the client lets itself be told no longer. -/
theorem ofService (h : ServiceMove w w') : w.Reckons w' := by
  have hgrows := (Abides.ofService h).grows
  cases h with
  | response m => exact passes hgrows (.emit w trivial)
  | capabilities c cs => exact passes hgrows (.emitted (.change w rfl id) trivial)
  | markRead id => exact passes hgrows (.emit w trivial)
  | settings f hf => exact passes hgrows (.change w rfl id)
  | watched on hon =>
    cases on with
    | true => exact passes hgrows (.change w rfl fun _ => rfl)
    | false =>
      -- the client has asked for it
      exact ⟨hgrows, fun hasked => absurd hon hasked⟩

/-! ### Clients -/

/-- A note, which is what is there if it is of the stack. -/
theorem note (w : World E.watched) {n : Stack ⊕ E.Note} (hn : ∀ s, n = .inl s → s = w.stack) :
    w.Reckons (w.emit (.note n)) where
  grows := .emit w _
  keeps _ hw := by
    refine ⟨hw.watched, hw.balances.concat ⟨rfl, rfl⟩, Obeys.concat hw.notes fun s heq => ?_⟩
    exact hn s (Event.note.inj heq) ▸ hw.balances

theorem sight (w : World E.watched) : w.Reckons (w.emit (.note (.inl w.stack))) :=
  note w fun _ h => (Sum.inl.inj h).symm

/-- The program of a client. -/
theorem play {α : Type} (p : Program E.State E.Note α)
    (hN : ∀ (w : World E.watched) op, w.Reckons ((N op).run w).2) (w : World E.watched) :
    w.Reckons (after N (Act.play (E := E.watched) p.watched) w) := by
  induction p generalizing w with
  | done a => exact sight w
  | call op next ih => exact (sight w).trans ((hN _ op).trans (ih _ _))
  | look next ih => exact ih _ _ w
  | change f next ih => exact (withClient w (f w.client)).trans (ih _)
  | write n next ih => exact (note w (by simp)).trans (ih _)

theorem fan {c : Callback} (h : Fan World.Reckons r c w w') : w.Reckons w' :=
  Fan.stays .refl .trans id (fun w _ => .emit w trivial) (fun w _ _ => .emit w trivial) h

/-- What comes of an operation on a session. -/
theorem course {t : Turn} (h : Course World.Reckons World.Reckons r t w w') : w.Reckons w' := by
  induction h with
  | logged level line _ ih => exact (emit _ (by trivial)).trans ih
  | nothing h => exact h
  | tell c _ _ h => exact fan h
  | establish _ _ h => exact (passes (grows_establishing _ r) (.establishing _ r)).trans (fan h)
  | @finish w w₁ w₂ w₃ w' e _ h₁ h₂ h₃ h₄ =>
    have hclaim := (passes (w.grows_claiming r e) (.claiming w r e)).trans h₁
    exact hclaim.trans ((fan h₂).trans (h₃.trans ((leaving w₃ r).trans h₄)))
  | @close w w₁ w' h₁ h₂ => exact (interrupting w r).trans (h₁.trans ((leaving w₁ r).trans h₂))
  | lasting client time _ _ h => exact (withClient _ client).trans ((emit _ (by trivial)).trans h)
  | expired client time _ _ _ h' ih =>
    exact (withClient _ client).trans ((emit _ (by trivial)).trans (ih.trans h'))
  | attach w l => exact relisten w r _
  | detach w l => exact relisten w r _

/-! ### Laws -/

variable (hN : ∀ (w : World E.watched) op, w.Reckons ((N op).run w).2)

include hN

theorem bylaws : Bylaws N World.Reckons fun _ => World.Reckons where
  refl := refl
  trans := trans
  log w _ _ := emit w (by trivial)
  client := withClient
  control r n call w := play (E.control r n call) hN w
  removed id w := play (E.removed id) hN w
  grows h := h.grows
  move h := ofMove h
  heard h := h.grows
  listener r l c w := play (E.listener l r c) hN w
  thrown _ h := h.trans (emit _ (by trivial))
  asked _ w _ := emit w (by trivial)
  bye _ h := (emit _ (by trivial)).trans (course h)
  interrupt _ := (emit _ (by trivial)).trans (interrupting _ _)
  interruptPlain _ _ := interrupting _ _
  removePlain _ _ h := (emit _ (by trivial)).trans ((leaving _ _).trans h)

theorem askTransfer (op : TransferOp) (hr : w.stack.isTransfer r = true) :
    w.Reckons (after N (Act.askTransfer r op) w) :=
  (emit w (by trivial)).trans
    (course ((bylaws hN).onTransfer op (w.emit (.asked (.transfer r op))) hr))

theorem services : Services N World.Reckons where
  toPlacid := (bylaws hN).toPlacid
  grows h := h.grows
  service h := ofService h
  attach l := (bylaws hN).addServiceListener Reckons.grows l
    (fun w ls => passes (.change w rfl) (.change w rfl id)) (askTransfer hN _)
  detach l := (bylaws hN).removeServiceListener Reckons.grows l
    (fun w ls => passes (.change w rfl) (.change w rfl id)) (askTransfer hN _)
  asked _ w _ := emit w (by trivial)
  transfer op _ _ := askTransfer hN op
  session op _ := (bylaws hN).askSession op
  start _ _ := (emit _ (by trivial)).trans ((bylaws hN).startUpload _)
  register _ hfree := (emit _ (by trivial)).trans (enrolling hfree)
  unregister h := (emit _ (by trivial)).trans ((dismissing _ _).trans h)
  make h := ofMade h
  enter h _ hfree := (ofMade h).trans (enrolling hfree)

theorem carryOut (op : Op) (w : World E.watched) : w.Reckons (after N (Act.carryOut op) w) := by
  by_cases hleaves : op.LeavesListeners
  · exact (services hN).carryOut hleaves w
  · cases op with
    | transfer r op => exact (services hN).carryOut_transfer (askTransfer hN op)
    | _ => exact absurd trivial hleaves

omit hN

/-! ### Runs -/

theorem exec (depth : Nat) (w : World E.watched) (op : Op) :
    w.Reckons ((exec E.watched depth op).run w).2 := by
  induction depth generalizing w op with
  | zero => exact refl w
  | succ depth ih => exact carryOut ih op w

theorem run (depth : Nat) {α : Type} (p : Program E.State E.Note α) (w : World E.watched) :
    w.Reckons ((run E.watched depth p.watched).run w).2 :=
  play p (exec depth) w

end Reckons

/-! ### What the client sees -/

/-- The client could see a stack, after what had happened till then: at some time on the way, or at
the end. -/
def Sees (w : World E.watched) (T : List (Event E.watched.Note)) (s : Stack) : Prop :=
  T = w.trace ∧ s = w.stack ∨ ∃ T', w.trace = T ++ .note (.inl s) :: T'

theorem IsReckoned.balances_of_sees {w : World E.watched} (h : w.IsReckoned)
    {T : List (Event E.watched.Note)} {s : Stack} (hsees : w.Sees T s) : Balances T s := by
  rcases hsees with ⟨rfl, rfl⟩ | ⟨T', hT⟩
  · exact h.balances
  · exact h.notes T _ T' hT s rfl

/-- The world at the beginning, in which the client has asked to hear of departures. -/
def attentive (settings : Settings) (client : E.State) : World E.watched :=
  let w : World E.watched := .start settings client
  ((w.emit (.note (.inl w.stack))).emit (.asked (.watch true))).change
    fun s => { s with watched := true }

theorem isReckoned_attentive (settings : Settings) (client : E.State) :
    (attentive (E := E) settings client).IsReckoned := by
  have hstart : Balances [] (Stack.fresh settings) (ν := E.watched.Note) := ⟨List.nodup_nil, .nil⟩
  have hnoted := hstart.concat (e := .note (.inl (.fresh settings))) ⟨rfl, rfl⟩
  have hasked := hnoted.concat (e := .asked (.watch true)) ⟨rfl, rfl⟩
  refine ⟨rfl, ⟨hasked.nodup, hasked.perm⟩, ?_⟩
  refine Obeys.concat (Obeys.concat Obeys.nil fun s heq => ?_) fun s heq => ?_
  · exact Sum.inl.inj (Event.note.inj heq) ▸ hstart
  · exact absurd heq (by simp)

end World

/-- **Whenever the client looks, as many sessions have entered under a name as it was told of, and
one more if one is registered**; and all that have entered are as many as it was told of, and those
that are registered.  It has to want to be told from the beginning, but may register sessions, take
them out, and ask them for anything while it is being told. -/
theorem departures_told (settings : Settings) (client : E.State) (depth : Nat) {α : Type}
    (p : Program E.State E.Note α) :
    let w : World E.watched :=
      .watched settings client (depth + 1) (.call (.watch true) fun _ => p)
    .asked (.watch false) ∉ w.trace → ∀ T s, w.Sees T s →
      (∀ id, (enteredNames T).count id
        = (toldNames T).count id + if (s.find? id).isSome then 1 else 0) ∧
      (enteredNames T).length = (toldNames T).length + s.count := by
  intro w hasked T s hsees
  -- the run goes on from where the client has asked to be told
  have hrun : (World.attentive settings client).Reckons w :=
    .run (depth + 1) p (World.attentive settings client)
  have hreckoned : w.IsReckoned := hrun.keeps hasked (World.isReckoned_attentive settings client)
  have hbalances := hreckoned.balances_of_sees hsees
  exact ⟨hbalances.count, hbalances.length⟩

/-- A client that registers its first session again as soon as it is told that one has left. -/
def Environment.clinging : Environment :=
  { Environment.obliging (fun _ _ _ => .done none) with
    removed := fun _ => .call (.register (some 0)) fun _ => .done () }

/-- A session enters the registry and is taken out. -/
def enterAndTakeOut : Program Unit Unit Unit :=
  .call (.create ⟨"chat", ⟨"+33612345678"⟩, [], 0, none⟩) fun _ =>
  .call (.register (some 0)) fun _ =>
  .call (.unregister "chat") fun _ => .done ()

/-- The world when a client that clings to its session has done that. -/
def clung : World Environment.clinging.watched :=
  .watched (E := .clinging) .default () 2 (.call (.watch true) fun _ => enterAndTakeOut)

/-- Whether the client asks not to be told any longer. -/
def Event.isUnwatch {ν : Type} : Event ν → Bool
  | .asked (.watch false) => true
  | _ => false

/-- The session is registered again, although the client was told that it has left. -/
theorem departures_told_clinging :
    .asked (.watch false) ∉ clung.trace ∧ (enteredNames clung.trace).length = 2 ∧
      toldNames clung.trace = ["chat"] ∧ clung.stack.count = 1 := by
  have hasked : .asked (.watch false) ∉ clung.trace := by
    have hnone : ∀ e ∈ clung.trace, e.isUnwatch = false := by decide +kernel
    exact fun hmem => Bool.noConfusion (hnone _ hmem)
  have hentered : (enteredNames clung.trace).length = 2 := by decide +kernel
  have htold : toldNames clung.trace = ["chat"] := by decide +kernel
  have hlength := (departures_told (E := .clinging) .default () 1 enterAndTakeOut hasked
    clung.trace clung.stack (.inl ⟨rfl, rfl⟩)).2
  rw [hentered, htold] at hlength
  exact ⟨hasked, hentered, htold, (Nat.add_left_cancel hlength).symm⟩

end FileSharing
