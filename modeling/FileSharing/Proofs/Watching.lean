import FileSharing.Proofs.Shifts

/-!
# Clients that watch

What is true of the stack whenever a client can see it, also in the middle of a fan-out,
is said of a client that watches: each of its programs does as before, and notes what it
sees of the stack before each operation and before it returns.  Between two notes the
program cannot see anything else.

Everything that is noted was so at some step on the way.  So what each step that the file
transfer service sees keeps is true of all that is ever noted.

## Main definitions

* `Program.watched`, `Environment.watched` — programs, and clients, that note what they see.
* `Environment.Asks` — what the programs of a client ask for.
* `World.Watches` — all that is noted between two worlds was so on the way.

## Main results

* `World.Watches.run` — **all that is noted in a run was so at a step on its way.**
-/

namespace FileSharing

/-! ### Notes -/

/-- A program that notes what it sees of the stack. -/
def Program.watched {σ ν α : Type} : Program σ ν α → Program σ (Stack ⊕ ν) α
  | .done a => .look fun s _ => .write (.inl s) (.done a)
  | .call op next => .look fun s _ => .write (.inl s) (.call op fun r => (next r).watched)
  | .look next => .look fun s c => (next s c).watched
  | .change f next => .change f next.watched
  | .write n next => .write (.inr n) next.watched

/-- A client whose programs note what they see of the stack. -/
def Environment.watched (E : Environment) : Environment where
  State := E.State
  Note := Stack ⊕ E.Note
  sendRequest := E.sendRequest
  sendResponse := E.sendResponse
  askCapabilities := E.askCapabilities
  markRead := E.markRead
  makeTransfer := E.makeTransfer
  now := E.now
  newTransferId := E.newTransferId
  newTag := E.newTag
  pick := E.pick
  listener l r c := (E.listener l r c).watched
  control r n call := (E.control r n call).watched
  removed id := (E.removed id).watched

/-- The programs of a client do nothing to the stack but what `P` allows. -/
structure Environment.Asks (E : Environment) (P : Op → Prop) : Prop where
  listener : ∀ l r c, (E.listener l r c).Asks P
  control : ∀ r n call, (E.control r n call).Asks P
  removed : ∀ id, (E.removed id).Asks P

theorem Program.Asks.mono {σ ν α : Type} {P Q : Op → Prop} (hPQ : ∀ op, P op → Q op)
    {p : Program σ ν α} (hp : p.Asks P) : p.Asks Q := by
  induction p with
  | done a => exact trivial
  | call op next ih => exact ⟨hPQ op hp.1, fun r => ih r (hp.2 r)⟩
  | look next ih => exact fun s c => ih s c (hp s c)
  | change f next ih => exact ih hp
  | write n next ih => exact ih hp

variable {E : Environment} {free : Prop}

theorem Environment.Asks.mono {P Q : Op → Prop} (h : E.Asks P) (hPQ : ∀ op, P op → Q op) :
    E.Asks Q where
  listener l r c := .mono hPQ (h.listener l r c)
  control r n call := .mono hPQ (h.control r n call)
  removed id := .mono hPQ (h.removed id)

/-- The world after a run from the start, in which the client watches. -/
def World.watched (settings : Settings) (client : E.State) (depth : Nat) {α : Type}
    (p : Program E.State E.Note α) : World E.watched :=
  ((run E.watched depth p.watched).run (.start settings client)).2

/-- Whether an operation may be asked for, where clients may ask transfers for their
listeners if `free` says so. -/
def Op.IsAllowed (free : Prop) (op : Op) : Prop := ¬op.LeavesListeners → free

/-- A program may ask for anything where clients may ask transfers for their listeners. -/
theorem Program.asks_allowed {σ ν α : Type} (p : Program σ ν α) : p.Asks (Op.IsAllowed True) :=
  .mono (Q := Op.IsAllowed True) (fun _ _ _ => trivial) p.asks_true

theorem Environment.asks_allowed (E : Environment) : E.Asks (Op.IsAllowed True) where
  listener l r c := (E.listener l r c).asks_allowed
  control r n call := (E.control r n call).asks_allowed
  removed id := (E.removed id).asks_allowed

/-- Between two worlds all that is noted was so on the way. -/
structure World.Watches (free : Prop) (w w' : World E.watched) : Prop where
  shifts : w.Shifts free w'
  notes : ∀ s, .note (.inl s) ∈ w'.trace → .note (.inl s) ∈ w.trace ∨
    ∃ w₁ : World E.watched, w.Shifts free w₁ ∧ w₁.Shifts free w' ∧ w₁.stack = s

namespace World.Watches

open Act

variable {N : Handler E.watched} {w w₁ w₂ w' : World E.watched} {r : Ref}

theorem trans (h : w.Watches free w₁) (h' : w₁.Watches free w₂) : w.Watches free w₂ := by
  refine ⟨h.shifts.trans h'.shifts, fun s hs => ?_⟩
  rcases h'.notes s hs with hs | ⟨x, hbefore, hafter, hx⟩
  · rcases h.notes s hs with hs | ⟨x, hbefore, hafter, hx⟩
    · exact .inl hs
    · exact .inr ⟨x, hbefore, hafter.trans h'.shifts, hx⟩
  · exact .inr ⟨x, h.shifts.trans hbefore, hafter, hx⟩

/-- A step at which nothing is noted. -/
theorem single (h : w.Shift free w') (hnotes : ∀ n, .note n ∈ w'.trace → .note n ∈ w.trace) :
    w.Watches free w' :=
  ⟨.single h, fun _ hs => .inl (hnotes _ hs)⟩

theorem relistens (h : w.Relistens w') : w.Watches free w' := single (.relistens h) h.notes

theorem abides (h : w.Abides w') : w.Watches free w' := relistens (.ofAbides h)

theorem refl (w : World E.watched) : w.Watches free w := abides (.refl w)

theorem emit (w : World E.watched) {e : Event E.watched.Note} (he : ∀ n, e ≠ .note n) :
    w.Watches free (w.emit e) :=
  abides (.emit w he)

theorem withClient (w : World E.watched) (c : E.watched.State) : w.Watches free (w.withClient c) :=
  abides (.withClient w c)

theorem enrolling (h : w.Shift free (w₁.enrolling r))
    (hnotes : ∀ n, .note n ∈ w₁.trace → .note n ∈ w.trace) : w.Watches free (w₁.enrolling r) :=
  single h fun n hn => hnotes n (by simpa [World.enrolling] using hn)

/-- Noting what is there. -/
theorem sight (w : World E.watched) : w.Watches free (w.emit (.note (.inl w.stack))) := by
  refine ⟨.single (.note w _), fun s hs => ?_⟩
  rcases List.mem_append.mp hs with hs | hs
  · exact .inl hs
  · have hsame : s = w.stack := Sum.inl.inj (Event.note.inj (List.mem_singleton.mp hs))
    exact .inr ⟨w, .refl w, .single (.note w _), hsame.symm⟩

/-- Writing what a program would write anyway. -/
theorem remark (w : World E.watched) (n : E.Note) :
    w.Watches free (w.emit (.note (.inr n))) := by
  refine ⟨.single (.note w _), fun s hs => .inl ?_⟩
  refine (List.mem_append.mp hs).resolve_right fun h => ?_
  exact absurd (Event.note.inj (List.mem_singleton.mp h)) (by simp)

/-- The program of a client that watches notes only what is there. -/
theorem play {α : Type} {p : Program E.State E.Note α} (hp : p.Asks (Op.IsAllowed free))
    (hN : ∀ (w : World E.watched) (op : Op), op.IsAllowed free →
      w.Watches free ((N op).run w).2) (w : World E.watched) :
    w.Watches free (after N (Act.play (E := E.watched) p.watched) w) := by
  induction p generalizing w with
  | done a => exact sight w
  | call op next ih => exact (sight w).trans ((hN _ op hp.1).trans (ih _ (hp.2 _) _))
  | look next ih => exact ih _ _ (hp _ _) w
  | change f next ih => exact (withClient w (f w.client)).trans (ih hp _)
  | write n next ih => exact (remark w n).trans (ih hp (w.emit (.note (.inr n))))

theorem fan {c : Callback} (h : Fan (World.Watches free) r c w w') : w.Watches free w' :=
  Fan.stays .refl .trans id (fun w _ => .emit w (by simp)) (fun w _ _ => .emit w (by simp)) h

/-- What comes of an operation on a session, where somebody begins or ceases to listen to it
only if that is allowed. -/
theorem course {t : Turn} (h : Course (World.Watches free) (World.Watches free) r t w w')
    (hlisten : t.IsListening → free) : w.Watches free w' := by
  induction h with
  | logged level line _ ih => exact (emit _ (by simp)).trans (ih hlisten)
  | nothing h => exact h
  | tell c _ _ h => exact fan h
  | establish _ _ h => exact (abides (.establishing _ r)).trans (fan h)
  | @finish w w₁ w₂ w₃ w' e _ h₁ h₂ h₃ h₄ =>
    have hleave : w₃.Watches free w' := (abides (.leaving _ r)).trans h₄
    exact (abides (.claiming w r e)).trans (h₁.trans ((fan h₂).trans (h₃.trans hleave)))
  | @close w w₁ w' h₁ h₂ =>
    exact (abides (.interrupting w r)).trans (h₁.trans ((abides (.leaving _ r)).trans h₂))
  | lasting client time _ _ h => exact (withClient _ client).trans ((emit _ (by simp)).trans h)
  | expired client time _ _ _ h' ih =>
    have hexpired := (ih not_false.elim).trans h'
    exact (withClient _ client).trans ((emit _ (by simp)).trans hexpired)
  | attach w l => exact single (.listening (hlisten trivial) (.relisten w r _)) fun _ h => h
  | detach w l => exact single (.listening (hlisten trivial) (.relisten w r _)) fun _ h => h

/-! ### Laws -/

variable (hE : E.Asks (Op.IsAllowed free))
  (hN : ∀ (w : World E.watched) (op : Op), op.IsAllowed free → w.Watches free ((N op).run w).2)

include hE hN

theorem bylaws : Bylaws N (World.Watches free) fun _ => World.Watches free where
  refl := refl
  trans := trans
  log w _ _ := emit w (by simp)
  client := withClient
  control r n call w := play (hE.control r n call) hN w
  removed id w := play (hE.removed id) hN w
  grows h := h.shifts.grows
  move h := abides (.ofMove h)
  heard h := h.shifts.grows
  listener r l c w := play (hE.listener l r c) hN w
  thrown _ h := h.trans (emit _ (by simp))
  asked _ w _ := emit w (by simp)
  bye hr h :=
    (emit _ (by simp)).trans (course h fun ht => absurd ht (Life.not_isListening_byeTurn _))
  interrupt _ := abides (.trans (.emit _ (by simp)) (.interrupting _ _))
  interruptPlain _ _ := abides (.interrupting _ _)
  removePlain _ _ h := (abides (.trans (.emit _ (by simp)) (.leaving _ _))).trans h

theorem askTransfer (op : TransferOp) (hop : op.IsListening → free)
    (hr : w.stack.isTransfer r = true) : w.Watches free (after N (Act.askTransfer r op) w) := by
  have hcourse := (bylaws hE hN).onTransfer op (w.emit (.asked (.transfer r op))) hr
  refine (emit w (by simp)).trans (course hcourse fun ht => ?_)
  exact hop (Life.isListening_of_turn ht)

theorem services : Services N (World.Watches free) where
  toPlacid := (bylaws hE hN).toPlacid
  grows h := h.shifts.grows
  service h := abides (.ofService h)
  attach l w := relistens (.ofAttach l w)
  detach l w := relistens (.ofDetach l w)
  asked _ w _ := emit w (by simp)
  transfer op _ hop := askTransfer hE hN op fun h => absurd h hop
  session op _ := (bylaws hE hN).askSession op
  start _ _ := (emit _ (by simp)).trans ((bylaws hE hN).startUpload _)
  register hr _ := enrolling (.register hr) (by simp)
  unregister h := (abides (.trans (.emit _ (by simp)) (.dismissing _ _))).trans h
  make h := abides (.ofMade h)
  enter h hadmits _ := enrolling (.enter h hadmits) (Abides.ofMade h).notes

/-- An operation that is allowed lets a client that watches note only what is so. -/
theorem carryOut {op : Op} (hop : op.IsAllowed free) (w : World E.watched) :
    w.Watches free (after N (Act.carryOut op) w) := by
  by_cases hleaves : op.LeavesListeners
  · exact (services hE hN).carryOut hleaves w
  · cases op with
    | transfer r op =>
      exact (services hE hN).carryOut_transfer (askTransfer hE hN op fun _ => hop hleaves)
    | _ => exact absurd trivial hleaves

omit hN

/-! ### Runs -/

theorem exec (depth : Nat) (w : World E.watched) {op : Op} (hop : op.IsAllowed free) :
    w.Watches free ((exec E.watched depth op).run w).2 := by
  induction depth generalizing w op with
  | zero => exact refl w
  | succ depth ih => exact carryOut hE (fun w op hop => ih w hop) hop w

/-- **All that is noted in a run was so at a step on its way.** -/
theorem run (depth : Nat) {α : Type} {p : Program E.State E.Note α}
    (hp : p.Asks (Op.IsAllowed free)) (w : World E.watched) :
    w.Watches free ((run E.watched depth p.watched).run w).2 :=
  play hp (fun w _ hop => exec hE depth w hop) w

end World.Watches

end FileSharing
