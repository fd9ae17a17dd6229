import FileSharing.Proofs.Settling
import Mathlib.Logic.Relation

/-!
# What the registry sees

Of all that a stack does, the registry sees little: a session leaves under its name,
whatever has a name is taken out, and a session enters where its name is free.  Nothing
else changes an entry, or the mark by which a session knows that it has left.  So a
run, with all that callbacks start in it, is a path of such steps, and what each of them
keeps is kept by every run.

Entries are found by name, and sessions are told apart by what they are.  The two agree
as long as nobody shares a name; where they do not, an entry follows the name.

## Main definitions

* `endings` — the file transfers that have ended.
* `World.Rests` — nothing happens that the registry sees.
* `World.Turnover`, `World.Evolves` — a step that the registry sees, and a path of them.
* `Stack.Filed` — every entry is filed under the name of its session, once.
* `World.Left` — a session leaves between two worlds.
* `World.IsStale` — a session is registered that has left.

## Main results

* `World.Evolves.laws` — **every run is a path of steps that the registry sees.**
* `World.Evolves.filed` — entries stay filed.
* `World.Evolves.entry` — **an entry whose name nobody touches is lost where a session
  of that name leaves, and kept otherwise.**
* `World.Evolves.stale` — **a session that has left is registered only if that is asked
  for.**
-/

namespace FileSharing

variable {E : Environment}

/-! ### Ends -/

section Ends

variable {ν : Type} {T T' : List (Event ν)}

/-- The file transfer that ends with an event: its end is claimed, or it is to be closed. -/
def Event.ending : Event ν → Option Ref
  | .claimed r _ => some r
  | .asked (.transfer r (.close _)) => some r
  | _ => none

/-- The file transfers that have ended, in order. -/
def endings (T : List (Event ν)) : List Ref := T.filterMap Event.ending

@[simp] theorem endings_append : endings (T ++ T') = endings T ++ endings T' :=
  List.filterMap_append

theorem endings_subset (h : T <+: T') : endings T ⊆ endings T' :=
  (h.sublist.filterMap Event.ending).subset

end Ends

/-- Whether a session may leave: a file transfer because it has ended, and a plain session
because that was asked for. -/
def World.MayLeave (w : World E) (r : Ref) : Prop :=
  r ∈ endings w.trace ∨ w.stack.isTransfer r = false ∧ .asked (.session r .removePlain) ∈ w.trace

/-! ### Steps -/

/-- Between two worlds the registry is the same, no session has left, and no name has been
touched. -/
structure World.Rests (w w' : World E) : Prop where
  grows : w.Grows w'
  registry : w'.stack.registry = w.stack.registry
  removed : ∀ r, (w'.stack.session r).removed = (w.stack.session r).removed
  quiet : ∀ id, touchings id w'.trace = touchings id w.trace

namespace World.Rests

variable {w w₁ w₂ : World E} {r : Ref}

theorem trans (h : w.Rests w₁) (h' : w₁.Rests w₂) : w.Rests w₂ :=
  ⟨h.grows.trans h'.grows, h'.registry.trans h.registry,
    fun r => (h'.removed r).trans (h.removed r), fun id => (h'.quiet id).trans (h.quiet id)⟩

theorem ofStands (h : w.Stands w₁) : w.Rests w₁ :=
  ⟨h.grows, h.registry, fun r => (h.session r).2.2, h.quiet⟩

theorem emit (w : World E) {e : Event E.Note} (he : ∀ id, e.touches id = false) :
    w.Rests (w.emit e) :=
  ofStands (.emit w he)

/-- No session has entered. -/
theorem registered (h : w.Rests w₁) (hr : Registered r w₁.trace) : Registered r w.trace :=
  hr.ofQuiet h.grows.trace h.quiet

theorem marking (w : World E) (r : Ref) :
    w.Rests (w.change (·.update r fun s => { s with interrupted := true })) :=
  ⟨.update w r (.interrupt _), rfl,
    fun _ => Stack.apply_session_update Session.removed fun _ => rfl, fun _ => rfl⟩

theorem interrupting (w : World E) (r : Ref) : w.Rests (w.interrupting r) := by
  unfold World.interrupting
  split
  · exact ofStands (.refl w)
  · exact (marking w r).trans (.trans (.emit _ fun _ => rfl) (.emit _ fun _ => rfl))

theorem claiming (w : World E) (r : Ref) (e : Ending) : w.Rests (w.claiming r e) :=
  (interrupting w r).trans (emit _ fun _ => rfl)

theorem ofMade {file : Bool} (h : w.Made r file w₁) : w.Rests w₁ := by
  refine ⟨h.grows, by rw [h.rest], fun q => ?_, h.quiet⟩
  by_cases hq : q = r
  · subst hq
    rw [h.isNew.removed, Stack.session_of_size_le (Nat.le_of_eq h.fresh)]
    rfl
  · rw [h.others q hq]

end World.Rests

/-- What the registry sees at a time. -/
inductive World.Turnover : World E → World E → Prop where
  /-- Nothing. -/
  | rests {w w' : World E} (h : w.Rests w') : Turnover w w'
  /-- A session leaves under its name, unless it has left before. -/
  | leaving {w : World E} {r : Ref} (hr : r < w.stack.sessions.size) (h : w.MayLeave r) :
    Turnover w (w.leaving r)
  /-- Whatever has a name is taken out. -/
  | unregister (w : World E) (id : Text) :
    Turnover w ((w.emit (.asked (.unregister id))).dismissing id)
  /-- A session enters because that is asked for. -/
  | register {w : World E} {r : Ref} (hr : r < w.stack.sessions.size)
    (hfree : w.stack.find? (w.stack.session r).id = none) :
    Turnover w ((w.emit (.asked (.register (some r)))).enrolling r)
  /-- A session enters that a service has just made. -/
  | enter {w w' : World E} {r : Ref} (h : w.Made r true w')
    (hfree : w'.stack.find? (w'.stack.session r).id = none) : Turnover w (w'.enrolling r)

theorem World.Turnover.grows {w w' : World E} (h : w.Turnover w') : w.Grows w' := by
  cases h with
  | rests h => exact h.grows
  | leaving _ _ => exact w.grows_leaving _
  | unregister id => exact (Grows.emit w _).trans (grows_dismissing _ id)
  | register hr hfree => exact (Grows.emit w _).trans (grows_enrolling _ _)
  | enter h hfree => exact h.grows.trans (grows_enrolling _ _)

/-- What the registry sees, one after another. -/
def World.Evolves (w w' : World E) : Prop := Relation.ReflTransGen World.Turnover w w'

namespace World.Evolves

variable {w w₁ w₂ w' : World E} {r : Ref}

theorem refl (w : World E) : w.Evolves w := Relation.ReflTransGen.refl

theorem trans (h : w.Evolves w₁) (h' : w₁.Evolves w₂) : w.Evolves w₂ :=
  Relation.ReflTransGen.trans h h'

theorem single (h : w.Turnover w') : w.Evolves w' := Relation.ReflTransGen.single h

theorem rests (h : w.Rests w') : w.Evolves w' := single (.rests h)

theorem emit (w : World E) {e : Event E.Note} (he : ∀ id, e.touches id = false) :
    w.Evolves (w.emit e) :=
  rests (.emit w he)

theorem grows (h : w.Evolves w') : w.Grows w' := by
  induction h with
  | refl => exact .refl w
  | tail _ hstep ih => exact ih.trans hstep.grows

/-! ### Runs -/

theorem fan {c : Callback} (h : Fan World.Evolves r c w w') : w.Evolves w' :=
  Fan.stays .refl .trans id (fun w _ => .emit w fun _ => rfl) (fun w _ _ => .emit w fun _ => rfl) h

/-- What comes of an operation on a session that exists; it is closed only where that was
asked for. -/
theorem course {t : Turn} (h : Course World.Evolves World.Evolves r t w w')
    (hr : r < w.stack.sessions.size) (hclose : t = .close → r ∈ endings w.trace) :
    w.Evolves w' := by
  induction h with
  | @logged w w' t level line _ ih =>
    refine (emit _ fun _ => rfl).trans (ih hr fun ht => endings_subset ?_ (hclose ht))
    exact (Grows.emit w (.log level line)).trace
  | nothing h => exact h
  | tell c _ _ h => exact fan h
  | establish _ _ h => exact (rests (.ofStands (.establishing _ r))).trans (fan h)
  | @finish w w₁ w₂ w₃ w' e _ h₁ h₂ h₃ h₄ =>
    -- callbacks may do anything before the session leaves, but its end is claimed all along
    have hcalls := h₁.trans ((fan h₂).trans h₃)
    have hends := (rests (.claiming w r e)).trans hcalls
    have hclaimed : r ∈ endings (w.claiming r e).trace := by
      simp [World.claiming, endings, Event.ending]
    refine hends.trans ((single (.leaving ?_ (.inl ?_))).trans h₄)
    · exact Nat.lt_of_lt_of_le hr hends.grows.size
    · exact endings_subset hcalls.grows.trace hclaimed
  | @close w w₁ w' h₁ h₂ =>
    have hends := (rests (.interrupting w r)).trans h₁
    refine hends.trans ((single (.leaving ?_ (.inl ?_))).trans h₂)
    · exact Nat.lt_of_lt_of_le hr hends.grows.size
    · exact endings_subset hends.grows.trace (hclose rfl)
  | lasting client time _ _ h =>
    exact (rests (.ofStands (.withClient _ client))).trans ((emit _ fun _ => rfl).trans h)
  | expired client time _ _ _ h' ih =>
    have hexpired := (ih hr (by simp)).trans h'
    exact (rests (.ofStands (.withClient _ client))).trans ((emit _ fun _ => rfl).trans hexpired)
  | attach w l => exact rests (.ofStands (.updateTransfer w fun _ _ => rfl))
  | detach w l => exact rests (.ofStands (.updateTransfer w fun _ _ => rfl))

/-- Only a request to close a transfer closes it. -/
theorem mem_endings_of_close {x : Life} {op : TransferOp} (h : x.turn op = .close)
    (w : World E) : r ∈ endings (w.emit (.asked (.transfer r op))).trace := by
  obtain ⟨reason, rfl⟩ := Life.turn_eq_close h
  simp [endings, Event.ending]

/-- **Whatever a stack does is a path of steps that the registry sees.** -/
theorem laws {N : Handler E} (hN : ∀ (w : World E) op, w.Evolves ((N op).run w).2) :
    Laws N World.Evolves fun _ => World.Evolves := by
  have hsteady : Steady N World.Evolves := {
    refl := .refl
    trans := .trans
    log := fun w _ _ => .emit w fun _ => rfl
    note := fun w _ => .emit w fun _ => rfl
    client := fun w c => .rests (.ofStands (.withClient w c))
    nested := hN }
  exact {
    hsteady with
    grows := grows
    move := fun h => rests (.ofStands (.ofMove h))
    heard := grows
    listener := fun _ _ _ w => hsteady.play _ w
    thrown := fun _ h => h.trans (emit _ fun _ => rfl)
    service := fun h => rests (.ofStands (.ofService h))
    listeners := fun w _ => rests (.ofStands (.change w rfl rfl))
    asked := fun _ w haside => emit w haside.touches
    transfer := fun op w w' hr h => by
      refine (emit w fun _ => rfl).trans (course h (Stack.lt_size_of_isTransfer hr) fun ht => ?_)
      exact mem_endings_of_close ht w
    bye := fun hr h => by
      refine (emit _ fun _ => rfl).trans (course h (Stack.lt_size_of_isTransfer hr) fun ht => ?_)
      exact absurd ht (Life.byeTurn_ne_close _)
    interrupt := fun _ => rests (.trans (.emit _ fun _ => rfl) (.interrupting _ _))
    interruptPlain := fun _ _ => rests (.interrupting _ _)
    removePlain := fun {r w w'} hr hplain h => by
      refine (emit _ fun _ => rfl).trans ((single (.leaving ?_ (.inr ⟨?_, ?_⟩))).trans h)
      · exact hr
      · exact hplain
      · exact List.mem_append_right _ List.mem_cons_self
    register := fun hr hfree => single (.register hr hfree)
    unregister := fun h => (single (.unregister _ _)).trans h
    make := fun h => rests (.ofMade h)
    enter := fun h _ hfree => single (.enter h hfree) }

theorem exec (depth : Nat) (w : World E) (op : Op) : w.Evolves ((exec E depth op).run w).2 :=
  Laws.exec .refl (fun _ h => laws h) depth w op

theorem run (depth : Nat) {α : Type} (p : Program E.State E.Note α) (w : World E) :
    w.Evolves ((run E depth p).run w).2 :=
  Laws.run .refl (fun _ h => laws h) depth p w

end World.Evolves

/-! ### Filing -/

namespace Stack

/-- Whether a session is registered. -/
def Holds (s : Stack) (r : Ref) : Prop := r ∈ s.registry.map Prod.snd

instance (s : Stack) (r : Ref) : Decidable (s.Holds r) :=
  inferInstanceAs (Decidable (r ∈ s.registry.map Prod.snd))

/-- Every entry is filed under the name of its session, and no name has two entries. -/
structure Filed (s : Stack) : Prop where
  nodup : (s.registry.map Prod.fst).Nodup
  made : ∀ e ∈ s.registry, e.2 < s.sessions.size
  name : ∀ e ∈ s.registry, (s.session e.2).id = e.1

variable {s : Stack} {r : Ref}

theorem Filed.mem (h : s.Filed) (hr : s.Holds r) : ((s.session r).id, r) ∈ s.registry := by
  obtain ⟨⟨id, q⟩, he, rfl⟩ := List.mem_map.mp hr
  have hid : (s.session q).id = id := h.name _ he
  rwa [hid]

/-- The entry of a registered session is the one under its name. -/
theorem Filed.ref_eq_iff (h : s.Filed) (hr : s.Holds r) {e : Text × Ref} (he : e ∈ s.registry) :
    e.2 = r ↔ e.1 = (s.session r).id := by
  constructor
  · rintro rfl
    exact (h.name e he).symm
  · intro hname
    have hsame := List.inj_on_of_nodup_map h.nodup he (h.mem hr) hname
    exact congrArg Prod.snd hsame

theorem filed_fresh (settings : Settings) : (fresh settings).Filed :=
  ⟨List.nodup_nil, by simp [fresh], by simp [fresh]⟩

/-- Where a name is free, there is nothing of it to take out. -/
theorem filter_of_free {id : Text} (h : s.find? id = none) :
    s.registry.filter (·.1 ≠ id) = s.registry := by
  have hlookup := List.lookup_eq_none_iff.mp h
  refine List.filter_eq_self.mpr fun e he => ?_
  exact decide_eq_true (Ne.symm (by simpa using hlookup e he))

end Stack

namespace World

variable {w w' : World E} {r q : Ref} {id : Text}

/-- All that a name has in the registry is taken out. -/
theorem stack_dismissing (w : World E) (id : Text) :
    (w.dismissing id).stack
      = { w.stack with registry := w.stack.registry.filter (·.1 ≠ id) } := by
  unfold dismissing
  split
  · dsimp only
    split
    · rfl
    · rfl
  · next hnone => rw [Stack.filter_of_free (Option.not_isSome_iff_eq_none.mp hnone)]

theorem registry_dismissing (w : World E) (id : Text) :
    (w.dismissing id).stack.registry = w.stack.registry.filter (·.1 ≠ id) := by
  rw [stack_dismissing]

theorem stack_leaving (h : (w.stack.session r).removed = false) :
    (w.leaving r).stack
      = { w.stack.update r fun x => { x with removed := true } with
          registry := w.stack.registry.filter (·.1 ≠ (w.stack.session r).id) } := by
  rw [leaving, if_neg (by simp [h]), stack_dismissing]
  rfl

theorem registry_leaving (h : (w.stack.session r).removed = false) :
    (w.leaving r).stack.registry
      = w.stack.registry.filter (·.1 ≠ (w.stack.session r).id) := by
  rw [stack_leaving h]

theorem filed_of_sublist (hw : w.stack.Filed) (hgrows : w.Grows w')
    (hsub : w'.stack.registry.Sublist w.stack.registry) : w'.stack.Filed where
  nodup := hw.nodup.sublist (hsub.map _)
  made e he := Nat.lt_of_lt_of_le (hw.made e (hsub.subset he)) hgrows.size
  name e he := by
    have hmem := hsub.subset he
    rw [(hgrows.ages _ (hw.made e hmem)).id, hw.name e hmem]

/-- Entries stay filed where one is added under a name that is free. -/
theorem filed_enrolling (hw : w.stack.Filed) (hr : r < w.stack.sessions.size)
    (hfree : w.stack.find? (w.stack.session r).id = none) : (w.enrolling r).stack.Filed where
  nodup := by
    refine List.nodup_cons.mpr ⟨fun hmem => ?_, hw.nodup⟩
    obtain ⟨e, he, hname⟩ := List.mem_map.mp hmem
    have hlookup := List.lookup_eq_none_iff.mp hfree e he
    exact absurd hname.symm (by simpa using hlookup)
  made e he := (List.mem_cons.mp he).elim (fun h => h ▸ hr) (hw.made e)
  name e he := (List.mem_cons.mp he).elim (fun h => h ▸ rfl) (hw.name e)

theorem Turnover.filed (h : w.Turnover w') (hw : w.stack.Filed) : w'.stack.Filed := by
  have hgrows := h.grows
  cases h with
  | rests h => exact filed_of_sublist hw hgrows (h.registry ▸ .refl _)
  | leaving _ _ =>
    refine filed_of_sublist hw hgrows ?_
    unfold World.leaving
    split
    · exact .refl _
    · rw [registry_dismissing]
      exact List.filter_sublist
  | unregister id =>
    refine filed_of_sublist hw hgrows ?_
    rw [registry_dismissing]
    exact List.filter_sublist
  | register hr hfree => exact filed_enrolling (w := w.emit _) hw hr hfree
  | enter h hfree =>
    have hmade := Rests.ofMade h
    exact filed_enrolling (filed_of_sublist hw hmade.grows (hmade.registry ▸ .refl _)) h.lt_size
      hfree

/-- **Entries stay filed under the names of their sessions.** -/
theorem Evolves.filed (h : w.Evolves w') (hw : w.stack.Filed) : w'.stack.Filed := by
  induction h with
  | refl => exact hw
  | tail _ hstep ih => exact hstep.filed ih

end World

/-! ### Names -/

variable {ν : Type}

/-- Between two worlds a session leaves. -/
structure World.Left (r : Ref) (w w' : World E) : Prop where
  before : (w.stack.session r).removed = false
  after : (w'.stack.session r).removed = true

/-- Between two worlds nothing has become of a name: its entry is the same, and no
session of that name has left. -/
structure World.Keeps (id : Text) (w w' : World E) : Prop where
  find? : w'.stack.find? id = w.stack.find? id
  name_ne : ∀ r, w.Left r w' → (w'.stack.session r).id ≠ id

/-- Between two worlds a session has left, and the entry of its name is gone. -/
structure World.Loses (id : Text) (w w' : World E) : Prop where
  find? : w'.stack.find? id = none
  left : ∃ r, w.Left r w' ∧ (w'.stack.session r).id = id

namespace World

variable {w w₁ w₂ w' : World E} {r q : Ref} {id : Text}

/-! ### Leaving -/

theorem left_trans_iff (h : w.Grows w₁) (h' : w₁.Grows w₂) :
    w.Left r w₂ ↔ w.Left r w₁ ∨ w₁.Left r w₂ := by
  constructor
  · intro hleft
    cases hr : (w₁.stack.session r).removed with
    | true => exact .inl ⟨hleft.before, hr⟩
    | false => exact .inr ⟨hr, hleft.after⟩
  · rintro (hleft | hleft)
    · exact ⟨hleft.before, h'.removed hleft.after⟩
    · refine ⟨Bool.eq_false_iff.mpr fun hr => ?_, hleft.after⟩
      exact absurd (h.removed hr) (by simp [hleft.before])

theorem Left.id_eq (h : w.Left r w₁) (h' : w₁.Grows w₂) :
    (w₂.stack.session r).id = (w₁.stack.session r).id :=
  (h'.ages r (Grows.lt_size_of_removed h.after)).id

theorem left_leaving (h : w.Left q (w.leaving r)) : q = r := by
  by_contra hq
  have hafter := h.after
  rw [session_leaving_of_ne hq, h.before] at hafter
  exact absurd hafter (by decide)

/-! ### What becomes of a name -/

theorem Keeps.trans (h : w.Keeps id w₁) (h' : w₁.Keeps id w₂) (hgrows : w.Grows w₁)
    (hgrows' : w₁.Grows w₂) : w.Keeps id w₂ := by
  refine ⟨h'.find?.trans h.find?, fun r hleft => ?_⟩
  rcases (left_trans_iff hgrows hgrows').mp hleft with hleft | hleft
  · rw [hleft.id_eq hgrows']
    exact h.name_ne r hleft
  · exact h'.name_ne r hleft

theorem Loses.trans (h : w.Loses id w₁) (h' : w₁.Keeps id w₂ ∨ w₁.Loses id w₂)
    (hgrows : w.Grows w₁) (hgrows' : w₁.Grows w₂) : w.Loses id w₂ := by
  obtain ⟨r, hleft, hname⟩ := h.left
  refine ⟨?_, r, (left_trans_iff hgrows hgrows').mpr (.inl hleft), ?_⟩
  · exact h'.elim (fun h' => h'.find?.trans h.find?) Loses.find?
  · rw [hleft.id_eq hgrows', hname]

theorem Loses.after (h : w₁.Loses id w₂) (hgrows : w.Grows w₁) (hgrows' : w₁.Grows w₂) :
    w.Loses id w₂ := by
  obtain ⟨r, hleft, hname⟩ := h.left
  exact ⟨h.find?, r, (left_trans_iff hgrows hgrows').mpr (.inr hleft), hname⟩

theorem Rests.keeps (h : w.Rests w') : w.Keeps id w' := by
  refine ⟨by rw [Stack.find?, h.registry, Stack.find?], fun r hleft => ?_⟩
  have hafter := hleft.after
  rw [h.removed, hleft.before] at hafter
  exact absurd hafter (by decide)

/-- Where no session has left, a name keeps its entry as long as look-ups say so. -/
theorem keeps_of_session (hsession : ∀ r, w'.stack.session r = w.stack.session r)
    (hfind : w'.stack.find? id = w.stack.find? id) : w.Keeps id w' := by
  refine ⟨hfind, fun r hleft => ?_⟩
  have hafter := hleft.after
  rw [hsession, hleft.before] at hafter
  exact absurd hafter (by decide)

theorem Grows.touchings_le (h : w.Grows w') (id : Text) :
    touchings id w.trace ≤ touchings id w'.trace :=
  h.trace.sublist.countP_le

/-- Where nothing has touched a name, no event on the way has. -/
theorem not_touches {e : Event E.Note} (h : w.Grows w₁) (he : w₁.trace ++ [e] <+: w'.trace)
    (hquiet : touchings id w'.trace = touchings id w.trace) : e.touches id = false := by
  have hbefore := h.touchings_le id
  have hafter : touchings id (w₁.trace ++ [e]) ≤ touchings id w'.trace := he.sublist.countP_le
  by_contra htouches
  rw [touchings, List.countP_append, List.countP_singleton, if_pos (by simpa using htouches),
    ← touchings] at hafter
  omega

theorem registered_prefix_enrolling (w : World E) (r : Ref) :
    w.trace ++ [.registered (w.stack.session r).id r] <+: (w.enrolling r).trace :=
  ⟨_, rfl⟩

end World

namespace World

variable {w w' : World E} {r : Ref} {id : Text}

/-- What one step makes of a name that it does not touch. -/
theorem Turnover.entry (h : w.Turnover w')
    (hquiet : touchings id w'.trace = touchings id w.trace) :
    w.Keeps id w' ∨ w.Loses id w' := by
  cases h with
  | rests h => exact .inl h.keeps
  | @leaving r hr _ =>
    cases hgone : (w.stack.session r).removed with
    | true =>
      rw [leaving_of_removed hgone]
      exact .inl (keeps_of_session (fun _ => rfl) rfl)
    | false =>
      have hages := (w.grows_leaving r).ages r hr
      by_cases hid : id = (w.stack.session r).id
      · refine .inr ⟨?_, r, ⟨hgone, removed_leaving hr⟩, by rw [hages.id, hid]⟩
        rw [find?_leaving hgone, if_pos hid]
      · refine .inl ⟨by rw [find?_leaving hgone, if_neg hid], fun q hleft => ?_⟩
        rw [left_leaving hleft, hages.id]
        exact Ne.symm hid
  | unregister name =>
    -- the request itself would touch the name
    have hname : id ≠ name := by
      rintro rfl
      have hsilent := not_touches (.refl w) (grows_dismissing (w.emit _) id).trace hquiet
      exact absurd hsilent (by simp [Event.touches])
    refine .inl (keeps_of_session (fun q => ?_) ?_)
    · rw [Stack.session, dismissing_sessions]
      rfl
    · rw [find?_dismissing, if_neg hname]
      rfl
  | @register r hr hfree =>
    have hname : id ≠ (w.stack.session r).id := by
      rintro rfl
      have hsilent := not_touches (.emit w _) (registered_prefix_enrolling _ r) hquiet
      exact absurd hsilent (by simp [Event.touches])
    refine .inl (keeps_of_session (fun _ => rfl) ?_)
    rw [find?_enrolling]
    exact if_neg hname
  | @enter w₁ r h hfree =>
    have hname : id ≠ (w₁.stack.session r).id := by
      rintro rfl
      have hsilent := not_touches h.grows (registered_prefix_enrolling w₁ r) hquiet
      exact absurd hsilent (by simp [Event.touches])
    have hmade : w.Keeps id w₁ := (Rests.ofMade h).keeps
    refine .inl ⟨?_, fun q hleft => hmade.name_ne q ⟨hleft.before, hleft.after⟩⟩
    rw [find?_enrolling, if_neg hname, hmade.find?]

/-- **An entry whose name nobody touches is lost where a session of that name leaves, and
kept otherwise**, whichever session it holds. -/
theorem Evolves.entry (h : w.Evolves w')
    (hquiet : touchings id w'.trace = touchings id w.trace) :
    w.Keeps id w' ∨ w.Loses id w' := by
  induction h with
  | refl => exact .inl (keeps_of_session (fun _ => rfl) rfl)
  | @tail w₁ w₂ h hstep ih =>
    have hgrows := Evolves.grows h
    -- nothing has touched the name on the way, so neither part of the way has
    have hfirst := hgrows.touchings_le id
    have hthen := hstep.grows.touchings_le id
    have hsame : touchings id w₁.trace = touchings id w.trace := by omega
    have hrest := hstep.entry (hquiet.trans hsame.symm)
    rcases ih hsame with hkept | hlost
    · rcases hrest with hkept' | hlost'
      · exact .inl (hkept.trans hkept' hgrows hstep.grows)
      · exact .inr (hlost'.after hgrows hstep.grows)
    · exact .inr (hlost.trans hrest hgrows hstep.grows)

/-! ### Sessions that have left -/

/-- Whether a session is registered that has left. -/
structure IsStale (w : World E) (r : Ref) : Prop where
  holds : w.stack.Holds r
  removed : (w.stack.session r).removed = true

end World

/-- The sessions that an operation asks to be registered. -/
def Op.registers : Op → List Ref
  | .register (some r) => [r]
  | _ => []

theorem Op.eq_register_of_mem {op : Op} {r : Ref} (h : r ∈ op.registers) :
    op = .register (some r) := by
  cases op with
  | register q =>
    cases q with
    | none => exact absurd h List.not_mem_nil
    | some q =>
      rw [Op.registers, List.mem_singleton] at h
      rw [h]
  | _ => exact absurd h List.not_mem_nil

def Event.registers : Event ν → List Ref
  | .asked op => op.registers
  | _ => []

/-- The sessions that were asked to be registered, in order. -/
def registrations (T : List (Event ν)) : List Ref := T.flatMap Event.registers

theorem registrations_append (T T' : List (Event ν)) :
    registrations (T ++ T') = registrations T ++ registrations T' :=
  List.flatMap_append

namespace World

variable {w w' : World E} {r : Ref}

theorem Grows.count_registrations_le (h : w.Grows w') (r : Ref) :
    (registrations w.trace).count r ≤ (registrations w'.trace).count r := by
  obtain ⟨T, hT⟩ := h.trace
  rw [← hT, registrations_append, List.count_append]
  exact Nat.le_add_right _ _

theorem Grows.mem_registrations (h : w.Grows w') (hr : r ∈ registrations w.trace) :
    r ∈ registrations w'.trace :=
  List.count_pos_iff.mp
    (Nat.lt_of_lt_of_le (List.count_pos_iff.mpr hr) (h.count_registrations_le r))

/-- One step makes a session stale only by registering it. -/
theorem Turnover.stale (h : w.Turnover w') (hw : w.stack.Filed) (hr : w'.IsStale r) :
    w.IsStale r ∨ (registrations w.trace).count r < (registrations w'.trace).count r := by
  cases h with
  | rests h =>
    refine .inl ⟨?_, by rw [← h.removed, hr.removed]⟩
    rw [Stack.Holds, ← h.registry]
    exact hr.holds
  | @leaving q hq _ =>
    cases hgone : (w.stack.session q).removed with
    | true =>
      rw [leaving_of_removed hgone] at hr
      exact .inl hr
    | false =>
      obtain ⟨e, he, rfl⟩ := List.mem_map.mp hr.holds
      rw [registry_leaving hgone, List.mem_filter, decide_eq_true_eq] at he
      -- the entry has another name, so it holds another session
      have hne : e.2 ≠ q := fun h => he.2 (h ▸ (hw.name e he.1).symm)
      refine .inl ⟨List.mem_map_of_mem he.1, ?_⟩
      rw [← session_leaving_of_ne hne, hr.removed]
  | unregister id =>
    obtain ⟨e, he, rfl⟩ := List.mem_map.mp hr.holds
    rw [registry_dismissing] at he
    refine .inl ⟨List.mem_map_of_mem (List.mem_of_mem_filter he), ?_⟩
    have hremoved := hr.removed
    rwa [Stack.session, dismissing_sessions] at hremoved
  | @register q hq hfree =>
    rcases List.mem_cons.mp hr.holds with rfl | hholds
    · refine .inr ?_
      simp [enrolling, registrations, Event.registers, Op.registers]
    · exact .inl ⟨hholds, hr.removed⟩
  | @enter w₁ q h hfree =>
    -- the services register what they have made, which has not left
    have hnew : r ≠ q := by
      rintro rfl
      have hremoved : (w₁.stack.session r).removed = true := hr.removed
      exact absurd hremoved (by simp [h.isNew.removed])
    have hholds := (List.mem_cons.mp hr.holds).resolve_left hnew
    have hmade := Rests.ofMade h
    refine .inl ⟨?_, by rw [← hmade.removed, ← hr.removed]; rfl⟩
    rw [Stack.Holds, ← hmade.registry]
    exact hholds

/-- **A session that has left is registered only if that was asked for**, since it was
not registered before. -/
theorem Evolves.stale (h : w.Evolves w') (hw : w.stack.Filed) (hr : w'.IsStale r) :
    w.IsStale r ∨ (registrations w.trace).count r < (registrations w'.trace).count r := by
  induction h with
  | refl => exact .inl hr
  | @tail w₁ w₂ h hstep ih =>
    have hgrows := Evolves.grows h
    rcases hstep.stale (Evolves.filed h hw) hr with hr | hlater
    · have hcount := hstep.grows.count_registrations_le r
      exact (ih hr).imp_right fun hearlier => Nat.lt_of_lt_of_le hearlier hcount
    · exact .inr (Nat.lt_of_le_of_lt (hgrows.count_registrations_le r) hlater)

end World

end FileSharing
