import FileSharing.Proofs.Laws

/-!
# Leaving the registry

A file transfer enters the registry once, and leaves it when it ends.  Three marks
tell where it is: the registry itself, the mark that it is interrupted, and the mark
that it has left.  Each way to end a session sets them one after another, and in
between a callback may start anything.  So a session may be found halfway, but only
by what its own end has started: when an operation is over, no session is on its way
out that was not on its way before.

Names may be taken again.  A session leaves by name, so what must be kept is that a
session whose name is in other hands has left before.

## Main definitions

* `Registered` — that a session has entered the registry once.
* `Disciplined` — that sessions are left to the services but for what clients do.
* `World.Orderly` — a session is in the registry until it leaves.
* `World.IsLeaving` — a session is on its way out.
* `World.Settles` — what happens between two worlds leaves no session on its way out.

## Main results

* `World.Settles.leaving` — a session leaves, and no other leaves with its name.
* `World.Settles.laws` — **whatever a stack does, it leaves no session on its way out.**
-/

namespace FileSharing

/-! ### What is asked for -/

/-- Whether a session has entered the registry. -/
def Registered {ν : Type} (r : Ref) (T : List (Event ν)) : Prop :=
  ∃ id, .registered id r ∈ T

theorem Registered.mono {ν : Type} {r : Ref} {T T' : List (Event ν)} (h : Registered r T)
    (hT : T <+: T') : Registered r T' := by
  obtain ⟨id, hid⟩ := h
  exact ⟨id, hT.subset hid⟩

/-- Whether an event touches a name: someone enters under it, or whatever has it is to
be taken out. -/
def Event.touches {ν : Type} (id : Text) : Event ν → Bool
  | .registered name _ => name = id
  | .asked (.unregister name) => name = id
  | _ => false

def touchings {ν : Type} (id : Text) (T : List (Event ν)) : Nat := T.countP (Event.touches id)

theorem Op.IsAside.touches {ν : Type} {s : Stack} {op : Op} (h : op.IsAside s) (id : Text) :
    (.asked op : Event ν).touches id = false := by
  cases op with
  | unregister name => exact absurd h not_false
  | _ => rfl

theorem touchings_append_eq_iff {ν : Type} {id : Text} {T S : List (Event ν)} :
    touchings id (T ++ S) = touchings id T ↔ ∀ e ∈ S, ¬e.touches id = true := by
  rw [touchings, List.countP_append, ← touchings, Nat.add_eq_left, List.countP_eq_zero]

/-- Where nothing has touched a name since, an event that does was there before. -/
theorem mem_of_touches {ν : Type} {id : Text} {T T' : List (Event ν)} (h : T <+: T')
    (hquiet : touchings id T' = touchings id T) {e : Event ν} (he : e ∈ T')
    (htouches : e.touches id = true) : e ∈ T := by
  obtain ⟨S, rfl⟩ := h
  refine (List.mem_append.mp he).resolve_right fun hmem => ?_
  exact touchings_append_eq_iff.mp hquiet e hmem htouches

theorem Registered.ofQuiet {ν : Type} {r : Ref} {T T' : List (Event ν)} (h : Registered r T')
    (hT : T <+: T') (hquiet : ∀ id, touchings id T' = touchings id T) : Registered r T := by
  obtain ⟨id, hid⟩ := h
  exact ⟨id, mem_of_touches hT (hquiet id) hid (by simp [Event.touches])⟩

theorem Registered.ofEmit {E : Environment} {r : Ref} {w : World E} {e : Event E.Note}
    (h : Registered r (w.emit e).trace) (he : ∀ id r, e ≠ .registered id r) :
    Registered r w.trace := by
  obtain ⟨id, hid⟩ := h
  exact ⟨id, (List.mem_append.mp hid).resolve_right fun h => he id r (List.mem_singleton.mp h).symm⟩

/-- Whether `P` holds of each event of a trace, given what came before. -/
def Throughout {ν : Type} (P : List (Event ν) → Event ν → Prop) (T : List (Event ν)) : Prop :=
  ∀ A e B, T = A ++ e :: B → P A e

theorem Throughout.ofPrefix {ν : Type} {P : List (Event ν) → Event ν → Prop}
    {T T' : List (Event ν)} (h : Throughout P T') (hT : T <+: T') : Throughout P T := by
  obtain ⟨C, rfl⟩ := hT
  intro A e B hAB
  exact h A e (B ++ C) (by simp [hAB])

/-- Whether something may be asked for after what has happened: the registry is left to
the services, no session is interrupted from outside, and only those that have entered
the registry are asked for anything. -/
def Op.IsOrderly {ν : Type} (T : List (Event ν)) : Op → Prop
  | .register _ => False
  | .unregister _ => False
  | .session _ .interrupt => False
  | .session r _ => Registered r T
  | .transfer r _ => Registered r T
  | _ => True

/-- Whether only what may be asked for has been asked for. -/
def Disciplined {ν : Type} (T : List (Event ν)) : Prop :=
  ∀ A op B, T = A ++ .asked op :: B → op.IsOrderly A

theorem Disciplined.ofPrefix {ν : Type} {T T' : List (Event ν)} (h : Disciplined T')
    (hT : T <+: T') : Disciplined T := by
  obtain ⟨C, rfl⟩ := hT
  intro A op B hAB
  exact h A op (B ++ C) (by simp [hAB])

section Decidable

variable {ν : Type} {r : Ref} {T : List (Event ν)}

/-- Whether an event is the entrance of a session. -/
def Event.isEntrance (r : Ref) : Event ν → Bool
  | .registered _ q => q = r
  | _ => false

theorem registered_iff_any : T.any (Event.isEntrance r) = true ↔ Registered r T := by
  rw [List.any_eq_true]
  constructor
  · rintro ⟨e, he, hr⟩
    cases e with
    | registered id q =>
      obtain rfl : q = r := of_decide_eq_true hr
      exact ⟨id, he⟩
    | _ => exact absurd hr (by simp [Event.isEntrance])
  · rintro ⟨id, hid⟩
    exact ⟨_, hid, decide_eq_true rfl⟩

instance : Decidable (Registered r T) := decidable_of_iff _ registered_iff_any

instance : DecidablePred (Op.IsOrderly T) := fun
  | .register _ => .isFalse id
  | .unregister _ => .isFalse id
  | .session _ .interrupt => .isFalse id
  | .session r (.setDialog _) => inferInstanceAs (Decidable (Registered r T))
  | .session r .closeMedia => inferInstanceAs (Decidable (Registered r T))
  | .session r (.bye _) => inferInstanceAs (Decidable (Registered r T))
  | .session r (.closePlain _) => inferInstanceAs (Decidable (Registered r T))
  | .session r .removePlain => inferInstanceAs (Decidable (Registered r T))
  | .transfer r _ => inferInstanceAs (Decidable (Registered r T))
  | .create _ => .isTrue trivial
  | .receiveBye _ => .isTrue trivial
  | .watch _ => .isTrue trivial
  | .refreshOne => .isTrue trivial
  | .refreshAll => .isTrue trivial
  | .service _ => .isTrue trivial

/-- Whether `P` holds of each event of a trace, where `A` came before. -/
def holdsThroughout (P : List (Event ν) → Event ν → Prop) [∀ A, DecidablePred (P A)]
    (A : List (Event ν)) : List (Event ν) → Bool
  | [] => true
  | e :: T => decide (P A e) && holdsThroughout P (A ++ [e]) T

theorem holdsThroughout_iff (P : List (Event ν) → Event ν → Prop) [∀ A, DecidablePred (P A)]
    (A : List (Event ν)) :
    holdsThroughout P A T = true ↔ Throughout (fun B => P (A ++ B)) T := by
  induction T generalizing A with
  | nil => simp [holdsThroughout, Throughout]
  | cons e T ih =>
    rw [holdsThroughout, Bool.and_eq_true, ih, decide_eq_true_iff]
    constructor
    · rintro ⟨he, hT⟩ B x C h
      obtain ⟨rfl, h⟩ | ⟨B, rfl, rfl⟩ := List.cons_eq_append_iff.mp h
      · obtain ⟨rfl, -⟩ := List.cons.inj h
        simpa using he
      · simpa using hT B x C rfl
    · intro h
      refine ⟨by simpa using h [] e T rfl, fun B x C hT => ?_⟩
      simpa using h (e :: B) x C (by simp [hT])

instance (P : List (Event ν) → Event ν → Prop) [∀ A, DecidablePred (P A)] :
    Decidable (Throughout P T) :=
  decidable_of_iff _ (holdsThroughout_iff P [])

/-- What is asked for with an event. -/
def Event.asks : Event ν → Option Op
  | .asked op => some op
  | _ => none

theorem throughout_asks_iff :
    Throughout (fun A e => ∀ op ∈ e.asks, op.IsOrderly A) T ↔ Disciplined T := by
  constructor
  · exact fun h A op B hT => h A (.asked op) B hT op rfl
  · intro h A e B hT op hop
    cases e with
    | asked op' =>
      obtain rfl : op' = op := Option.some.inj hop
      exact h A op' B hT
    | _ => exact absurd hop (by simp [Event.asks])

instance : Decidable (Disciplined T) := decidable_of_iff _ throughout_asks_iff

end Decidable

/-! ### Where a session is -/

variable {E : Environment}

/-- A session that has entered the registry is there until it has left, and it is
interrupted before it leaves. -/
structure World.InPlace (w : World E) (r : Ref) : Prop where
  /-- Only file transfers enter. -/
  isTransfer : w.stack.isTransfer r = true
  /-- The session is in the registry until it has left. -/
  found : w.stack.find? (w.stack.session r).id = some r ↔ (w.stack.session r).removed = false
  /-- A session that has left is interrupted. -/
  interrupted : (w.stack.session r).removed = true → (w.stack.session r).interrupted = true

/-- Every session that has entered the registry is in its place. -/
def World.Orderly (w : World E) : Prop := ∀ r, Registered r w.trace → w.InPlace r

/-- Whether a session is on its way out of the registry: it is interrupted, and has not
left. -/
structure World.IsLeaving (w : World E) (r : Ref) : Prop where
  registered : Registered r w.trace
  interrupted : (w.stack.session r).interrupted = true
  stays : (w.stack.session r).removed = false

/-- Between two worlds everything stays in order, and no session in `P` sets out that
has not left. -/
structure World.Settles (P : Ref → Prop) (w w' : World E) : Prop where
  grows : w.Grows w'
  /-- Everything stays in order. -/
  orderly : Disciplined w'.trace → w.Orderly → w'.Orderly
  /-- Who is on its way out was so before. -/
  settled : Disciplined w'.trace → w.Orderly → ∀ r, P r → w'.IsLeaving r → w.IsLeaving r

namespace World.Settles

variable {P Q : Ref → Prop} {w w₁ w₂ : World E} {r : Ref}

theorem refl (w : World E) : w.Settles P w := ⟨.refl w, fun _ h => h, fun _ _ _ _ h => h⟩

theorem trans (h : w.Settles P w₁) (h' : w₁.Settles P w₂) : w.Settles P w₂ := by
  refine ⟨h.grows.trans h'.grows, fun hd ho => ?_, fun hd ho r hr hleaving => ?_⟩
  · exact h'.orderly hd (h.orderly (hd.ofPrefix h'.grows.trace) ho)
  · have hd₁ := hd.ofPrefix h'.grows.trace
    exact h.settled hd₁ ho r hr (h'.settled hd (h.orderly hd₁ ho) r hr hleaving)

/-- Fewer sessions may be looked at. -/
theorem mono (h : w.Settles P w₁) (hPQ : ∀ r, Q r → P r) : w.Settles Q w₁ :=
  ⟨h.grows, h.orderly, fun hd ho r hr => h.settled hd ho r (hPQ r hr)⟩

/-- A session that is not on its way out in the end need not be left aside. -/
theorem close (h : w.Settles (· ≠ r) w₁) (hr : ¬w₁.IsLeaving r) : w.Settles P w₁ := by
  refine ⟨h.grows, h.orderly, fun hd ho q _ hq => h.settled hd ho q ?_ hq⟩
  rintro rfl
  exact hr hq

/-- Where one session moves, and no other, only that one has to be looked at. -/
theorem ofOthers (hgrows : w.Grows w₁)
    (hregistered : ∀ q, q ≠ r → Registered q w₁.trace → Registered q w.trace)
    (hsession : ∀ q, q ≠ r → w₁.stack.session q = w.stack.session q)
    (hfind : w.Orderly → ∀ q, q ≠ r →
      (w₁.stack.find? (w.stack.session q).id = some q ↔
        w.stack.find? (w.stack.session q).id = some q))
    (hr : w.Orderly → Registered r w₁.trace → w₁.InPlace r) : w.Settles (· ≠ r) w₁ := by
  refine ⟨hgrows, fun _ ho q hq => ?_, fun _ _ q hqr hq => ?_⟩
  · by_cases hqr : q = r
    · subst hqr
      exact hr ho hq
    · have hplace := ho q (hregistered q hqr hq)
      refine ⟨hgrows.isTransfer hplace.isTransfer, ?_, ?_⟩
      · rw [hsession q hqr, hfind ho q hqr]
        exact hplace.found
      · rw [hsession q hqr]
        exact hplace.interrupted
  · have hsame := hsession q hqr
    exact ⟨hregistered q hqr hq.registered, hsame ▸ hq.interrupted, hsame ▸ hq.stays⟩

end World.Settles

/-! ### Steps that the registry does not notice -/

/-- Between two worlds no session has moved: the registry is the same, and so are the
marks of every session. -/
structure World.Stands (w w' : World E) : Prop where
  grows : w.Grows w'
  /-- The registry is the same. -/
  registry : w'.stack.registry = w.stack.registry
  /-- Sessions have the same names and marks. -/
  session : ∀ r, (w'.stack.session r).id = (w.stack.session r).id ∧
    (w'.stack.session r).interrupted = (w.stack.session r).interrupted ∧
    (w'.stack.session r).removed = (w.stack.session r).removed
  /-- No name has been touched. -/
  quiet : ∀ id, touchings id w'.trace = touchings id w.trace

namespace World.Stands

variable {w w₁ w₂ : World E} {r : Ref}

theorem refl (w : World E) : w.Stands w := ⟨.refl w, rfl, fun _ => ⟨rfl, rfl, rfl⟩, fun _ => rfl⟩

theorem trans (h : w.Stands w₁) (h' : w₁.Stands w₂) : w.Stands w₂ := by
  refine ⟨h.grows.trans h'.grows, h'.registry.trans h.registry, fun r => ?_, fun id => ?_⟩
  · obtain ⟨hid, hinterrupted, hremoved⟩ := h.session r
    obtain ⟨hid', hinterrupted', hremoved'⟩ := h'.session r
    exact ⟨hid'.trans hid, hinterrupted'.trans hinterrupted, hremoved'.trans hremoved⟩
  · exact (h'.quiet id).trans (h.quiet id)

/-- No session has entered. -/
theorem registered (h : w.Stands w₁) (hr : Registered r w₁.trace) : Registered r w.trace :=
  hr.ofQuiet h.grows.trace h.quiet

/-- An event that touches no name. -/
theorem emit (w : World E) {e : Event E.Note} (he : ∀ id, e.touches id = false) :
    w.Stands (w.emit e) := by
  refine ⟨.emit w e, rfl, fun _ => ⟨rfl, rfl, rfl⟩, fun id => ?_⟩
  exact touchings_append_eq_iff.mpr (by simp [he id])

theorem emitted (h : w.Stands w₁) {e : Event E.Note} (he : ∀ id, e.touches id = false) :
    w.Stands (w₁.emit e) :=
  h.trans (emit w₁ he)

theorem withClient (w : World E) (c : E.State) : w.Stands (w.withClient c) :=
  ⟨.withClient w c, rfl, fun _ => ⟨rfl, rfl, rfl⟩, fun _ => rfl⟩

/-- A change of anything but the sessions and the registry. -/
theorem change (w : World E) {f : Stack → Stack} (hs : (f w.stack).sessions = w.stack.sessions)
    (hr : (f w.stack).registry = w.stack.registry) : w.Stands (w.change f) :=
  ⟨.change w hs, hr, fun r => by simp [Stack.session, hs], fun _ => rfl⟩

/-- A change of a session that keeps its name and its marks. -/
theorem update (w : World E) {f : Session → Session}
    (hages : (w.stack.session r).Ages (f (w.stack.session r)))
    (hf : ∀ x, (f x).id = x.id ∧ (f x).interrupted = x.interrupted ∧ (f x).removed = x.removed) :
    w.Stands (w.change (·.update r f)) := by
  refine ⟨.update w r hages, rfl, fun q => ⟨?_, ?_, ?_⟩, fun _ => rfl⟩
  · exact Stack.apply_session_update Session.id fun x => (hf x).1
  · exact Stack.apply_session_update Session.interrupted fun x => (hf x).2.1
  · exact Stack.apply_session_update Session.removed fun x => (hf x).2.2

theorem updateTransfer (w : World E) {f : Transfer → Transfer}
    (hf : ∀ t ∈ (w.stack.session r).transfer, (f t).terms = t.terms) :
    w.Stands (w.change (·.updateTransfer r f)) :=
  update w (.ofTransfer _ hf) fun _ => ⟨rfl, rfl, rfl⟩

theorem establishing (w : World E) (r : Ref) : w.Stands (w.establishing r) := by
  refine .emitted (.emitted (.updateTransfer w ?_) ?_) ?_
  · exact fun _ _ => rfl
  · exact fun _ => rfl
  · exact fun _ => rfl

theorem ofMove (h : SessionMove r w w₁) : w.Stands w₁ := by
  cases h with
  | dialog d => exact .update w (.dialog _ _) fun _ => ⟨rfl, rfl, rfl⟩
  | request m => exact .emit w fun _ => rfl
  | response m => exact .emit w fun _ => rfl
  | media m => exact .emit w fun _ => rfl
  | control n call => exact .emit w fun _ => rfl
  | returned n call succeeded _ => exact .emit w fun _ => rfl
  | begun n => exact .trans (.emit w fun _ => rfl) (.updateTransfer _ fun _ _ => rfl)
  | delivered => exact .updateTransfer w fun _ _ => rfl
  | setClock c clock h => exact .updateTransfer w (Stack.terms_setClock h clock)
  | refresh c => exact .emitted (.change w rfl rfl) fun _ => rfl

theorem ofService (h : ServiceMove w w₁) : w.Stands w₁ := by
  cases h with
  | response m => exact .emit w fun _ => rfl
  | capabilities c cs h => exact .emitted (.change w rfl rfl) fun _ => rfl
  | markRead m => exact .emit w fun _ => rfl
  | watched on => exact .change w rfl rfl
  | settings f _ => exact .change w rfl rfl

/-- Where no session moves, everything stays in order. -/
theorem settles (h : w.Stands w₁) (P : Ref → Prop) : w.Settles P w₁ := by
  refine ⟨h.grows, fun _ ho q hq => ?_, fun _ _ q _ hq => ?_⟩
  · have hplace := ho q (h.registered hq)
    obtain ⟨hid, hinterrupted, hremoved⟩ := h.session q
    refine ⟨h.grows.isTransfer hplace.isTransfer, ?_, ?_⟩
    · rw [Stack.find?, h.registry, hid, hremoved]
      exact hplace.found
    · rw [hinterrupted, hremoved]
      exact hplace.interrupted
  · obtain ⟨-, hinterrupted, hremoved⟩ := h.session q
    exact ⟨h.registered hq.registered, hinterrupted ▸ hq.interrupted, hremoved ▸ hq.stays⟩

end World.Stands

/-! ### Steps that the registry notices -/

namespace Stack

variable {s : Stack} {id id' : Text}

/-- Whatever was registered under a name is gone, and nothing else. -/
theorem lookup_filter (l : List (Text × Ref)) :
    (l.filter (·.1 ≠ id)).lookup id' = if id' = id then none else l.lookup id' := by
  induction l with
  | nil => simp
  | cons e l ih =>
    by_cases he : e.1 = id
    · rw [List.filter_cons_of_neg (by simp [he]), ih]
      split
      · rfl
      · next hid => rw [List.lookup_cons, beq_false_of_ne (he ▸ hid)]
    · rw [List.filter_cons_of_pos (by simp [he]), List.lookup_cons, List.lookup_cons, ih]
      by_cases hid : id' = e.1
      · simp [hid, he]
      · rw [beq_false_of_ne hid]

end Stack

namespace World

variable {w : World E} {r q : Ref} {id id' : Text}

/-- No name is touched as a session is made. -/
theorem Made.quiet {file : Bool} {w' : World E} (h : w.Made r file w') (id : Text) :
    touchings id w'.trace = touchings id w.trace := by
  obtain ⟨T, hT, hmaking⟩ := h.trace
  refine hT ▸ touchings_append_eq_iff.mpr fun e he => ?_
  have hmade := hmaking e he
  cases e with
  | log | transfer => simp [Event.touches]
  | _ => exact absurd hmade not_false

theorem find?_dismissing :
    (w.dismissing id).stack.find? id' = if id' = id then none else w.stack.find? id' := by
  unfold dismissing
  by_cases hid : (w.stack.find? id).isSome = true
  · rw [if_pos hid]
    dsimp only
    split
    · exact Stack.lookup_filter w.stack.registry
    · exact Stack.lookup_filter w.stack.registry
  · rw [if_neg hid]
    split
    · next h =>
      rw [h]
      exact Option.not_isSome_iff_eq_none.mp hid
    · rfl

/-- What leaves the registry touches no name, apart from the request that it leave. -/
theorem touchings_dismissing (w : World E) (id id' : Text) :
    touchings id' (w.dismissing id).trace = touchings id' w.trace := by
  unfold dismissing
  split
  · dsimp only
    split
    · exact ((Stands.emit (w.change _) fun _ => rfl).emitted fun _ => rfl).quiet id'
    · exact (Stands.emit (w.change _) fun _ => rfl).quiet id'
  · rfl

theorem registered_dismissing (h : Registered r (w.dismissing id).trace) : Registered r w.trace :=
  h.ofQuiet (w.grows_dismissing id).trace (touchings_dismissing w id)

theorem leaving_of_removed (h : (w.stack.session r).removed = true) : w.leaving r = w := by
  rw [leaving, if_pos h]

theorem session_leaving_of_ne (hq : q ≠ r) :
    (w.leaving r).stack.session q = w.stack.session q := by
  unfold leaving
  split
  · rfl
  · rw [Stack.session, dismissing_sessions]
    exact Stack.session_update_of_ne hq _

theorem find?_leaving (h : (w.stack.session r).removed = false) :
    (w.leaving r).stack.find? id
      = if id = (w.stack.session r).id then none else w.stack.find? id := by
  rw [leaving, if_neg (by simp [h]), find?_dismissing]
  rfl

/-- A session that enters is found under its name. -/
theorem find?_enrolling :
    (w.enrolling r).stack.find? id
      = if id = (w.stack.session r).id then some r else w.stack.find? id := by
  have hlookup : (w.enrolling r).stack.find? id
      = List.lookup id (((w.stack.session r).id, r) :: w.stack.registry) := rfl
  rw [hlookup, List.lookup_cons]
  split
  · next h => rw [if_pos (eq_of_beq h)]
  · next h =>
    rw [if_neg (ne_of_beq_false h)]
    rfl

theorem touchings_leaving (w : World E) (r : Ref) (id : Text) :
    touchings id (w.leaving r).trace = touchings id w.trace := by
  unfold leaving
  split
  · rfl
  · exact touchings_dismissing _ _ id

theorem registered_leaving (h : Registered q (w.leaving r).trace) : Registered q w.trace :=
  h.ofQuiet (w.grows_leaving r).trace (touchings_leaving w r)

namespace Settles

variable {P : Ref → Prop} {w₁ : World E}

/-- A session that is interrupted sets out, and no other does. -/
theorem marking (w : World E) (r : Ref) :
    w.Settles (· ≠ r) (w.change (·.update r fun s => { s with interrupted := true })) := by
  have hgrows : w.Grows (w.change (·.update r fun s => { s with interrupted := true })) :=
    .update w r (.interrupt _)
  refine ofOthers hgrows (fun _ _ h => h) (fun q hq => Stack.session_update_of_ne hq _)
    (fun _ _ _ => Iff.rfl) fun ho hr => ?_
  have hplace := ho r hr
  have hself := Stack.session_update_self (Stack.lt_size_of_isTransfer hplace.isTransfer)
    fun s => { s with interrupted := true }
  refine ⟨hgrows.isTransfer hplace.isTransfer, ?_, fun _ => ?_⟩
  · rw [change_stack, hself]
    exact hplace.found
  · rw [change_stack, hself]

theorem interrupting (w : World E) (r : Ref) : w.Settles (· ≠ r) (w.interrupting r) := by
  unfold World.interrupting
  split
  · exact .refl w
  · refine (marking w r).trans (Stands.settles (.emitted (.emit _ ?_) ?_) _)
    · exact fun _ => rfl
    · exact fun _ => rfl

theorem claiming (w : World E) (r : Ref) (e : Ending) : w.Settles (· ≠ r) (w.claiming r e) :=
  (interrupting w r).trans (Stands.settles (.emit _ fun _ => rfl) _)

/-- A session that is interrupted leaves, and no other that is in the registry leaves
with its name. -/
theorem leaving (hr : Registered r w.trace) (hi : (w.stack.session r).interrupted = true) :
    w.Settles P (w.leaving r) := by
  by_cases hgone : (w.stack.session r).removed = true
  · rw [leaving_of_removed hgone]
    exact .refl w
  · have hstays := Bool.eq_false_iff.mpr hgone
    have hgrows := w.grows_leaving r
    have hremoved := removed_leaving (Grows.lt_size_of_interrupted hi)
    refine (ofOthers hgrows (fun _ _ => registered_leaving) (fun _ => session_leaving_of_ne)
      (fun ho q hq => ?_) fun ho _ => ?_).close fun hleaving => ?_
    · rw [find?_leaving hstays]
      split
      · next hname =>
        -- the name is in the hands of the session that leaves, so the other one is not found
        rw [hname, (ho r hr).found.mpr hstays]
        simp [Ne.symm hq]
      · exact Iff.rfl
    · have hages := hgrows.ages r (Grows.lt_size_of_interrupted hi)
      refine ⟨hgrows.isTransfer (ho r hr).isTransfer, ?_, fun _ => hages.interrupted hi⟩
      rw [hages.id, find?_leaving hstays, if_pos rfl, hremoved]
      simp
    · exact absurd hremoved (by simp [hleaving.stays])

/-- A new session that is made enters the registry, where its name is free. -/
theorem enrolling (hr : w.stack.isTransfer r = true)
    (hi : (w.stack.session r).interrupted = false) (hstays : (w.stack.session r).removed = false)
    (hfree : w.stack.find? (w.stack.session r).id = none) : w.Settles P (w.enrolling r) := by
  have hsession : ∀ q, (w.enrolling r).stack.session q = w.stack.session q := fun _ => rfl
  refine (ofOthers (w.grows_enrolling r) (fun q hq => ?_) (fun q _ => hsession q)
    (fun _ q hq => ?_) fun _ _ => ⟨hr, ?_, ?_⟩).close fun hleaving => ?_
  · rintro ⟨id, hid⟩
    refine ⟨id, (List.mem_append.mp ((List.mem_append.mp hid).resolve_right ?_)).resolve_right ?_⟩
    · simp
    · simp [hq]
  · rw [find?_enrolling]
    split
    · next hname =>
      -- the name was free, so the other session had left
      rw [hname, hfree]
      simp [Ne.symm hq]
    · exact Iff.rfl
  · rw [hsession, find?_enrolling, if_pos rfl, hstays]
    simp
  · rw [hsession, hstays]
    exact fun h => absurd h (by decide)
  · exact absurd hleaving.interrupted (by simp [hsession, hi])

/-- A session that is made is not in the registry, and all others are where they were. -/
theorem made {w' : World E} {file : Bool} (h : w.Made r file w') : w.Settles P w' := by
  have hfind : w'.stack.find? = w.stack.find? := by
    funext id
    rw [Stack.find?, h.rest]
    rfl
  have hregistered : ∀ q, Registered q w'.trace → Registered q w.trace := fun q hq =>
    hq.ofQuiet h.grows.trace h.quiet
  refine (ofOthers h.grows (fun q _ => hregistered q) h.others (fun _ _ _ => by rw [hfind])
    fun ho hr => ?_).close fun hleaving => ?_
  · -- a session that has entered was made before
    have hsize := Stack.lt_size_of_isTransfer (ho r (hregistered r hr)).isTransfer
    exact absurd h.fresh (Nat.ne_of_gt hsize)
  · exact absurd hleaving.interrupted (by simp [h.isNew.interrupted])

/-! ### Courses -/

theorem fan {c : Callback} {w' : World E} (h : Fan (World.Settles P) r c w w') : w.Settles P w' :=
  Fan.stays .refl .trans id (fun w _ => Stands.settles (.emit w fun _ => rfl) P)
    (fun w _ _ => Stands.settles (.emit w fun _ => rfl) P) h

/-- Where a session sets out and leaves in the end, it is not on its way out. -/
theorem ends {w' : World E} (h₁ : w.Settles (· ≠ r) w₁)
    (hended : (w₁.stack.session r).interrupted = true) (hentered : Registered r w.trace)
    (h₂ : (w₁.leaving r).Settles (fun _ => True) w') : w.Settles P w' := by
  have hsize := Grows.lt_size_of_interrupted hended
  have hleave : w₁.Settles (· ≠ r) (w₁.leaving r) :=
    leaving (hentered.mono h₁.grows.trace) hended
  have hages := h₂.grows.ages r (Nat.lt_of_lt_of_le hsize (w₁.grows_leaving r).size)
  have hremoved := hages.removed (removed_leaving hsize)
  refine (h₁.trans (hleave.trans (h₂.mono fun _ _ => trivial))).close fun hleaving => ?_
  exact absurd hremoved (by simp [hleaving.stays])

/-- What comes of an operation on a session that has entered leaves no session on its
way out. -/
theorem course {t : Turn} {w' : World E}
    (h : Course (World.Settles fun _ => True) (World.Settles fun _ => True) r t w w')
    (hr : w.stack.isTransfer r = true) (hentered : Registered r w.trace) :
    w.Settles (fun _ => True) w' := by
  have hsize := Stack.lt_size_of_isTransfer hr
  induction h with
  | @logged w w' t level line h ih =>
    have hlog := World.Grows.emit w (.log level line)
    exact (Stands.settles (.emit w fun _ => rfl) _).trans (ih hr (hentered.mono hlog.trace) hsize)
  | nothing h => exact h
  | tell c _ _ h => exact fan h
  | @establish w w' _ _ h => exact (Stands.settles (.establishing w r) _).trans (fan h)
  | @finish w w₁ w₂ w₃ w' e hi h₁ h₂ h₃ h₄ =>
    -- from the claim on the session is on its way out, and all others are settled
    have h₁₃ := h₁.trans ((fan h₂).trans h₃)
    have hended := h₁₃.grows.interrupted (interrupted_interrupting (w := w) hsize)
    exact ends ((claiming w r e).trans (h₁₃.mono fun _ _ => trivial)) hended hentered h₄
  | @close w w₁ w' h₁ h₂ =>
    have hended := h₁.grows.interrupted (interrupted_interrupting (w := w) hsize)
    exact ends ((interrupting w r).trans (h₁.mono fun _ _ => trivial)) hended hentered h₂
  | @lasting w w' client time _ _ h =>
    exact (Stands.settles (.emitted (.withClient w client) fun _ => rfl) _).trans h
  | @expired w w' w'' client time _ _ h h' ih =>
    refine (Stands.settles (.emitted (.withClient w client) ?_) _).trans ((ih hr ?_ hsize).trans h')
    · exact fun _ => rfl
    · exact hentered.mono (World.Grows.emit (w.withClient client) (.clock r time)).trace
  | attach w l =>
    refine Stands.settles (.updateTransfer w ?_) _
    exact fun _ _ => rfl
  | detach w l =>
    refine Stands.settles (.updateTransfer w ?_) _
    exact fun _ _ => rfl

/-! ### Laws -/

/-- What may not be asked for is not asked for where there is discipline. -/
theorem orderly_of_disciplined {op : Op} {w' : World E} (h : (w.emit (.asked op)).Grows w')
    (hd : Disciplined w'.trace) : op.IsOrderly w.trace :=
  hd.ofPrefix h.trace w.trace op [] rfl

/-- What only happens where there is no discipline needs no care. -/
theorem ofUndisciplined {op : Op} {w' : World E} (h : (w.emit (.asked op)).Grows w')
    (hop : ¬op.IsOrderly w.trace) : w.Settles P w' :=
  ⟨.trans (.emit w _) h, fun hd => absurd (orderly_of_disciplined h hd) hop,
    fun hd => absurd (orderly_of_disciplined h hd) hop⟩

/-- What happens to a plain session needs no care, where that is asked for. -/
theorem ofPlain {op : Op} {w' : World E} (h : (w.emit (.asked op)).Grows w')
    (hop : op.IsOrderly w.trace → Registered r w.trace) (hr : w.stack.isTransfer r = false) :
    w.Settles P w' := by
  have hno : Disciplined w'.trace → ¬w.Orderly := fun hd ho =>
    absurd (ho r (hop (orderly_of_disciplined h hd))).isTransfer (by simp [hr])
  exact ⟨.trans (.emit w _) h, fun hd ho => absurd ho (hno hd), fun hd ho => absurd ho (hno hd)⟩

/-- A plain session is not on its way out of the registry. -/
theorem exceptPlain (h : w.Settles (· ≠ r) w₁) (hsize : r < w.stack.sessions.size)
    (hr : w.stack.isTransfer r = false) : w.Settles P w₁ := by
  refine ⟨h.grows, h.orderly, fun hd ho q _ hleaving => h.settled hd ho q ?_ hleaving⟩
  rintro rfl
  -- in order it could only be a file transfer
  have hkind := (h.grows.ages q hsize).isSome
  rw [← Stack.isTransfer_eq, ← Stack.isTransfer_eq, hr] at hkind
  exact absurd (h.orderly hd ho q hleaving.registered).isTransfer (by simp [hkind])

/-- What is asked of a session is asked of one that has entered. -/
theorem ofEntered {op : Op} {w' : World E} (h : (w.emit (.asked op)).Grows w')
    (hop : op.IsOrderly w.trace → Registered r w.trace)
    (hentered : Registered r w.trace → w.Settles P w') : w.Settles P w' :=
  ⟨.trans (.emit w _) h,
    fun hd ho => (hentered (hop (orderly_of_disciplined h hd))).orderly hd ho,
    fun hd ho => (hentered (hop (orderly_of_disciplined h hd))).settled hd ho⟩

/-- **Whatever a stack does, it leaves no session on its way out.** -/
theorem laws {N : Handler E} (hN : ∀ (w : World E) op, w.Settles (fun _ => True) ((N op).run w).2) :
    Laws N (World.Settles fun _ => True) fun _ => World.Settles fun _ => True := by
  have hsteady : Steady N (World.Settles fun _ => True) := {
    refl := .refl
    trans := .trans
    log := fun w level line => (Stands.emit w fun _ => rfl).settles _
    note := fun w n => (Stands.emit w fun _ => rfl).settles _
    client := fun w c => (Stands.withClient w c).settles _
    nested := hN }
  exact {
    hsteady with
    grows := fun h => h.grows
    move := fun h => (Stands.ofMove h).settles _
    heard := fun h => h.grows
    listener := fun _ _ _ w => hsteady.play _ w
    thrown := fun _ h => h.trans ((Stands.emit _ fun _ => rfl).settles _)
    service := fun h => (Stands.ofService h).settles _
    listeners := fun w _ => (Stands.change w rfl rfl).settles _
    asked := fun _ w haside => (Stands.emit w haside.touches).settles _
    transfer := fun {r} op {w w'} hr h => by
      refine ofEntered (h.grows (fun h => h.grows) fun h => h.grows) id fun hentered => ?_
      refine ((Stands.emit w fun _ => rfl).settles _).trans (course h hr ?_)
      exact hentered.mono (Grows.emit w _).trace
    bye := fun {r m w w'} hr h => by
      refine ofEntered (h.grows (fun h => h.grows) fun h => h.grows) id fun hentered => ?_
      refine ((Stands.emit w fun _ => rfl).settles _).trans (course h hr ?_)
      exact hentered.mono (Grows.emit w _).trace
    interrupt := fun {r w} _ => ofUndisciplined (grows_interrupting _ r) id
    interruptPlain := fun {r w} hsize hr => (interrupting w r).exceptPlain hsize hr
    removePlain := fun {r w w'} _ hr h => ofPlain ((grows_leaving _ r).trans h.grows) id hr
    register := fun {r w} _ _ => ofUndisciplined (grows_enrolling _ r) id
    unregister := fun {id w w'} h =>
      ofUndisciplined ((grows_dismissing _ id).trans h.grows) not_false
    make := made
    enter := fun {r w w'} h _ hfree =>
      (made h).trans (enrolling h.kind h.isNew.interrupted h.isNew.removed hfree) }

end Settles

end World

end FileSharing
