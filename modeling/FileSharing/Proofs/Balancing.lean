import FileSharing.Proofs.Driving
import FileSharing.Proofs.Entries

/-!
# Entering the registry, and being told of leaving it

A client that wants to hear of sessions leaving the registry is told of a name once for each
session that has entered under it and is registered no longer.  So the names that have entered are
those that the client was told of, together with those that are registered: what is registered now
is the balance.

## Main definitions

* `enteredNames`, `toldNames` — the names that have entered, and those that the client was told of.
* `Balances` — the names in the registry are the balance of the two.
* `World.Passes` — nobody enters or leaves, and the client writes nothing.

## Main results

* `Balances.enroll`, `Balances.dismiss` — an entry, and a departure.
* `World.balances_dismissing`, `World.balances_leaving`, `World.balances_enrolling` — **the steps
  that change the registry keep the balance.**
* `Balances.count`, `Balances.length` — what the balance says of one name, and of all.
* `World.enteredNames_register` — a session enters exactly if the call to register it succeeds.
-/

namespace FileSharing

variable {E : Environment}

/-! ### Names in a trace -/

section Names

variable {ν : Type} {T T' : List (Event ν)} {s : Stack} {id : Text} {r : Ref}

/-- The name under which a session enters the registry. -/
def Event.enteredName : Event ν → Option Text
  | .registered id _ => some id
  | _ => none

/-- The name that the client is told has left the registry. -/
def Event.toldName : Event ν → Option Text
  | .removed id => some id
  | _ => none

/-- The names under which sessions have entered, in order. -/
def enteredNames (T : List (Event ν)) : List Text := T.filterMap Event.enteredName

/-- The names that the client was told of, in order. -/
def toldNames (T : List (Event ν)) : List Text := T.filterMap Event.toldName

/-- Whether nobody enters with an event, and the client is told of nobody. -/
def Event.IsNameless (e : Event ν) : Prop := e.enteredName = none ∧ e.toldName = none

/-- Whether nobody enters or leaves with an event, and the client writes nothing. -/
def Event.IsSilent : Event ν → Prop
  | .registered _ _ => False
  | .removed _ => False
  | .note _ => False
  | _ => True

theorem Event.IsSilent.nameless {e : Event ν} (h : e.IsSilent) : e.IsNameless := by
  cases e with
  | registered | removed | note => exact h.elim
  | _ => exact ⟨rfl, rfl⟩

/-! ### The balance -/

/-- Whether a name is registered is found out by looking it up. -/
theorem Stack.mem_names_iff : id ∈ s.registry.map Prod.fst ↔ (s.find? id).isSome = true := by
  rw [← not_iff_not, Bool.not_eq_true, Option.isSome_eq_false_iff, Option.isNone_iff_eq_none,
    find?, List.lookup_eq_none_iff, List.mem_map]
  constructor
  · intro hnone e he
    exact bne_iff_ne.mpr fun heq => hnone ⟨e, he, heq.symm⟩
  · rintro hnone ⟨e, he, rfl⟩
    exact absurd (hnone e he) (by simp)

/-- The names that have entered are those that the client was told of, and those that are
registered, of which each is registered once. -/
structure Balances (T : List (Event ν)) (s : Stack) : Prop where
  nodup : (s.registry.map Prod.fst).Nodup
  perm : (enteredNames T).Perm (toldNames T ++ s.registry.map Prod.fst)

namespace Balances

theorem append {s' : Stack} (h : Balances T s) (hT' : ∀ e ∈ T', e.IsNameless)
    (hregistry : s'.registry = s.registry) : Balances (T ++ T') s' where
  nodup := hregistry ▸ h.nodup
  perm := by
    rw [enteredNames, toldNames, filterMap_append_of_none fun e he => (hT' e he).1,
      filterMap_append_of_none fun e he => (hT' e he).2, hregistry]
    exact h.perm

theorem concat (h : Balances T s) {e : Event ν} (he : e.IsNameless) : Balances (T ++ [e]) s :=
  h.append (fun _ hmem => List.mem_singleton.mp hmem ▸ he) rfl

/-- A session enters under a name that is free. -/
theorem enroll (h : Balances T s) (hfree : s.find? id = none) (r : Ref) :
    Balances (T ++ [.registered id r]) { s with registry := (id, r) :: s.registry } := by
  have hnew : id ∉ s.registry.map Prod.fst := by simp [Stack.mem_names_iff, hfree]
  refine ⟨List.nodup_cons.mpr ⟨hnew, h.nodup⟩, ?_⟩
  have hentered : enteredNames (T ++ [.registered id r]) = enteredNames T ++ [id] :=
    List.filterMap_append
  have htold : toldNames (T ++ [.registered id r]) = toldNames T := by
    simp [toldNames, Event.toldName]
  -- the name is the last that has entered, and the first that is registered
  rw [hentered, htold]
  refine (h.perm.append_right [id]).trans ?_
  rw [List.append_assoc]
  exact List.perm_append_comm.append_left _

/-- The session of a name leaves, and the client is told. -/
theorem dismiss (h : Balances T s) (hid : (s.find? id).isSome = true) :
    Balances (T ++ [.removed id]) { s with registry := s.registry.filter (·.1 ≠ id) } := by
  -- every name is registered once, so that of one session is taken out
  have hnames : (s.registry.filter (·.1 ≠ id)).map Prod.fst
      = (s.registry.map Prod.fst).erase id := by
    rw [h.nodup.erase_eq_filter, List.filter_map]
    congr 1
    exact List.filter_congr fun e _ => by simp [bne, beq_eq_decide]
  have hentered : enteredNames (T ++ [.removed id]) = enteredNames T := by
    simp [enteredNames, Event.enteredName]
  have htold : toldNames (T ++ [.removed id]) = toldNames T ++ [id] := List.filterMap_append
  refine ⟨?_, ?_⟩
  · rw [hnames]
    exact h.nodup.erase id
  · rw [hentered, htold, hnames, List.append_assoc]
    exact h.perm.trans ((List.perm_cons_erase (Stack.mem_names_iff.mpr hid)).append_left _)

/-- A name has entered as often as the client was told of it, and once more while it is
registered. -/
theorem count (h : Balances T s) (id : Text) :
    (enteredNames T).count id
      = (toldNames T).count id + if (s.find? id).isSome then 1 else 0 := by
  rw [h.perm.count_eq, List.count_append, h.nodup.count]
  simp only [Stack.mem_names_iff]

theorem length (h : Balances T s) : (enteredNames T).length = (toldNames T).length + s.count := by
  rw [h.perm.length_eq, List.length_append, List.length_map, Stack.count]

end Balances

end Names

/-! ### Steps -/

/-- Between two worlds nobody enters the registry or leaves it, the client writes nothing, and
wants to hear of departures if it did. -/
structure World.Passes (w w' : World E) : Prop where
  registry : w'.stack.registry = w.stack.registry
  watched : w.stack.watched = true → w'.stack.watched = true
  trace : ∃ T, w'.trace = w.trace ++ T ∧ ∀ e ∈ T, e.IsSilent

namespace World.Passes

variable {w w₁ w₂ : World E} {r : Ref}

theorem balances (h : w.Passes w₁) (hw : Balances w.trace w.stack) :
    Balances w₁.trace w₁.stack := by
  obtain ⟨T, hT, hsilent⟩ := h.trace
  rw [hT]
  exact hw.append (fun e he => (hsilent e he).nameless) h.registry

theorem refl (w : World E) : w.Passes w := ⟨rfl, id, [], by simp, by simp⟩

theorem trans (h : w.Passes w₁) (h' : w₁.Passes w₂) : w.Passes w₂ := by
  obtain ⟨T, hT, hsilent⟩ := h.trace
  obtain ⟨T', hT', hsilent'⟩ := h'.trace
  refine ⟨h'.registry.trans h.registry, fun hw => h'.watched (h.watched hw), T ++ T', ?_, ?_⟩
  · rw [hT', hT, List.append_assoc]
  · exact fun e he => (List.mem_append.mp he).elim (hsilent e) (hsilent' e)

theorem emit (w : World E) {e : Event E.Note} (he : e.IsSilent) : w.Passes (w.emit e) :=
  ⟨rfl, id, [e], rfl, fun _ hmem => List.mem_singleton.mp hmem ▸ he⟩

theorem emitted (h : w.Passes w₁) {e : Event E.Note} (he : e.IsSilent) : w.Passes (w₁.emit e) :=
  h.trans (emit w₁ he)

theorem withClient (w : World E) (c : E.State) : w.Passes (w.withClient c) :=
  ⟨rfl, id, [], by simp, by simp⟩

/-- A change of anything but the registry. -/
theorem change (w : World E) {f : Stack → Stack} (hr : (f w.stack).registry = w.stack.registry)
    (hw : w.stack.watched = true → (f w.stack).watched = true) : w.Passes (w.change f) :=
  ⟨hr, hw, [], by simp, by simp⟩

theorem interrupting (w : World E) (r : Ref) : w.Passes (w.interrupting r) := by
  unfold World.interrupting
  split
  · exact .refl w
  · refine .emitted (.emitted (.change w rfl id) ?_) ?_
    · trivial
    · trivial

theorem claiming (w : World E) (r : Ref) (e : Ending) : w.Passes (w.claiming r e) :=
  (interrupting w r).emitted trivial

theorem establishing (w : World E) (r : Ref) : w.Passes (w.establishing r) := by
  refine .emitted (.emitted (.change w rfl id) ?_) ?_
  · trivial
  · trivial

theorem ofMove (h : SessionMove r w w₁) : w.Passes w₁ := by
  cases h with
  | dialog d => exact .change w rfl id
  | request m => exact .emit w trivial
  | response m => exact .emit w trivial
  | media m => exact .emit w trivial
  | control n call => exact .emit w trivial
  | returned n call succeeded _ => exact .emit w trivial
  | begun n => exact (emit w (e := .controlDone _ n .start true) trivial).trans (.change _ rfl id)
  | delivered => exact .change w rfl id
  | setClock c clock h => exact .change w rfl id
  | refresh c => exact .emitted (.change w rfl id) trivial

theorem ofMade {file : Bool} (h : w.Made r file w₁) : w.Passes w₁ := by
  obtain ⟨T, hT, hmaking⟩ := h.trace
  refine ⟨by rw [h.rest], fun hw => by rw [h.rest]; exact hw, T, hT, fun e he => ?_⟩
  have hmade := hmaking e he
  cases e with
  | log | transfer => trivial
  | _ => exact hmade.elim

end World.Passes

namespace World

variable {w w₁ w' : World E} {r : Ref} {id : Text}

/-- The session of a name leaves the registry, and the client is told if it wants to be. -/
theorem balances_dismissing (h : Balances w.trace w.stack) (hw : w.stack.watched = true)
    (id : Text) : Balances (w.dismissing id).trace (w.dismissing id).stack := by
  unfold dismissing
  split
  · next hid =>
    exact Balances.dismiss (s := w.stack) (h.concat ⟨rfl, rfl⟩) hid
  · exact h

theorem balances_leaving (h : Balances w.trace w.stack) (hw : w.stack.watched = true) (r : Ref) :
    Balances (w.leaving r).trace (w.leaving r).stack := by
  unfold leaving
  split
  · exact h
  · let marked := w.change (·.update r fun x => { x with removed := true })
    have hmarked : Balances marked.trace marked.stack := ⟨h.nodup, h.perm⟩
    exact balances_dismissing hmarked hw _

theorem balances_enrolling (h : Balances w.trace w.stack)
    (hfree : w.stack.find? (w.stack.session r).id = none) :
    Balances (w.enrolling r).trace (w.enrolling r).stack :=
  (h.enroll hfree r).concat ⟨rfl, rfl⟩

theorem watched_dismissing (w : World E) (id : Text) :
    (w.dismissing id).stack.watched = w.stack.watched := by
  rw [stack_dismissing]

theorem watched_leaving (w : World E) (r : Ref) :
    (w.leaving r).stack.watched = w.stack.watched := by
  unfold leaving
  split
  · rfl
  · rw [watched_dismissing]
    rfl

/-- **A session enters exactly if the call to register it succeeds**, whoever calls. -/
theorem enteredNames_register (N : Handler E) (r : Ref) (w : World E) :
    enteredNames (Act.after N (Act.register (some r)) w).trace
      = match Act.result N (Act.register (some r)) w with
        | .ok _ => enteredNames w.trace ++ [(w.stack.session r).id]
        | .error _ => enteredNames w.trace := by
  have hentered : enteredNames (w.enrolling r).trace
      = enteredNames w.trace ++ [(w.stack.session r).id] := by
    simp [World.enrolling, enteredNames, Event.enteredName]
  have hrefused : ∀ line, enteredNames (w.emit (.log .debug line)).trace = enteredNames w.trace :=
    fun line => by simp [enteredNames, Event.enteredName]
  rcases Act.register_cases (N := N) r w with ⟨-, f, hresult, hafter⟩ | ⟨-, hresult, hafter⟩
  · rw [hresult, hafter]
    exact hrefused _
  · rw [hresult, hafter]
    exact hentered

/-! ### Notes -/

/-- Between two worlds the client writes nothing. -/
def Unnoted (w w' : World E) : Prop := ∃ T, w'.trace = w.trace ++ T ∧ ∀ n, .note n ∉ T

theorem Unnoted.refl (w : World E) : w.Unnoted w := ⟨[], by simp, by simp⟩

theorem Unnoted.emitted (h : w.Unnoted w') {e : Event E.Note} (he : ∀ n, e ≠ .note n) :
    w.Unnoted (w'.emit e) := by
  obtain ⟨T, hT, hnotes⟩ := h
  refine ⟨T ++ [e], by rw [emit_trace, hT, List.append_assoc], fun n hn => ?_⟩
  refine (List.mem_append.mp hn).elim (hnotes n) fun hmem => ?_
  exact he n (List.mem_singleton.mp hmem).symm

theorem Passes.unnoted (h : w.Passes w') : w.Unnoted w' := by
  obtain ⟨T, hT, hsilent⟩ := h.trace
  exact ⟨T, hT, fun n hn => hsilent _ hn⟩

theorem unnoted_dismissing (w : World E) (id : Text) : w.Unnoted (w.dismissing id) := by
  have hfilter : w.Unnoted
      (w.change fun s => { s with registry := s.registry.filter (·.1 ≠ id) }) :=
    ⟨[], by simp, by simp⟩
  unfold dismissing
  split
  · dsimp only
    split
    · exact (hfilter.emitted (by simp)).emitted (by simp)
    · exact hfilter.emitted (by simp)
  · exact .refl w

theorem unnoted_leaving (w : World E) (r : Ref) : w.Unnoted (w.leaving r) := by
  unfold leaving
  split
  · exact .refl w
  · exact unnoted_dismissing (w.change _) _

theorem unnoted_enrolling (w : World E) (r : Ref) : w.Unnoted (w.enrolling r) :=
  ⟨_, List.append_assoc _ _ _, by simp⟩

end World

end FileSharing
