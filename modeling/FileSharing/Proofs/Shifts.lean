import FileSharing.Proofs.Entries

/-!
# What the file transfer service sees

The service takes in a transfer where there is room for it, and hands it its own
listeners.  Of what happens afterwards it matters only who is registered, who listens,
and what the limits are.  So a run is a path of few steps: a transfer is taken in, a
session is registered by somebody else, a listener is attached to all or detached from
all, and for the rest sessions may leave and nothing else happens.

## Main definitions

* `World.Narrows`, `World.Abides` — nobody is registered; and nobody begins or ceases to
  listen.
* `World.Relistens` — the service attaches or detaches a listener.
* `World.Shift`, `World.Shifts` — a step that the service sees, and a path of them.

## Main results

* `World.Relistens.ofAttach`, `World.Relistens.ofDetach` — **a listener is attached to
  every transfer that has the listeners of the service, or detached from it.**
-/

namespace FileSharing

variable {E : Environment}

/-! ### Nobody enters -/

/-- Between two worlds nobody has entered the registry, the limits are the same, and the
client has written nothing. -/
structure World.Narrows (w w' : World E) : Prop where
  grows : w.Grows w'
  registry : w'.stack.registry.Sublist w.stack.registry
  limits : w'.stack.settings.limits = w.stack.settings.limits
  notes : ∀ n, .note n ∈ w'.trace → .note n ∈ w.trace

/-- Neither has anybody begun or ceased to listen. -/
structure World.Abides (w w' : World E) : Prop extends w.Narrows w' where
  service : w'.stack.listeners = w.stack.listeners
  listeners : ∀ r < w.stack.sessions.size,
    (w'.stack.transfer r).listeners = (w.stack.transfer r).listeners

namespace World.Narrows

variable {w w₁ w₂ : World E} {r : Ref}

theorem trans (h : w.Narrows w₁) (h' : w₁.Narrows w₂) : w.Narrows w₂ :=
  ⟨h.grows.trans h'.grows, h'.registry.trans h.registry, h'.limits.trans h.limits,
    fun n hn => h.notes n (h'.notes n hn)⟩

theorem relisten (w : World E) (r : Ref) (ls : ListenerSet Listener) :
    w.Narrows (w.change (·.updateTransfer r fun t => { t with listeners := ls })) :=
  ⟨.updateTransfer w r fun _ => rfl, .refl _, rfl, fun _ h => h⟩

/-- No session is registered that does not exist. -/
theorem made (h : w.Narrows w₁) (hmade : ∀ e ∈ w.stack.registry, e.2 < w.stack.sessions.size) :
    ∀ e ∈ w₁.stack.registry, e.2 < w₁.stack.sessions.size :=
  fun e he => Nat.lt_of_lt_of_le (hmade e (h.registry.subset he)) h.grows.size

/-- Of the transfers none is registered that was not before. -/
theorem transfers (h : w.Narrows w₁)
    (hmade : ∀ e ∈ w.stack.registry, e.2 < w.stack.sessions.size) :
    w₁.stack.transfers.Sublist w.stack.transfers := by
  have hkind : ∀ r ∈ w.stack.registry.map Prod.snd,
      w₁.stack.isTransfer r = w.stack.isTransfer r := by
    intro r hr
    obtain ⟨e, he, rfl⟩ := List.mem_map.mp hr
    rw [Stack.isTransfer_eq, (h.grows.ages _ (hmade e he)).isSome, ← Stack.isTransfer_eq]
  rw [Stack.transfers, Stack.transfers, ← List.filter_congr hkind]
  exact (h.registry.map _).filter _

end World.Narrows

/-! ### Somebody enters -/

namespace World

variable {w : World E} {r q : Ref}

theorem made_enrolling (hmade : ∀ e ∈ w.stack.registry, e.2 < w.stack.sessions.size)
    (hr : r < w.stack.sessions.size) :
    ∀ e ∈ (w.enrolling r).stack.registry, e.2 < (w.enrolling r).stack.sessions.size :=
  fun e he => (List.mem_cons.mp he).elim (fun h => h ▸ hr) (hmade e)

theorem transfers_enrolling :
    (w.enrolling r).stack.transfers
      = if w.stack.isTransfer r then r :: w.stack.transfers else w.stack.transfers :=
  List.filter_cons

theorem mem_transfers_enrolling :
    q ∈ (w.enrolling r).stack.transfers
      ↔ q = r ∧ w.stack.isTransfer r = true ∨ q ∈ w.stack.transfers := by
  rw [transfers_enrolling]
  split
  · next hr => simp [hr]
  · next hr => simp [hr]

end World

namespace World.Abides

variable {w w₁ w₂ : World E} {r : Ref}

theorem refl (w : World E) : w.Abides w :=
  ⟨⟨.refl w, .refl _, rfl, fun _ h => h⟩, rfl, fun _ _ => rfl⟩

theorem trans (h : w.Abides w₁) (h' : w₁.Abides w₂) : w.Abides w₂ := by
  refine ⟨h.toNarrows.trans h'.toNarrows, h'.service.trans h.service, fun r hr => ?_⟩
  rw [h'.listeners r (Nat.lt_of_lt_of_le hr h.grows.size), h.listeners r hr]

theorem emit (w : World E) {e : Event E.Note} (he : ∀ n, e ≠ .note n) : w.Abides (w.emit e) := by
  refine ⟨⟨.emit w e, .refl _, rfl, fun n hn => ?_⟩, rfl, fun _ _ => rfl⟩
  exact (List.mem_append.mp hn).resolve_right fun h => he n (List.mem_singleton.mp h).symm

theorem emitted (h : w.Abides w₁) {e : Event E.Note} (he : ∀ n, e ≠ .note n) :
    w.Abides (w₁.emit e) :=
  h.trans (emit w₁ he)

theorem withClient (w : World E) (c : E.State) : w.Abides (w.withClient c) :=
  ⟨⟨.withClient w c, .refl _, rfl, fun _ h => h⟩, rfl, fun _ _ => rfl⟩

/-- A change of anything but the sessions, the limits and the listeners of the service, by
which the registry loses entries at most. -/
theorem change (w : World E) {f : Stack → Stack} (hs : (f w.stack).sessions = w.stack.sessions)
    (hr : (f w.stack).registry.Sublist w.stack.registry)
    (hl : (f w.stack).settings.limits = w.stack.settings.limits)
    (hls : (f w.stack).listeners = w.stack.listeners) : w.Abides (w.change f) := by
  refine ⟨⟨.change w hs, hr, hl, fun _ h => h⟩, hls, fun r _ => ?_⟩
  rw [World.change_stack, Stack.transfer, Stack.session, hs]
  rfl

/-- A change of a session that keeps its file part. -/
theorem update (w : World E) {f : Session → Session}
    (hages : (w.stack.session r).Ages (f (w.stack.session r)))
    (hf : ∀ x, (f x).transfer = x.transfer) : w.Abides (w.change (·.update r f)) := by
  refine ⟨⟨.update w r hages, .refl _, rfl, fun _ h => h⟩, rfl, fun q _ => ?_⟩
  refine Stack.apply_session_update (fun x => (x.transfer.getD default).listeners) fun x => ?_
  rw [hf]

/-- A change of a file part that keeps its listeners. -/
theorem updateTransfer (w : World E) {f : Transfer → Transfer}
    (hterms : ∀ t ∈ (w.stack.session r).transfer, (f t).terms = t.terms)
    (hf : ∀ t, (f t).listeners = t.listeners) : w.Abides (w.change (·.updateTransfer r f)) :=
  ⟨⟨.update w r (.ofTransfer _ hterms), .refl _, rfl, fun _ h => h⟩, rfl,
    fun _ _ => Stack.apply_transfer_updateTransfer Transfer.listeners hf⟩

/-! ### What sessions do -/

theorem interrupting (w : World E) (r : Ref) : w.Abides (w.interrupting r) := by
  unfold World.interrupting
  split
  · exact .refl w
  · refine .emitted (.emitted (.update w (.interrupt _) ?_) ?_) ?_
    · exact fun _ => rfl
    · simp
    · simp

theorem claiming (w : World E) (r : Ref) (e : Ending) : w.Abides (w.claiming r e) :=
  (interrupting w r).emitted (by simp)

theorem establishing (w : World E) (r : Ref) : w.Abides (w.establishing r) := by
  refine .emitted (.emitted (.updateTransfer w ?_ ?_) ?_) ?_
  · exact fun _ _ => rfl
  · exact fun _ => rfl
  · simp
  · simp

theorem dismissing (w : World E) (id : Text) : w.Abides (w.dismissing id) := by
  have hfilter : w.Abides (w.change fun s => { s with registry := s.registry.filter (·.1 ≠ id) }) :=
    .change w rfl List.filter_sublist rfl rfl
  unfold World.dismissing
  split
  · dsimp only
    split
    · exact (hfilter.emitted (by simp)).emitted (by simp)
    · exact hfilter.emitted (by simp)
  · exact .refl w

theorem leaving (w : World E) (r : Ref) : w.Abides (w.leaving r) := by
  unfold World.leaving
  split
  · exact .refl w
  · refine .trans (.update w (.leave _) ?_) (.dismissing _ _)
    exact fun _ => rfl

theorem ofMove (h : SessionMove r w w₁) : w.Abides w₁ := by
  cases h with
  | dialog d => exact .update w (.dialog _ _) fun _ => rfl
  | request m => exact .emit w (by simp)
  | response m => exact .emit w (by simp)
  | media m => exact .emit w (by simp)
  | control n call => exact .emit w (by simp)
  | returned n call succeeded _ => exact .emit w (by simp)
  | begun n => exact .trans (.emit w (by simp)) (.updateTransfer _ (fun _ _ => rfl) fun _ => rfl)
  | delivered => exact .updateTransfer w (fun _ _ => rfl) fun _ => rfl
  | setClock c clock h => exact .updateTransfer w (Stack.terms_setClock h clock) fun _ => rfl
  | refresh c => exact .emitted (.change w rfl (.refl _) rfl rfl) (by simp)

/-! ### What the services do -/

theorem ofService (h : ServiceMove w w₁) : w.Abides w₁ := by
  cases h with
  | response m => exact .emit w (by simp)
  | capabilities c cs h => exact .emitted (.change w rfl (.refl _) rfl rfl) (by simp)
  | markRead m => exact .emit w (by simp)
  | watched on => exact .change w rfl (.refl _) rfl rfl
  | settings f hf => exact .change w rfl (.refl _) (hf _) rfl

theorem ofMade {file : Bool} (h : w.Made r file w₁) : w.Abides w₁ := by
  refine ⟨⟨h.grows, ?_, by rw [h.rest], fun n hn => ?_⟩, by rw [h.rest], fun q hq => ?_⟩
  · rw [h.rest]
  · obtain ⟨T, hT, hmaking⟩ := h.trace
    exact (List.mem_append.mp (hT ▸ hn)).resolve_right fun hmem => hmaking _ hmem
  · rw [Stack.transfer, h.others q (Nat.ne_of_lt (h.fresh ▸ hq))]
    rfl

end World.Abides

/-! ### The listeners of the service -/

/-- Between two worlds the service attaches a listener to all transfers or detaches one from
all: those that have its listeners have them still. -/
structure World.Relistens (w w' : World E) : Prop extends w.Narrows w' where
  nodup : w.stack.listeners.members.Nodup → w'.stack.listeners.members.Nodup
  mirrors : w.stack.listeners.members.Nodup → ∀ r ∈ w.stack.transfers,
    (w.stack.transfer r).listeners = w.stack.listeners →
      (w'.stack.transfer r).listeners = w'.stack.listeners

namespace World.Relistens

open Act

variable {N : Handler E} {w w' : World E} {op : TransferOp}
  {f : ListenerSet Listener → ListenerSet Listener}

theorem ofAbides (h : w.Abides w') : w.Relistens w' := by
  refine ⟨h.toNarrows, fun hnodup => h.service ▸ hnodup, fun _ r hr hsame => ?_⟩
  have hmade := Stack.lt_size_of_isTransfer (Stack.isTransfer_of_mem_transfers hr)
  rw [h.listeners r hmade, hsame, h.service]

/-- What asking several transfers to take a listener, or to let one go, does to those that
have the listeners `ls`, where asking twice does no more than asking once. -/
theorem askEach (hop : ∀ r w, after N (Act.askTransfer r op) w
      = (w.emit (.asked (.transfer r op))).change (·.updateTransfer r fun t =>
        { t with listeners := f (w.stack.transfer r).listeners }))
    {ls : ListenerSet Listener} (hf : f (f ls) = f ls) {rs : List Ref}
    (hrs : ∀ r ∈ rs, w.stack.isTransfer r = true) :
    let w' := after N (Act.askEach op rs) w
    w.Narrows w' ∧ w'.stack.listeners = w.stack.listeners ∧
      ∀ q, (w.stack.transfer q).listeners = f ls ∨
          q ∈ rs ∧ (w.stack.transfer q).listeners = ls →
        (w'.stack.transfer q).listeners = f ls := by
  induction rs generalizing w with
  | nil =>
    refine ⟨(Abides.refl w).toNarrows, rfl, fun q hq => ?_⟩
    exact hq.resolve_right fun h => absurd h.1 List.not_mem_nil
  | cons r rs ih =>
    have hr := hrs r List.mem_cons_self
    have hself := Stack.transfer_updateTransfer_self hr
      fun t => { t with listeners := f (w.stack.transfer r).listeners }
    have hfirst : w.Narrows (after N (Act.askTransfer r op) w) := by
      rw [hop]
      exact (Abides.emit w (by simp)).toNarrows.trans (.relisten _ r _)
    have hrest := ih (w := after N (Act.askTransfer r op) w) fun q hq =>
      hfirst.grows.isTransfer (hrs q (List.mem_cons_of_mem r hq))
    rw [Act.askEach, after_bind]
    refine ⟨hfirst.trans hrest.1, hrest.2.1.trans (by rw [hop]; rfl), fun q hq => hrest.2.2 q ?_⟩
    rw [hop, World.change_stack, World.emit_stack]
    by_cases hqr : q = r
    · subst hqr
      rw [hself]
      refine .inl ?_
      rcases hq with hq | hq
      · exact hq ▸ hf
      · exact congrArg f hq.2
    · rw [Stack.transfer, Stack.updateTransfer, Stack.session_update_of_ne hqr, ← Stack.transfer]
      exact hq.imp_right fun h => ⟨(List.mem_cons.mp h.1).resolve_left hqr, h.2⟩

/-- Where asking twice does no more than asking once, changing the listeners of the service
and asking all transfers keeps together what was together. -/
theorem ofAskEach (hop : ∀ r w, after N (Act.askTransfer r op) w
      = (w.emit (.asked (.transfer r op))).change (·.updateTransfer r fun t =>
        { t with listeners := f (w.stack.transfer r).listeners }))
    (hnodup : ∀ ls : ListenerSet Listener, ls.members.Nodup → (f ls).members.Nodup)
    (hf : ∀ ls : ListenerSet Listener, ls.members.Nodup → f (f ls) = f ls) (w : World E) :
    w.Relistens (after N (Act.askEach op w.stack.transfers)
      (w.change fun s => { s with listeners := f w.stack.listeners })) := by
  have hchange : w.Narrows (w.change fun s => { s with listeners := f w.stack.listeners }) :=
    ⟨.change w rfl, .refl _, rfl, fun _ h => h⟩
  have hmembers : ∀ r ∈ w.stack.transfers, w.stack.isTransfer r = true :=
    fun r hr => Stack.isTransfer_of_mem_transfers hr
  have hask := fun ls (hls : ls.members.Nodup) => askEach (N := N)
    (w := w.change fun s => { s with listeners := f w.stack.listeners }) hop (hf ls hls) hmembers
  obtain ⟨hnarrows, hservice, -⟩ := hask .empty List.nodup_nil
  refine ⟨hchange.trans hnarrows, fun h => ?_, fun h r hr hsame => ?_⟩
  · rw [hservice]
    exact hnodup _ h
  · rw [hservice]
    exact (hask _ h).2.2 r (.inr ⟨hr, hsame⟩)

theorem ofAttach (l : Option Listener) (w : World E) :
    w.Relistens (after N (Act.addServiceListener l) w) := by
  rw [Act.addServiceListener, after_stack_bind]
  dsimp only
  split
  · refine ofAskEach (f := fun ls => (ls.add l).2) (fun _ _ => rfl) ?_ ?_ w
    · exact fun ls h => ListenerSet.nodup_add h l
    · exact fun ls _ => ListenerSet.add_add ls l
  · exact .ofAbides (.refl w)

theorem ofDetach (l : Option Listener) (w : World E) :
    w.Relistens (after N (Act.removeServiceListener l) w) := by
  rw [Act.removeServiceListener, after_stack_bind]
  dsimp only
  split
  · refine ofAskEach (f := fun ls => (ls.remove l).2) (fun _ _ => rfl) ?_ ?_ w
    · exact fun ls h => ListenerSet.nodup_remove h l
    · exact fun ls h => ListenerSet.remove_remove h l
  · exact .ofAbides (.refl w)

end World.Relistens

/-! ### Steps -/

/-- What the service sees at a time, where clients may ask transfers for their listeners if
`free` says so. -/
inductive World.Shift (free : Prop) : World E → World E → Prop where
  /-- Sessions leave, or a listener is attached to all transfers or detached from all. -/
  | relistens {w w' : World E} (h : w.Relistens w') : Shift free w w'
  /-- The client writes a note. -/
  | note (w : World E) (n : E.Note) : Shift free w (w.emit (.note n))
  /-- Somebody begins or ceases to listen to one transfer. -/
  | listening {w w' : World E} (hfree : free) (h : w.Narrows w') : Shift free w w'
  /-- A session enters because that is asked for. -/
  | register {w : World E} {r : Ref} (hr : r < w.stack.sessions.size) :
    Shift free w ((w.emit (.asked (.register (some r)))).enrolling r)
  /-- A transfer enters that the service has made, for which there is room. -/
  | enter {w w' : World E} {r : Ref} (h : w.Made r true w') (hadmits : w.Admits r w') :
    Shift free w (w'.enrolling r)

theorem World.Shift.grows {free : Prop} {w w' : World E} (h : w.Shift free w') : w.Grows w' := by
  cases h with
  | relistens h => exact h.grows
  | note n => exact .emit w _
  | listening _ h => exact h.grows
  | register hr => exact (Grows.emit w _).trans (grows_enrolling _ _)
  | enter h _ => exact h.grows.trans (grows_enrolling _ _)

/-- What the service sees, one after another. -/
def World.Shifts (free : Prop) (w w' : World E) : Prop :=
  Relation.ReflTransGen (World.Shift free) w w'

namespace World.Shifts

variable {free : Prop} {w w₁ w₂ : World E}

theorem refl (w : World E) : w.Shifts free w := Relation.ReflTransGen.refl

theorem trans (h : w.Shifts free w₁) (h' : w₁.Shifts free w₂) : w.Shifts free w₂ :=
  Relation.ReflTransGen.trans h h'

theorem single (h : w.Shift free w₁) : w.Shifts free w₁ := Relation.ReflTransGen.single h

theorem grows (h : w.Shifts free w₁) : w.Grows w₁ := by
  induction h with
  | refl => exact .refl w
  | tail _ hstep ih => exact ih.trans hstep.grows

end World.Shifts

end FileSharing
