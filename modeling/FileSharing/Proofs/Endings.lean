import FileSharing.Proofs.Talk

/-!
# The end of a session, as its listeners hear of it

Whatever ends a session, its listeners hear of one end at most: that of the operation
which claimed it first.  It is not always the last thing they hear.  Where the end is
claimed while listeners are still being called for something else, those not yet
called hear of the end first and of the other thing afterwards.

## Main definitions

* `Event.isEnding` — the callbacks that tell a listener of the end.
* `OnlyClaim` — the claim of an end, where it is the only one.
* `LastWord` — no listener hears anything after the end.
* `NothingOwed` — when the end is claimed, nobody who will be told of it is owed an
  earlier callback.

## Main results

* `one_ending` — **every listener hears of at most one end, and all of the same.**
* `lastWord_iff_nothingOwed` — **the end is the last thing that listeners hear if and
  only if nothing is owed to them when it is claimed.**
-/

namespace FileSharing

variable {ν : Type} {r : Ref} {x : Life} {T : List (Event ν)}

/-- No listener of a session hears anything after the end. -/
def LastWord (r : Ref) (T : List (Event ν)) : Prop :=
  ∀ A B l contact c, T = A ++ .callback r l contact c :: B → c.isTerminal = true →
    ∀ contact' c', .callback r l contact' c' ∉ B

/-- When the end of a session is claimed, every listener that will be told of it has
been called for all that it was promised. -/
def NothingOwed (r : Ref) (T : List (Event ν)) : Prop :=
  ∀ A B e c ls l, T = A ++ .claimed r e :: B → .fanout r c ls ∈ B → l ∈ ls →
    promised r l A = delivered r l A

/-! ### Talk and trace -/

/-- A trace goes on behind an event as its talk does. -/
theorem talk_cons_append {e : Event ν} (he : e.isTalk r = true) (A B : List (Event ν)) :
    talk r (A ++ e :: B) = talk r A ++ e :: talk r B := by
  simp [talk, he]

theorem exists_of_talk_eq {A B : List (Event ν)} {e : Event ν} (h : talk r T = A ++ e :: B) :
    ∃ A' B', T = A' ++ e :: B' ∧ talk r A' = A ∧ talk r B' = B := by
  obtain ⟨T₁, T₂, rfl, hA, hB⟩ := List.filter_eq_append_iff.mp h
  obtain ⟨M, B', rfl, hM, -, hB'⟩ := List.filter_eq_cons_iff.mp hB
  refine ⟨T₁ ++ M, B', by simp, ?_, hB'⟩
  rw [talk_append, talk, hA, talk, List.filter_eq_nil_iff.mpr hM, List.append_nil]

theorem mem_talk {e : Event ν} (he : e.isTalk r = true) : e ∈ talk r T ↔ e ∈ T := by
  simp [talk, he]

theorem talk_talk : talk r (talk r T) = talk r T := by simp [talk]

theorem promised_talk (l : Listener) : promised r l (talk r T) = promised r l T := by
  rw [promised, talk_talk, promised]

theorem delivered_talk (l : Listener) : delivered r l (talk r T) = delivered r l T := by
  rw [delivered, talk_talk, delivered]

theorem lastWord_talk : LastWord r (talk r T) ↔ LastWord r T := by
  have hcall : ∀ l contact c, (.callback r l contact c : Event ν).isTalk r = true := by
    simp [Event.isTalk]
  constructor
  · intro h A B l contact c hT hc contact' c' hB
    rw [hT, talk_cons_append (hcall _ _ _)] at h
    exact h _ _ l contact c rfl hc contact' c' ((mem_talk (hcall _ _ _)).mpr hB)
  · intro h A B l contact c hT hc contact' c' hB
    obtain ⟨A', B', rfl, -, rfl⟩ := exists_of_talk_eq hT
    exact h A' B' l contact c rfl hc contact' c' ((mem_talk (hcall _ _ _)).mp hB)

theorem nothingOwed_talk : NothingOwed r (talk r T) ↔ NothingOwed r T := by
  have hfanout : ∀ c ls, (.fanout r c ls : Event ν).isTalk r = true := by simp [Event.isTalk]
  constructor
  · intro h A B e c ls l hT hB hl
    rw [hT, talk_cons_append (by simp [Event.isTalk])] at h
    have howed := h _ _ e c ls l rfl ((mem_talk (hfanout _ _)).mpr hB) hl
    rwa [promised_talk, delivered_talk] at howed
  · intro h A B e c ls l hT hB hl
    obtain ⟨A', B', rfl, rfl, rfl⟩ := exists_of_talk_eq hT
    rw [promised_talk, delivered_talk]
    exact h A' B' e c ls l rfl ((mem_talk (hfanout _ _)).mp hB) hl

/-! ### The shape of an end -/

theorem Terms.isTerminal_callback (t : Terms) (e : Ending) : (t.callback e).isTerminal = true := by
  cases e <;> rfl

/-- The talk of a session that has told its listeners of its end. -/
structure Told (r : Ref) (x : Life) (T : List (Event ν)) where
  before : List (Event ν)
  ending : Ending
  listeners : List Listener
  after : List (Event ν)
  /-- What came before is chatter. -/
  chatter : ∀ e ∈ before, e.IsChatter r
  /-- Nobody was told twice. -/
  nodup : listeners.Nodup
  /-- What came after was still to be delivered. -/
  echo : ∀ e ∈ after, e.IsEcho r
  eq : T = (before ++ [.interrupted r]) ++ .claimed r ending ::
    (.fanout r (x.terms.callback ending) listeners ::
      (callbacks r x.contact (x.terms.callback ending) listeners ++ after))

/-- A talk in which nobody is told of an end. -/
def Untold (r : Ref) (T : List (Event ν)) : Prop :=
  (∀ e, .claimed r e ∉ T) ∧ ∀ l contact c, .callback r l contact c ∈ T → c.isTerminal = false

theorem Event.IsEcho.isChatter {e : Event ν} (h : e.IsEcho r) : e.IsChatter r := by
  cases e with
  | callback s l contact c => exact h
  | _ => exact h.elim

theorem Untold.ofChatter (h : ∀ e ∈ T, e.IsChatter r) : Untold r T :=
  ⟨fun _ he => h _ he, fun _ _ _ hc => (h _ hc).2⟩

/-- In a speech either nobody is told of an end, or one end is told. -/
theorem Speech.told_or_untold (h : Speech r x T) : Untold r T ∨ Nonempty (Told r x T) := by
  unfold Speech at h
  split at h
  · obtain ⟨A, B, C, rfl, hA, hB, hC⟩ := h
    cases hB with
    | silent =>
      left
      have hrest : ∀ e ∈ A ++ [.interrupted r] ++ C, e.IsChatter r ∨ e = .interrupted r := by
        intro e he
        rcases List.mem_append.mp he with he | he
        · rcases List.mem_append.mp he with he | he
          · exact .inl (hA e he)
          · exact .inr (List.mem_singleton.mp he)
        · exact .inl (hC e he).isChatter
      refine ⟨fun e he => ?_, fun l contact c hc => ?_⟩
      · exact (hrest _ he).elim id fun heq => by simp at heq
      · exact (hrest _ hc).elim And.right fun heq => by simp at heq
    | told e ls hls => exact .inr ⟨⟨A, e, ls, C, hA, hls, hC, by simp⟩⟩
  · exact .inl (.ofChatter h)

theorem promised_echo {l : Listener} (h : ∀ e ∈ T, e.IsEcho r) : promised r l T = 0 := by
  rw [promised, List.sum_eq_zero_iff_forall_eq_nat]
  intro n hn
  obtain ⟨e, he, rfl⟩ := List.mem_map.mp hn
  have hecho := h e (List.mem_of_mem_filter he)
  cases e with
  | callback s l contact c => rfl
  | _ => exact hecho.elim

theorem delivered_eq_zero {l : Listener} :
    delivered r l T = 0 ↔ ∀ contact c, .callback r l contact c ∉ T := by
  rw [delivered, List.sum_eq_zero_iff_forall_eq_nat]
  constructor
  · intro h contact c hmem
    have hone := h (Event.delivers l (.callback r l contact c))
      (List.mem_map_of_mem ((mem_talk (by simp [Event.isTalk])).mpr hmem))
    simp [Event.delivers] at hone
  · intro h n hn
    obtain ⟨e, he, rfl⟩ := List.mem_map.mp hn
    obtain ⟨hmem, htalk⟩ := List.mem_filter.mp he
    cases e with
    | callback s m contact c =>
      by_contra hne
      have hm : m = l := by simpa [Event.delivers] using hne
      have hs : s = r := by simpa [Event.isTalk] using htalk
      subst hm hs
      exact h contact c hmem
    | _ => rfl

namespace Told

theorem claimed_notMem_before (t : Told r x T) (e : Ending) :
    .claimed r e ∉ t.before ++ [.interrupted r] := by
  intro he
  rcases List.mem_append.mp he with he | he
  · exact t.chatter _ he
  · simp at he

/-- All that follows on the claim is the fan-out for the end, its callbacks, and what was
still to be delivered. -/
theorem claimed_notMem_rest (t : Told r x T) (e : Ending) :
    .claimed r e ∉ .fanout r (x.terms.callback t.ending) t.listeners ::
      (callbacks r x.contact (x.terms.callback t.ending) t.listeners ++ t.after) := by
  intro he
  rcases List.mem_cons.mp he with he | he
  · simp at he
  · rcases List.mem_append.mp he with he | he
    · simp [callbacks] at he
    · exact t.echo _ he

/-- The claim that was told is the only one. -/
theorem claimed_unique (t : Told r x T) {A B : List (Event ν)} {e : Ending}
    (h : T = A ++ .claimed r e :: B) :
    t.before ++ [.interrupted r] = A ∧
      .fanout r (x.terms.callback t.ending) t.listeners ::
        (callbacks r x.contact (x.terms.callback t.ending) t.listeners ++ t.after) = B := by
  have hparts := (List.append_cons_inj_of_notMem (t.claimed_notMem_before e)
    (t.claimed_notMem_rest e)).mp (t.eq.symm.trans h)
  exact ⟨hparts.1, hparts.2.2⟩

/-- Who was told of an end was told of the one that was claimed. -/
theorem of_callback_mem (t : Told r x T) {l : Listener} {contact : Contact} {c : Callback}
    (h : .callback r l contact c ∈ T) (hc : c.isTerminal = true) :
    l ∈ t.listeners ∧ contact = x.contact ∧ c = x.terms.callback t.ending := by
  rw [t.eq] at h
  rcases List.mem_append.mp h with h | h
  · rcases List.mem_append.mp h with h | h
    · exact absurd hc (by simp [(t.chatter _ h).2])
    · simp at h
  · rcases List.mem_cons.mp (List.mem_of_ne_of_mem (by simp) h) with h | h
    · simp at h
    · rcases List.mem_append.mp h with h | h
      · obtain ⟨m, hm, heq⟩ := List.mem_map.mp h
        simp only [Event.callback.injEq, true_and] at heq
        obtain ⟨rfl, rfl, rfl⟩ := heq
        exact ⟨hm, rfl, rfl⟩
      · exact absurd hc (by simp [(t.echo _ h).2])

theorem callback_mem (t : Told r x T) {l : Listener} (hl : l ∈ t.listeners) :
    .callback r l x.contact (x.terms.callback t.ending) ∈ T := by
  have hmem : .callback r l x.contact (x.terms.callback t.ending) ∈
      (t.before ++ [.interrupted r]) ++ .claimed r t.ending ::
        (.fanout r (x.terms.callback t.ending) t.listeners ::
          (callbacks r x.contact (x.terms.callback t.ending) t.listeners ++ t.after)) := by
    simp [callbacks, hl]
  rwa [← t.eq] at hmem

/-- The fan-out for the end is the only one that follows on the claim. -/
theorem listeners_of_fanout_mem (t : Told r x T) {c : Callback} {ls : List Listener}
    (h : .fanout r c ls ∈ .fanout r (x.terms.callback t.ending) t.listeners ::
      (callbacks r x.contact (x.terms.callback t.ending) t.listeners ++ t.after)) :
    ls = t.listeners := by
  rcases List.mem_cons.mp h with h | h
  · simp only [Event.fanout.injEq] at h
    exact h.2.2
  · rcases List.mem_append.mp h with h | h
    · simp [callbacks] at h
    · exact (t.echo _ h).elim

/-- What follows after a listener was told of the end. -/
theorem after_callback (t : Told r x T) {A B : List (Event ν)} {l : Listener} {contact : Contact}
    {c : Callback} (h : T = A ++ .callback r l contact c :: B) (hc : c.isTerminal = true) :
    ∃ ls, l ∉ ls ∧ callbacks r x.contact (x.terms.callback t.ending) ls ++ t.after = B := by
  obtain ⟨hl, rfl, rfl⟩ := t.of_callback_mem (h ▸ List.mem_append_right A List.mem_cons_self) hc
  obtain ⟨ls₁, ls₂, hls⟩ := List.append_of_mem hl
  have hnodup := t.nodup
  rw [hls, List.nodup_middle, List.nodup_cons, List.mem_append, not_or] at hnodup
  obtain ⟨⟨hl₁, hl₂⟩, -⟩ := hnodup
  refine ⟨ls₂, hl₂, ?_⟩
  have hshape : T = (t.before ++ [.interrupted r] ++ [.claimed r t.ending,
      .fanout r (x.terms.callback t.ending) t.listeners] ++
      callbacks r x.contact (x.terms.callback t.ending) ls₁) ++
      .callback r l x.contact (x.terms.callback t.ending) ::
        (callbacks r x.contact (x.terms.callback t.ending) ls₂ ++ t.after) := by
    refine t.eq.trans ?_
    rw [hls]
    simp [callbacks]
  -- the callback occurs once, so it can only be the one of this listener
  have hafter : .callback r l x.contact (x.terms.callback t.ending) ∉
      callbacks r x.contact (x.terms.callback t.ending) ls₂ ++ t.after := by
    intro hmem
    rcases List.mem_append.mp hmem with hmem | hmem
    · simp [callbacks, hl₂] at hmem
    · exact absurd hc (by simp [(t.echo _ hmem).2])
  have hbefore : .callback r l x.contact (x.terms.callback t.ending) ∉
      t.before ++ [.interrupted r] ++ [.claimed r t.ending,
        .fanout r (x.terms.callback t.ending) t.listeners] ++
        callbacks r x.contact (x.terms.callback t.ending) ls₁ := by
    intro hmem
    have hchatter : .callback r l x.contact (x.terms.callback t.ending) ∉ t.before :=
      fun hmem => absurd hc (by simp [(t.chatter _ hmem).2])
    simp [callbacks, hl₁, hchatter] at hmem
  exact ((List.append_cons_inj_of_notMem hbefore hafter).mp (hshape.symm.trans h)).2.2

/-- What is owed to a listener when the end is claimed is what it hears afterwards. -/
theorem owed_eq (t : Told r x T) (hkept : ∀ l, promised r l T = delivered r l T) (l : Listener) :
    promised r l (t.before ++ [.interrupted r])
      = delivered r l (t.before ++ [.interrupted r]) + delivered r l t.after := by
  have hclaim : promised r l [(.claimed r t.ending : Event ν)] = 0 ∧
      delivered r l [(.claimed r t.ending : Event ν)] = 0 := by
    simp [promised, delivered, talk, Event.isTalk, Event.promises, Event.delivers]
  have hshape : T = (t.before ++ [.interrupted r]) ++ ([.claimed r t.ending] ++
      ([.fanout r (x.terms.callback t.ending) t.listeners] ++
        (callbacks r x.contact (x.terms.callback t.ending) t.listeners ++ t.after))) := t.eq
  have hpromised := congrArg (promised r l) hshape
  have hdelivered := congrArg (delivered r l) hshape
  generalize t.before ++ [.interrupted r] = M at hpromised hdelivered ⊢
  simp only [promised_append, hclaim.1, promised_fanout, promised_callbacks,
    promised_echo t.echo] at hpromised
  simp only [delivered_append, hclaim.2, delivered_fanout, delivered_callbacks] at hdelivered
  have hl := hkept l
  omega

end Told

/-! ### Main results -/

/-- **The end is the last thing that listeners hear if and only if nothing is owed to
them when it is claimed.** -/
theorem lastWord_iff_nothingOwed {E : Environment} (settings : Settings) (client : E.State)
    (depth : Nat) {α : Type} (p : Program E.State E.Note α) (r : Ref) :
    let w := ((run E depth p).run (.start settings client)).2
    LastWord r w.trace ↔ NothingOwed r w.trace := by
  intro w
  obtain ⟨hspeech, hkept⟩ := speech_run settings client depth p r
  rw [← lastWord_talk, ← nothingOwed_talk]
  rcases hspeech.told_or_untold with hnot | ⟨⟨t⟩⟩
  · constructor
    · intro _ A B e c ls l hT _ _
      exact absurd (hT ▸ List.mem_append_right A List.mem_cons_self) (hnot.1 e)
    · intro _ A B l contact c hT hc
      have := hnot.2 l contact c (hT ▸ List.mem_append_right A List.mem_cons_self)
      simp [this] at hc
  · have howed := t.owed_eq fun l => by rw [promised_talk, delivered_talk, hkept l]
    constructor
    · -- what is owed to a listener is heard after the end, and nothing is
      intro hlast A B e c ls l hT hfan hl
      obtain ⟨rfl, rfl⟩ := t.claimed_unique hT
      have hls : ls = t.listeners := t.listeners_of_fanout_mem hfan
      obtain ⟨X, Y, hsplit⟩ := List.append_of_mem (t.callback_mem (hls ▸ hl))
      have hterminal := Terms.isTerminal_callback (w.stack.life r).terms t.ending
      obtain ⟨ls', -, rfl⟩ := t.after_callback hsplit hterminal
      have hsilent : delivered r l t.after = 0 := delivered_eq_zero.mpr fun contact' c' hmem =>
        hlast X _ l _ _ hsplit hterminal contact' c' (List.mem_append_right _ hmem)
      rw [howed l, hsilent, Nat.add_zero]
    · -- the end is told once, so only what is owed could follow on it
      intro hnothing A B l contact c hT hc contact' c' hB
      have hmem := hT ▸ List.mem_append_right A List.mem_cons_self
      obtain ⟨hl, -, -⟩ := t.of_callback_mem hmem hc
      obtain ⟨ls, hls, rfl⟩ := t.after_callback hT hc
      have hsilent : delivered r l t.after = 0 := by
        have hclaim := hnothing _ _ _ _ _ l t.eq List.mem_cons_self hl
        have := howed l
        omega
      rcases List.mem_append.mp hB with hB | hB
      · simp [callbacks, hls] at hB
      · exact delivered_eq_zero.mp hsilent contact' c' hB

/-! ### An end that is not the last word -/

/-- Of two listeners, the first gives the transfer up when it hears of progress. -/
def impatient : Listener → Ref → Callback → Program Unit Unit (Option Text)
  | 0, r, .progress _ _ => .call (.transfer r (.abort .byUser)) fun _ => .done none
  | _, _, _ => .done none

/-- The engine reports progress of an upload to which two listen. -/
def progressOfTwo : Program Unit Unit Unit :=
  beforeTwo (.call (.transfer 0 (.engine (.progress 1 2))) fun _ => .done ())

/-- The second listener hears of the end first and of the progress afterwards. -/
theorem talk_impatient :
    talk 0 ((run (.obliging impatient) 2 progressOfTwo).run (.start .default ())).2.trace
      = [.fanout 0 (.progress 1 2) [0, 1],
        .callback 0 0 ⟨"+33612345678"⟩ (.progress 1 2),
        .interrupted 0, .claimed 0 (.abort .byUser),
        .fanout 0 (.aborted .byUser) [0, 1],
        .callback 0 0 ⟨"+33612345678"⟩ (.aborted .byUser),
        .callback 0 1 ⟨"+33612345678"⟩ (.aborted .byUser),
        .callback 0 1 ⟨"+33612345678"⟩ (.progress 1 2)] := by
  rfl

/-- The end is not always the last thing that a listener hears. -/
theorem not_lastWord_impatient :
    ¬LastWord 0
      ((run (.obliging impatient) 2 progressOfTwo).run (.start .default ())).2.trace := by
  rw [← lastWord_talk, talk_impatient]
  intro h
  -- the end reaches the second listener in the seventh event, the progress in the eighth
  exact h [_, _, _, _, _, _] [_] 1 _ _ rfl rfl _ _ List.mem_cons_self

end FileSharing
