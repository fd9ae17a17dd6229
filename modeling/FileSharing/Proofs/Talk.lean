import FileSharing.Proofs.Spared
import Mathlib.Algebra.GroupWithZero.Nat

/-!
# What a session tells its listeners

Of all that happens to a session, its talk is what it tells its listeners, and the
marks of its end.  However operations nest, the talk of a session has one shape:
chatter, one farewell, and what was still to be delivered of the chatter when the
farewell came.

## Main definitions

* `talk` — the events of a session's talk.
* `promised`, `delivered` — the callbacks that fan-outs owe a listener, and those
  that were made.
* `Farewell`, `Speech` — the end of a talk, and its shape.
* `Telling` — that something adds to a talk in this shape, and leaves nothing owed.

## Main results

* `Telling.laws` — **whatever a stack does, it only adds to the talk of a session in
  this shape.**
* `speech_run` — **the talk of a session in a run from the start is a speech**, and
  every promise in it is kept.
-/

namespace FileSharing

variable {ν : Type}

/-! ### Talk -/

/-- Whether an event belongs to the talk of a session. -/
def Event.isTalk (r : Ref) : Event ν → Bool
  | .fanout s _ _ => s = r
  | .callback s _ _ _ => s = r
  | .interrupted s => s = r
  | .claimed s _ => s = r
  | _ => false

/-- The talk of a session. -/
def talk (r : Ref) (T : List (Event ν)) : List (Event ν) := T.filter (Event.isTalk r)

theorem talk_append (r : Ref) (T T' : List (Event ν)) : talk r (T ++ T') = talk r T ++ talk r T' :=
  List.filter_append ..

theorem talk_of_isTalk {r : Ref} {e : Event ν} (h : e.isTalk r = true) : talk r [e] = [e] := by
  simp [talk, h]

theorem talk_of_not_isTalk {r : Ref} {e : Event ν} (h : e.isTalk r = false) : talk r [e] = [] := by
  simp [talk, h]

theorem talk_eq_nil {r : Ref} {T : List (Event ν)} (h : ∀ e ∈ T, e.isTalk r = false) :
    talk r T = [] := by
  rw [talk, List.filter_eq_nil_iff]
  intro e he
  simp [h e he]

/-- What is not about a session does not belong to its talk. -/
theorem Event.isTalk_of_not_isAbout {r : Ref} {e : Event ν} (h : ¬e.IsAbout r) :
    e.isTalk r = false := by
  cases e <;> simp_all [IsAbout, isTalk]

/-! ### Promises -/

/-- The callbacks that an event promises a listener. -/
def Event.promises (l : Listener) : Event ν → Nat
  | .fanout _ _ ls => ls.count l
  | _ => 0

/-- The callbacks to a listener that an event is. -/
def Event.delivers (l : Listener) : Event ν → Nat
  | .callback _ m _ _ => if m = l then 1 else 0
  | _ => 0

/-- The callbacks that the fan-outs of a session have promised a listener. -/
def promised (r : Ref) (l : Listener) (T : List (Event ν)) : Nat :=
  ((talk r T).map (Event.promises l)).sum

/-- The callbacks of a session to a listener. -/
def delivered (r : Ref) (l : Listener) (T : List (Event ν)) : Nat :=
  ((talk r T).map (Event.delivers l)).sum

variable {r : Ref} {l : Listener}

theorem promised_append (T T' : List (Event ν)) :
    promised r l (T ++ T') = promised r l T + promised r l T' := by
  simp [promised, talk_append]

theorem delivered_append (T T' : List (Event ν)) :
    delivered r l (T ++ T') = delivered r l T + delivered r l T' := by
  simp [delivered, talk_append]

theorem talk_callbacks (contact : Contact) (c : Callback) (ls : List Listener) :
    talk r (callbacks r contact c ls : List (Event ν)) = callbacks r contact c ls := by
  simp [talk, callbacks, Event.isTalk]

theorem promised_callbacks (contact : Contact) (c : Callback) (ls : List Listener) :
    promised r l (callbacks r contact c ls : List (Event ν)) = 0 := by
  induction ls with
  | nil => rfl
  | cons m ls ih =>
    rw [promised, talk_callbacks] at ih ⊢
    simpa [callbacks, Event.promises] using ih

theorem delivered_callbacks (contact : Contact) (c : Callback) (ls : List Listener) :
    delivered r l (callbacks r contact c ls : List (Event ν)) = ls.count l := by
  induction ls with
  | nil => rfl
  | cons m ls ih =>
    rw [delivered, talk_callbacks] at ih ⊢
    simp [callbacks, Event.delivers, List.count_cons] at ih ⊢
    omega

theorem promised_fanout (r : Ref) (l : Listener) (c : Callback) (ls : List Listener) :
    promised r l [(.fanout r c ls : Event ν)] = ls.count l := by
  simp [promised, talk, Event.isTalk, Event.promises]

theorem delivered_fanout (r : Ref) (l : Listener) (c : Callback) (ls : List Listener) :
    delivered r l [(.fanout r c ls : Event ν)] = 0 := by
  simp [delivered, talk, Event.isTalk, Event.delivers]

/-- Calling one listener first. -/
theorem called_first (r : Ref) (l m : Listener) (contact : Contact) (c : Callback)
    (ls : List Listener) :
    promised r m [(.callback r l contact c : Event ν)] + (l :: ls).count m
      = delivered r m [(.callback r l contact c : Event ν)] + ls.count m := by
  have hpromised : promised r m [(.callback r l contact c : Event ν)] = 0 :=
    promised_callbacks contact c [l]
  have hdelivered : delivered r m [(.callback r l contact c : Event ν)] = [l].count m :=
    delivered_callbacks contact c [l]
  rw [hpromised, hdelivered, Nat.zero_add, ← List.count_append]
  rfl

/-! ### Speeches -/

/-- What a session tells before its end: a fan-out or a callback for something that
is not its end. -/
def Event.IsChatter (r : Ref) : Event ν → Prop
  | .fanout s c _ => s = r ∧ c.isTerminal = false
  | .callback s _ _ c => s = r ∧ c.isTerminal = false
  | _ => False

/-- What is still to be heard of a session after its end: a callback for something
else. -/
def Event.IsEcho (r : Ref) : Event ν → Prop
  | .callback s _ _ c => s = r ∧ c.isTerminal = false
  | _ => False

/-- How a session with the given life ends its talk. -/
inductive Farewell (r : Ref) (x : Life) : List (Event ν) → Prop where
  /-- Without a word. -/
  | silent : Farewell r x [.interrupted r]
  /-- The end is claimed, and every listener is told of it. -/
  | told (e : Ending) (ls : List Listener) (h : ls.Nodup) :
    Farewell r x (.interrupted r :: .claimed r e :: .fanout r (x.terms.callback e) ls ::
      callbacks r x.contact (x.terms.callback e) ls)

/-- The shape of the talk of a session with the given life: chatter as long as it
lives, and then a farewell that interrupts the chatter. -/
def Speech (r : Ref) (x : Life) (T : List (Event ν)) : Prop :=
  if x.ended then
    ∃ A B C, T = A ++ B ++ C ∧ (∀ e ∈ A, e.IsChatter r) ∧ Farewell r x B ∧ ∀ e ∈ C, e.IsEcho r
  else ∀ e ∈ T, e.IsChatter r

/-- A farewell keeps its promises. -/
theorem Farewell.kept {x : Life} {T : List (Event ν)} (h : Farewell r x T) (l : Listener) :
    promised r l T = delivered r l T := by
  cases h with
  | silent => simp [promised, delivered, talk, Event.isTalk, Event.promises, Event.delivers]
  | told e ls _ =>
    have hmarks : promised r l [(.interrupted r : Event ν), .claimed r e] = 0 ∧
        delivered r l [(.interrupted r : Event ν), .claimed r e] = 0 := by
      simp [promised, delivered, talk, Event.isTalk, Event.promises, Event.delivers]
    have hshape : (.interrupted r :: .claimed r e :: .fanout r (x.terms.callback e) ls ::
        callbacks r x.contact (x.terms.callback e) ls : List (Event ν))
      = [.interrupted r, .claimed r e] ++ ([.fanout r (x.terms.callback e) ls] ++
        callbacks r x.contact (x.terms.callback e) ls) := rfl
    rw [hshape, promised_append, promised_append, delivered_append, delivered_append, hmarks.1,
      hmarks.2, promised_fanout, delivered_fanout, promised_callbacks, delivered_callbacks]
    omega

namespace Speech

variable {x y : Life} {T T' : List (Event ν)}

theorem nil (h : x.ended = false) : Speech r x ([] : List (Event ν)) := by simp [Speech, h]

theorem ofFarewell (h : x.ended = true) (hT : Farewell r x T) : Speech r x T := by
  rw [Speech, if_pos h]
  exact ⟨[], T, [], by simp, by simp, hT, by simp⟩

/-- Chatter may come before anything. -/
theorem chatter_append (h : Speech r x T') (hT : ∀ e ∈ T, e.IsChatter r) :
    Speech r x (T ++ T') := by
  unfold Speech at h ⊢
  split
  · next hx =>
    rw [if_pos hx] at h
    obtain ⟨A, B, C, rfl, hA, hB, hC⟩ := h
    refine ⟨T ++ A, B, C, by simp, ?_, hB, hC⟩
    intro e he
    exact (List.mem_append.mp he).elim (hT e) (hA e)
  · next hx =>
    rw [if_neg hx] at h
    intro e he
    exact (List.mem_append.mp he).elim (hT e) (h e)

/-- Callbacks that are still to be made may come after an end. -/
theorem append_echo (h : Speech r x T) (hx : x.ended = true) (hT : ∀ e ∈ T', e.IsEcho r) :
    Speech r x (T ++ T') := by
  unfold Speech at h ⊢
  rw [if_pos hx] at h ⊢
  obtain ⟨A, B, C, rfl, hA, hB, hC⟩ := h
  refine ⟨A, B, C ++ T', by simp, hA, hB, ?_⟩
  intro e he
  exact (List.mem_append.mp he).elim (hC e) (hT e)

theorem chatter (h : Speech r x T) (hx : x.ended = false) : ∀ e ∈ T, e.IsChatter r := by
  simpa [Speech, hx] using h

/-- A farewell depends on little of a session's life. -/
theorem congr (h : Speech r x T) (hended : y.ended = x.ended) (hcontact : y.contact = x.contact)
    (hterms : y.terms = x.terms) : Speech r y T := by
  unfold Speech at h ⊢
  rw [hended]
  split
  · next hx =>
    rw [if_pos hx] at h
    obtain ⟨A, B, C, rfl, hA, hB, hC⟩ := h
    refine ⟨A, B, C, rfl, hA, ?_, hC⟩
    cases hB with
    | silent => exact .silent
    | told e ls hls =>
      rw [← hterms, ← hcontact]
      exact .told e ls hls
  · next hx => rwa [if_neg hx] at h

end Speech

/-! ### Adding to a talk -/

variable {E : Environment}

/-- The speech of a session that has ended stays one. -/
theorem Speech.later {w w' : World E} {T : List (Event ν)} (h : Speech r (w.stack.life r) T)
    (hi : (w.stack.session r).interrupted = true) (hgrows : w.Grows w') :
    Speech r (w'.stack.life r) T := by
  have hr := World.Grows.lt_size_of_interrupted hi
  refine h.congr ?_ ?_ ?_
  · exact (hgrows.interrupted hi).trans hi.symm
  · exact (hgrows.ages r hr).contact
  · exact hgrows.terms_of_lt hr

/-- Between two worlds something is added to the talk of a session.  Once the session
is interrupted nothing is added; and what is added before is a speech that keeps its
promises. -/
structure Telling (r : Ref) (w w' : World E) : Prop where
  grows : w.Grows w'
  /-- No listener is there twice. -/
  nodup : (w.stack.life r).listeners.members.Nodup → (w'.stack.life r).listeners.members.Nodup
  /-- An interrupted session is silent. -/
  ended : (w.stack.session r).interrupted = true → talk r w'.trace = talk r w.trace
  /-- Any other session speaks. -/
  live : (w.stack.life r).listeners.members.Nodup → (w.stack.session r).interrupted = false →
    ∃ T, talk r w'.trace = talk r w.trace ++ T ∧ Speech r (w'.stack.life r) T ∧
      ∀ l, promised r l T = delivered r l T

namespace Telling

variable {w w₁ w₂ w' : World E}

/-- Something that adds nothing to the talk of a session and does not end it. -/
theorem silent (hgrows : w.Grows w')
    (hnodup : (w.stack.life r).listeners.members.Nodup →
      (w'.stack.life r).listeners.members.Nodup)
    (hended : (w.stack.session r).interrupted = false →
      (w'.stack.session r).interrupted = false)
    (htalk : talk r w'.trace = talk r w.trace) : Telling r w w' :=
  ⟨hgrows, hnodup, fun _ => htalk, fun _ hi =>
    ⟨[], by simp [htalk], .nil (hended hi), fun _ => rfl⟩⟩

theorem trans (h : Telling r w w₁) (h' : Telling r w₁ w₂) : Telling r w w₂ where
  grows := h.grows.trans h'.grows
  nodup hn := h'.nodup (h.nodup hn)
  ended hi := (h'.ended (h.grows.interrupted hi)).trans (h.ended hi)
  live hn hi := by
    obtain ⟨T, hT, hspeech, hkept⟩ := h.live hn hi
    cases hi₁ : (w₁.stack.session r).interrupted with
    | true => exact ⟨T, (h'.ended hi₁).trans hT, hspeech.later hi₁ h'.grows, hkept⟩
    | false =>
      -- the session lives on, so what it has told so far is chatter
      obtain ⟨T', hT', hspeech', hkept'⟩ := h'.live (h.nodup hn) hi₁
      refine ⟨T ++ T', by rw [hT', hT, List.append_assoc], ?_, fun l => ?_⟩
      · exact hspeech'.chatter_append (hspeech.chatter hi₁)
      · rw [promised_append, delivered_append, hkept, hkept']

/-- What leaves a session alone adds nothing to its talk. -/
theorem ofSpares (h : w.Spares r w') : Telling r w w' := by
  obtain ⟨T, hT, habout⟩ := h.trace
  have hended := congrArg Life.ended h.life
  refine silent h.grows (fun hn => h.life ▸ hn) (fun hi => hended.trans hi) ?_
  have hsilent : talk r T = [] := talk_eq_nil fun e he => Event.isTalk_of_not_isAbout (habout e he)
  rw [hT, talk_append, hsilent, List.append_nil]

/-- An event that does not belong to the talk. -/
theorem emit (w : World E) {e : Event E.Note} (he : e.isTalk r = false) :
    Telling r w (w.emit e) := by
  refine silent (.emit w e) id id ?_
  rw [World.emit_trace, talk_append, talk_of_not_isTalk he, List.append_nil]

theorem talk_interrupting (hi : (w.stack.session r).interrupted = false) :
    talk r (w.interrupting r).trace = talk r w.trace ++ [.interrupted r] := by
  rw [World.interrupting, if_neg (by simp [hi])]
  simp [talk, Event.isTalk]

/-- A session is interrupted without a word. -/
theorem interrupting (hr : r < w.stack.sessions.size) : Telling r w (w.interrupting r) where
  grows := w.grows_interrupting r
  nodup hn := by rwa [World.life_interrupting hr]
  ended hi := by rw [World.interrupting_of_interrupted hi]
  live _ hi := by
    refine ⟨[.interrupted r], talk_interrupting hi, .ofFarewell ?_ .silent, fun _ => by
      simp [promised, delivered, talk, Event.isTalk, Event.promises, Event.delivers]⟩
    rw [World.life_interrupting hr]

/-- The making of the session. -/
theorem ofMade {file : Bool} (h : w.Made r file w') : Telling r w w' := by
  obtain ⟨T, hT, hmaking⟩ := h.trace
  refine silent h.grows (fun _ => h.nodup_listeners) (fun _ => h.isNew.interrupted) ?_
  have hsilent : talk r T = [] := by
    refine talk_eq_nil fun e he => ?_
    have hmade := hmaking e he
    cases e with
    | log level line => rfl
    | transfer q number movement content icon => rfl
    | _ => exact absurd hmade not_false
  rw [hT, talk_append, hsilent, List.append_nil]

/-! ### Fan-outs -/

/-- While the listeners of an interrupted session are called, nothing but the calls is
added. -/
theorem calls_of_interrupted {contact : Contact} {c : Callback} {ls : List Listener}
    (h : Calls (Telling r) r contact c ls w w') (hi : (w.stack.session r).interrupted = true) :
    talk r w'.trace = talk r w.trace ++ callbacks r contact c ls := by
  induction ls generalizing w with
  | nil => rw [h]; simp [callbacks]
  | cons l ls ih =>
    obtain ⟨w₁, h₁, h₂⟩ := h
    rw [ih h₂ (h₁.grows.interrupted hi), h₁.ended hi, World.emit_trace, talk_append]
    simp [talk, Event.isTalk, callbacks]

/-- While listeners are called for something that is not the end, the session may end;
what is added keeps the promises made in it and calls all the listeners. -/
theorem calls {contact : Contact} {c : Callback} {ls : List Listener}
    (h : Calls (Telling r) r contact c ls w w') (hc : c.isTerminal = false)
    (hn : (w.stack.life r).listeners.members.Nodup)
    (hi : (w.stack.session r).interrupted = false) :
    ∃ T, talk r w'.trace = talk r w.trace ++ T ∧ Speech r (w'.stack.life r) T ∧
      ∀ l, promised r l T + ls.count l = delivered r l T := by
  induction ls generalizing w with
  | nil =>
    rw [show w' = w from h]
    exact ⟨[], by simp, .nil hi, fun _ => rfl⟩
  | cons l ls ih =>
    obtain ⟨w₁, h₁, h₂⟩ := h
    obtain ⟨T₁, hT₁, hspeech₁, hkept₁⟩ := h₁.live hn hi
    rw [World.emit_trace, talk_append, talk_of_isTalk (by simp [Event.isTalk])] at hT₁
    have hcall : ∀ e ∈ [(.callback r l contact c : Event E.Note)], e.IsChatter r := by
      simp [Event.IsChatter, hc]
    cases hi₁ : (w₁.stack.session r).interrupted with
    | true =>
      -- the session has ended meanwhile, and the other listeners are still called
      have hgrows : w₁.Grows w' := Calls.grows (fun hw => hw.grows) h₂
      refine ⟨[.callback r l contact c] ++ (T₁ ++ callbacks r contact c ls), ?_, ?_, fun m => ?_⟩
      · rw [calls_of_interrupted h₂ hi₁, hT₁]
        simp
      · have hecho : ∀ e ∈ (callbacks r contact c ls : List (Event E.Note)), e.IsEcho r := by
          simp [callbacks, Event.IsEcho, hc]
        exact ((hspeech₁.append_echo hi₁ hecho).chatter_append hcall).later hi₁ hgrows
      · rw [promised_append, promised_append, delivered_append, delivered_append, hkept₁,
          promised_callbacks, delivered_callbacks]
        have hcalled := called_first (ν := E.Note) r l m contact c ls
        omega
    | false =>
      obtain ⟨T₂, hT₂, hspeech₂, hkept₂⟩ := ih h₂ (h₁.nodup hn) hi₁
      refine ⟨[.callback r l contact c] ++ (T₁ ++ T₂), ?_, ?_, fun m => ?_⟩
      · rw [hT₂, hT₁]
        simp
      · exact (hspeech₂.chatter_append (hspeech₁.chatter hi₁)).chatter_append hcall
      · rw [promised_append, promised_append, delivered_append, delivered_append, hkept₁, ← hkept₂]
        have hcalled := called_first (ν := E.Note) r l m contact c ls
        omega

theorem nodup_calls {contact : Contact} {c : Callback} {ls : List Listener}
    (h : Calls (Telling r) r contact c ls w w')
    (hn : (w.stack.life r).listeners.members.Nodup) :
    (w'.stack.life r).listeners.members.Nodup := by
  induction ls generalizing w with
  | nil => exact h ▸ hn
  | cons l ls ih =>
    obtain ⟨w₁, h₁, h₂⟩ := h
    exact ih h₂ (h₁.nodup hn)

/-- The listeners are told of something that is not the end. -/
theorem tell {c : Callback} (h : Fan (Telling r) r c w w') (hc : c.isTerminal = false)
    (hi : (w.stack.session r).interrupted = false) : Telling r w w' where
  grows := h.grows fun hw => hw.grows
  nodup hn := nodup_calls h hn
  ended hi' := absurd hi' (by simp [hi])
  live hn _ := by
    obtain ⟨T, hT, hspeech, hkept⟩ := calls h hc hn hi
    rw [World.emit_trace, talk_append, talk_of_isTalk (by simp [Event.isTalk])] at hT
    refine ⟨.fanout r c (w.stack.transfer r).listeners.members :: T, by simp [hT], ?_, fun l => ?_⟩
    · exact hspeech.chatter_append (T := [_]) (by simp [Event.IsChatter, hc])
    · rw [← List.singleton_append, promised_append, delivered_append, promised_fanout,
        delivered_fanout, Nat.zero_add, ← hkept l, Nat.add_comm]

/-- The end is claimed and told. -/
theorem finish {e : Ending} {w₁ w₂ w₃ : World E} (hr : r < w.stack.sessions.size)
    (hi : (w.stack.session r).interrupted = false)
    (h₁ : Telling r (w.claiming r e) w₁)
    (h₂ : Fan (Telling r) r (e.callback (w₁.stack.transfer r)) w₁ w₂) (h₃ : Telling r w₂ w₃)
    (h₄ : Telling r (w₃.leaving r) w') : Telling r w w' := by
  have hi₀ : ((w.claiming r e).stack.session r).interrupted = true :=
    World.interrupted_interrupting hr
  have hi₁ := h₁.grows.interrupted hi₀
  have hi₂ := (h₂.grows fun hw => hw.grows).interrupted hi₁
  -- whatever follows on the fan-out is silent
  have hrest : Telling r w₂ w' := h₃.trans (.trans (ofSpares (.leaving _ r)) h₄)
  have hgrows : w₁.Grows w' := .trans (h₂.grows fun hw => hw.grows) hrest.grows
  have hlife : (w.claiming r e).stack.life r = { w.stack.life r with ended := true } :=
    World.life_interrupting hr
  refine ⟨(w.grows_claiming r e).trans (h₁.grows.trans hgrows), fun hn => ?_, fun hi' => ?_,
    fun hn _ => ?_⟩
  · exact hrest.nodup (nodup_calls h₂ (h₁.nodup (hlife ▸ hn)))
  · exact absurd hi' (by simp [hi])
  · have hls := h₁.nodup (hlife ▸ hn)
    have hr₁ := World.Grows.lt_size_of_interrupted hi₁
    have hfarewell := Farewell.told (ν := E.Note) (r := r) (x := w'.stack.life r) e _ hls
    rw [Stack.life_terms, hgrows.terms_of_lt hr₁, ← Ending.callback_eq, Stack.life_contact,
      (hgrows.ages r hr₁).contact] at hfarewell
    refine ⟨_, ?_, .ofFarewell (hgrows.interrupted hi₁) hfarewell, hfarewell.kept⟩
    rw [hrest.ended hi₂, calls_of_interrupted h₂ hi₁, World.emit_trace, talk_append, h₁.ended hi₀,
      World.claiming, World.emit_trace, talk_append, talk_interrupting hi,
      talk_of_isTalk (by simp [Event.isTalk]), talk_of_isTalk (by simp [Event.isTalk])]
    simp

/-- A change of the file part that attaches no listener twice. -/
theorem updateTransfer (hr : w.stack.isTransfer r = true) {f : Transfer → Transfer}
    (hterms : ∀ t, (f t).terms = t.terms)
    (hf : (w.stack.transfer r).listeners.members.Nodup →
      (f (w.stack.transfer r)).listeners.members.Nodup) :
    Telling r w (w.change (·.updateTransfer r f)) := by
  refine silent (.updateTransfer w r hterms) (fun hn => ?_) (fun hi => ?_) rfl
  · rw [World.life_updateTransfer hr]
    exact hf hn
  · rwa [World.change_stack, Stack.interrupted_updateTransfer]

/-- The control has started the transfer. -/
theorem begun (w : World E) (n : Nat) :
    Telling r w ((w.emit (.controlDone r n .start true)).change
      (·.updateTransfer r fun t => { t with begun := true })) := by
  have hlisteners : ∀ w : World E, ((w.change (·.updateTransfer r fun t =>
      { t with begun := true })).stack.transfer r).listeners = (w.stack.transfer r).listeners :=
    fun w => Stack.apply_transfer_updateTransfer Transfer.listeners fun _ => rfl
  refine .trans (.emit w rfl)
    (silent (.updateTransfer _ r fun _ => rfl) (fun hn => ?_) (fun hi => ?_) rfl)
  · rwa [Stack.life_listeners, hlisteners]
  · rwa [World.change_stack, Stack.interrupted_updateTransfer]

/-- Data begins to flow. -/
theorem establishing (hr : w.stack.isTransfer r = true) : Telling r w (w.establishing r) := by
  have hupdate : Telling r w
      (w.change (·.updateTransfer r fun t => { t with phase := .established })) :=
    updateTransfer hr (fun _ => rfl) id
  exact hupdate.trans (.trans (.emit _ rfl) (.emit _ rfl))

/-- What comes of an operation adds to the talk of the session. -/
theorem ofCourse {t : Turn} (h : Course (Telling r) (Telling r) r t w w')
    (hr : w.stack.isTransfer r = true) : Telling r w w' := by
  induction h with
  | logged level line _ ih => exact .trans (.emit _ rfl) (ih hr)
  | nothing hw => exact hw
  | tell c hi hc hfan => exact tell hfan hc hi
  | establish hi _ hfan =>
    have hended := congrArg Life.ended (World.life_establishing hr)
    exact .trans (establishing hr) (tell hfan rfl (hended.trans hi))
  | finish e hi h₁ h₂ h₃ h₄ =>
    exact finish (Stack.lt_size_of_isTransfer hr) hi h₁ h₂ h₃ h₄
  | close h₁ h₂ =>
    refine .trans (interrupting (Stack.lt_size_of_isTransfer hr)) (h₁.trans ?_)
    exact .trans (ofSpares (.leaving _ r)) h₂
  | lasting client time _ _ hw =>
    exact .trans (ofSpares (.withClient _ client)) (.trans (.emit _ (by rfl)) hw)
  | expired client time _ _ _ h' ih =>
    refine .trans (ofSpares (.withClient _ client)) (.trans ?_ (.trans (ih hr) h'))
    exact .emit _ rfl
  | attach w l => exact updateTransfer hr (fun _ => rfl) fun hn => ListenerSet.nodup_add hn l
  | detach w l => exact updateTransfer hr (fun _ => rfl) fun hn => ListenerSet.nodup_remove hn l

/-- **Whatever a stack does, it only adds to the talk of a session.** -/
theorem sessionLaws {N : Handler E} (h : ∀ w op, Telling r w ((N op).run w).2) :
    SessionLaws N (Telling r) (Telling r) r := by
  have hsteady : Steady N (Telling r) := {
    refl := fun w => ofSpares (.refl w)
    trans := trans
    log := fun w level line => .emit w rfl
    note := fun w n => .emit w rfl
    client := fun w c => ofSpares (.withClient w c)
    nested := h }
  exact {
    hsteady with
    grows := fun hw => hw.grows
    spared := ofSpares
    begun := begun
    heard := fun hw => hw.grows
    listener := fun l c w => hsteady.play _ w
    thrown := fun line hw => hw.trans (.emit _ rfl)
    ignored := fun op w _ => .emit w rfl
    turn := fun op w w' hr hw => .trans (.emit w rfl) (ofCourse hw hr)
    interrupt := fun hr => .trans (.emit _ rfl) (interrupting (Stack.lt_size_of_isTransfer hr))
    interruptPlain := fun hr _ => interrupting hr
    make := ofMade }

/-- Whatever a program of the client does, it only adds to the talk of a session. -/
theorem run {E : Environment} (depth : Nat) {α : Type} (p : Program E.State E.Note α)
    (w : World E) (r : Ref) : Telling r w ((run E depth p).run w).2 :=
  Laws.run (fun w => ofSpares (.refl w)) (fun _ h => (sessionLaws h).laws) depth p w

end Telling

/-- **The talk of a session in a run from the start is a speech**, and every promise in
it is kept. -/
theorem speech_run {E : Environment} (settings : Settings) (client : E.State) (depth : Nat)
    {α : Type} (p : Program E.State E.Note α) (r : Ref) :
    let w := ((run E depth p).run (.start settings client)).2
    Speech r (w.stack.life r) (talk r w.trace) ∧
      ∀ l, promised r l w.trace = delivered r l w.trace := by
  intro w
  have hrun : Telling r (.start settings client) w := .run depth p _ r
  obtain ⟨T, hT, hspeech, hkept⟩ := hrun.live List.nodup_nil rfl
  have htalk : talk r w.trace = T := hT
  refine ⟨htalk ▸ hspeech, fun l => ?_⟩
  have hidem : talk r (talk r w.trace) = talk r w.trace := by simp [talk]
  have hl := hkept l
  rwa [← htalk, promised, delivered, hidem] at hl

end FileSharing
