import FileSharing.Proofs.Laws
import Mathlib.Logic.Function.Basic

/-!
# One session among all

Most of what happens in a stack leaves a given session alone: it has the same life
afterwards, and nothing has happened that is about it.  So a relation that is about
one session has to be examined only where that session has a part.

## Main definitions

* `Event.IsAbout` — the events that are about a session.
* `World.Spares` — between two worlds a session has been left alone.
* `SessionLaws` — that a relation holds along all that has to do with one session.

## Main results

* `SessionLaws.laws` — **what holds along all that has to do with one session holds
  along all that a stack does.**
-/

namespace FileSharing

variable {E : Environment}

/-! ### Being left alone -/

/-- Whether an operation is directed at a file transfer. -/
def Op.IsOn (r : Ref) : Op → Prop
  | .transfer s _ => s = r
  | .session s (.bye _) => s = r
  | .session s .interrupt => s = r
  | _ => False

/-- Whether an event is about what a session does for its listeners. -/
def Event.IsAbout {ν : Type} (r : Ref) : Event ν → Prop
  | .asked op => op.IsOn r
  | .fanout s _ _ => s = r
  | .callback s _ _ _ => s = r
  | .clock s _ => s = r
  | .controlDone s _ .start true => s = r
  | .interrupted s => s = r
  | .claimed s _ => s = r
  | .established s => s = r
  | _ => False

/-- Between two worlds a session has been left alone. -/
structure World.Spares (r : Ref) (w w' : World E) : Prop where
  grows : w.Grows w'
  /-- Its life is the same. -/
  life : w'.stack.life r = w.stack.life r
  /-- Nothing has happened that is about it. -/
  trace : ∃ T, w'.trace = w.trace ++ T ∧ ∀ e ∈ T, ¬e.IsAbout r

namespace World.Spares

variable {w w₁ w₂ : World E} {r s : Ref}

theorem refl (w : World E) : w.Spares r w := ⟨.refl w, rfl, [], by simp, by simp⟩

theorem trans (h : w.Spares r w₁) (h' : w₁.Spares r w₂) : w.Spares r w₂ := by
  obtain ⟨T, hT, habout⟩ := h.trace
  obtain ⟨T', hT', habout'⟩ := h'.trace
  refine ⟨h.grows.trans h'.grows, h'.life.trans h.life, T ++ T', by simp [hT, hT'], ?_⟩
  intro e he
  exact (List.mem_append.mp he).elim (habout e) (habout' e)

theorem emit (w : World E) {e : Event E.Note} (he : ¬e.IsAbout r) : w.Spares r (w.emit e) :=
  ⟨.emit w e, rfl, [e], rfl, by simpa using he⟩

theorem emitted (h : w.Spares r w₁) {e : Event E.Note} (he : ¬e.IsAbout r) :
    w.Spares r (w₁.emit e) :=
  h.trans (emit w₁ he)

theorem withClient (w : World E) (c : E.State) : w.Spares r (w.withClient c) :=
  ⟨.withClient w c, rfl, [], by simp, by simp⟩

/-- A change of anything but the sessions. -/
theorem change (w : World E) {f : Stack → Stack} (h : (f w.stack).sessions = w.stack.sessions) :
    w.Spares r (w.change f) :=
  ⟨.change w h, by simp [Stack.life, Stack.session, h], [], by simp, by simp⟩

/-- A change of a session that the listeners of `r` do not notice. -/
theorem update (w : World E) {f : Session → Session}
    (hages : (w.stack.session s).Ages (f (w.stack.session s)))
    (hlife : s = r → (f (w.stack.session s)).life = (w.stack.session s).life) :
    w.Spares r (w.change (·.update s f)) := by
  refine ⟨.update w s hages, ?_, [], by simp, by simp⟩
  rw [World.change_stack, Stack.life, Stack.life]
  by_cases hs : s = r
  · subst hs
    by_cases hsize : s < w.stack.sessions.size
    · rw [Stack.session_update_self hsize, hlife rfl]
    · have hsize' := Nat.not_lt.mp hsize
      rw [Stack.session_of_size_le hsize', Stack.session_of_size_le (by simpa using hsize')]
  · rw [Stack.session_update_of_ne (Ne.symm hs)]

/-- A change of a file part that the listeners of `r` do not notice. -/
theorem updateTransfer (w : World E) {f : Transfer → Transfer}
    (hterms : ∀ t ∈ (w.stack.session s).transfer, (f t).terms = t.terms)
    (hlife : s = r → ∀ t : Transfer, (f t).phase = t.phase ∧ (f t).begun = t.begun ∧
      (f t).listeners = t.listeners) :
    w.Spares r (w.change (·.updateTransfer s f)) := by
  refine update w (.ofTransfer _ hterms) fun hs => ?_
  cases ht : (w.stack.session s).transfer with
  | none => simp [Session.life, ht]
  | some t =>
    obtain ⟨hphase, hbegun, hlisteners⟩ := hlife hs t
    simp [Session.life, ht, hterms t ht, hphase, hbegun, hlisteners]

/-! ### What spares a session -/

theorem interrupting (w : World E) (hs : s ≠ r) : w.Spares r (w.interrupting s) := by
  unfold World.interrupting
  split
  · exact .refl w
  · refine .emitted (.emitted (.update w ?_ fun h => absurd h hs) (by exact hs)) not_false
    exact .interrupt _

theorem claiming (w : World E) (hs : s ≠ r) (e : Ending) : w.Spares r (w.claiming s e) :=
  (interrupting w hs).emitted hs

theorem establishing (w : World E) (hs : s ≠ r) : w.Spares r (w.establishing s) := by
  refine .emitted (.emitted (.updateTransfer w ?_ fun h => absurd h hs) (by exact hs)) not_false
  exact fun _ _ => rfl

theorem dismissing (w : World E) (id : Text) : w.Spares r (w.dismissing id) := by
  unfold World.dismissing
  split
  · dsimp only
    split
    · exact .emitted (.emitted (.change w rfl) (by exact not_false)) not_false
    · exact .emitted (.change w rfl) not_false
  · exact .refl w

/-- Leaving the registry is nothing that listeners would notice. -/
theorem leaving (w : World E) (s : Ref) : w.Spares r (w.leaving s) := by
  unfold World.leaving
  split
  · exact .refl w
  · refine .trans (.update w ?_ fun _ => rfl) (dismissing _ _)
    exact .leave _

theorem enrolling (w : World E) (s : Ref) : w.Spares r (w.enrolling s) :=
  .emitted (.emitted (.change w rfl) (by exact not_false)) not_false

/-- What a session does on the side leaves every session alone, except that a
transfer begins. -/
theorem ofMove {w w' : World E} (h : SessionMove s w w') :
    w.Spares r w' ∨ (s = r ∧ ∃ n, w' = (w.emit (.controlDone r n .start true)).change
      (·.updateTransfer r fun t => { t with begun := true })) := by
  cases h with
  | dialog d => exact .inl (.update w (.dialog _ _) fun _ => rfl)
  | request m => exact .inl (.emit w not_false)
  | response m => exact .inl (.emit w not_false)
  | media m => exact .inl (.emit w not_false)
  | control n call => exact .inl (.emit w not_false)
  | returned n call succeeded h =>
    refine .inl (.emit w ?_)
    cases call with
    | start =>
      cases succeeded with
      | true => exact absurd ⟨rfl, rfl⟩ h
      | false => exact not_false
    | _ => exact not_false
  | begun n =>
    by_cases hs : s = r
    · exact .inr ⟨hs, n, by rw [hs]⟩
    · refine .inl (.trans (.emit w (by exact hs)) (.updateTransfer _ ?_ fun h => absurd h hs))
      exact fun _ _ => rfl
  | delivered => exact .inl (.updateTransfer w (fun _ _ => rfl) fun _ _ => ⟨rfl, rfl, rfl⟩)
  | setClock c clock h =>
    exact .inl (.updateTransfer w (Stack.terms_setClock h clock) fun _ _ => ⟨rfl, rfl, rfl⟩)
  | refresh c => exact .inl (.emitted (.change w rfl) not_false)

theorem ofService {w w' : World E} (h : ServiceMove w w') : w.Spares r w' := by
  cases h with
  | response m => exact .emit w not_false
  | capabilities c cs h => exact .emitted (.change w rfl) not_false
  | markRead m => exact .emit w not_false
  | watched on => exact .change w rfl
  | settings f _ => exact .change w rfl

/-- The making of another session. -/
theorem ofMade {w w' : World E} {file : Bool} (h : w.Made s file w') (hs : s ≠ r) :
    w.Spares r w' := by
  obtain ⟨T, hT, hmaking⟩ := h.trace
  refine ⟨h.grows, by rw [Stack.life, Stack.life, h.others r hs.symm], T, hT, fun e he => ?_⟩
  have hmade := hmaking e he
  cases e with
  | log level line => exact not_false
  | transfer q number movement content icon => exact not_false
  | _ => exact absurd hmade not_false

end World.Spares

/-! ### What changes a life -/

namespace World

variable {w : World E} {r : Ref}

theorem life_interrupting (hr : r < w.stack.sessions.size) :
    (w.interrupting r).stack.life r = { w.stack.life r with ended := true } := by
  unfold interrupting
  split
  · next hi => rw [← hi]; rfl
  · rw [emit_stack, emit_stack, change_stack, Stack.life, Stack.session_update_self hr]
    rfl

/-- A change of a file part, as far as it matters for the life of the session. -/
theorem life_updateTransfer (hr : w.stack.isTransfer r = true) (f : Transfer → Transfer) :
    (w.change (·.updateTransfer r f)).stack.life r
      = { w.stack.life r with
          terms := (f (w.stack.transfer r)).terms
          phase := (f (w.stack.transfer r)).phase
          begun := (f (w.stack.transfer r)).begun
          listeners := (f (w.stack.transfer r)).listeners } := by
  have hsize := Stack.lt_size_of_isTransfer hr
  rw [Stack.isTransfer_eq, Option.isSome_iff_exists] at hr
  obtain ⟨t, ht⟩ := hr
  simp [Stack.life, Stack.updateTransfer_session_self hsize, Session.life, Stack.transfer, ht]

theorem life_establishing (hr : w.stack.isTransfer r = true) :
    (w.establishing r).stack.life r = { w.stack.life r with phase := .established } :=
  life_updateTransfer hr _

end World

/-! ### Laws about one session -/

/-- A relation between worlds holds along all that has to do with one session, where `L`
holds while one of its listeners is being called. -/
structure SessionLaws (N : Handler E) (R L : World E → World E → Prop) (r : Ref) : Prop
    extends Steady N R where
  grows : ∀ {w w'}, R w w' → w.Grows w'
  /-- The session is left alone. -/
  spared : ∀ {w w'}, w.Spares r w' → R w w'
  /-- The control has started the transfer. -/
  begun : ∀ w n, R w ((w.emit (.controlDone r n .start true)).change
    (·.updateTransfer r fun t => { t with begun := true }))
  heard : ∀ {w w'}, L w w' → w.Grows w'
  /-- A listener is being called. -/
  listener : ∀ l c w, L w (Act.after N (Act.play (E.listener l r c)) w)
  /-- The exception of a listener is logged. -/
  thrown : ∀ {w w'} line, L w w' → L w (w'.emit (.log .error line))
  /-- Something is asked of a session that is not there, or is plain. -/
  ignored : ∀ op {w}, w.stack.isTransfer r = false → R w (w.emit (.asked op))
  /-- Something is asked of the session. -/
  turn : ∀ op {w w'}, w.stack.isTransfer r = true →
    Course R L r ((w.stack.life r).reaction r op) (w.emit (.asked op)) w' → R w w'
  /-- The session is to be interrupted. -/
  interrupt : ∀ {w}, w.stack.isTransfer r = true →
    R w ((w.emit (.asked (.session r .interrupt))).interrupting r)
  /-- The session is interrupted while it is plain. -/
  interruptPlain : ∀ {w}, r < w.stack.sessions.size → w.stack.isTransfer r = false →
    R w (w.interrupting r)
  /-- The session is made. -/
  make : ∀ {file w w'}, w.Made r file w' → R w w'

namespace SessionLaws

variable {N : Handler E} {R L : World E → World E → Prop} {r s : Ref}

/-- What happens while listeners of another session are called. -/
theorem fan_elsewhere (h : SessionLaws N R L r) (hs : s ≠ r) {c : Callback} {w w' : World E}
    (hw : Fan R s c w w') : R w w' :=
  Fan.stays h.refl h.trans id (fun w _ => h.spared (.emit w (by exact hs)))
    (fun w _ _ => h.spared (.emit w (by exact hs))) hw

/-- A course of another session. -/
theorem course_elsewhere (h : SessionLaws N R L r) (hs : s ≠ r) {t : Turn} {w w' : World E}
    (hw : Course R R s t w w') : R w w' := by
  induction hw with
  | logged level line _ ih => exact h.trans (h.log _ level line) ih
  | nothing hw => exact hw
  | tell c _ _ hfan => exact h.fan_elsewhere hs hfan
  | establish _ _ hfan =>
    exact h.trans (h.spared (.establishing _ hs)) (h.fan_elsewhere hs hfan)
  | finish e _ h₁ h₂ h₃ h₄ =>
    have hclaim := h.trans (h.spared (.claiming _ hs e)) h₁
    have hleave := h.trans h₃ (h.trans (h.spared (.leaving _ s)) h₄)
    exact h.trans hclaim (h.trans (h.fan_elsewhere hs h₂) hleave)
  | close h₁ h₂ =>
    have hinterrupt := h.trans (h.spared (.interrupting _ hs)) h₁
    exact h.trans hinterrupt (h.trans (h.spared (.leaving _ s)) h₂)
  | lasting client time _ _ hw =>
    exact h.trans (h.client _ client) (h.trans (h.spared (.emit _ (by exact hs))) hw)
  | expired client time _ _ _ h' ih =>
    refine h.trans (h.client _ client) (h.trans (h.spared (.emit _ ?_)) (h.trans ih h'))
    exact hs
  | attach w l => exact h.spared (.updateTransfer w (fun _ _ => rfl) fun h => absurd h hs)
  | detach w l => exact h.spared (.updateTransfer w (fun _ _ => rfl) fun h => absurd h hs)

/-- What is asked for on the side is nothing to a session. -/
theorem asked (h : SessionLaws N R L r) (op : Op) {w : World E} (ha : op.IsAside w.stack) :
    R w (w.emit (.asked op)) := by
  by_cases hon : op.IsOn r
  · -- what is asked of a session on the side is asked of none, or of a plain one
    refine h.ignored op ?_
    cases op with
    | transfer s op => exact hon ▸ ha
    | session s op =>
      cases op with
      | bye m => exact hon ▸ ha
      | interrupt => exact hon ▸ ha
      | _ => exact absurd hon not_false
    | _ => exact absurd hon not_false
  · exact h.spared (.emit w hon)

/-- **What holds along all that has to do with one session holds along all that a stack
does.** -/
theorem laws (h : SessionLaws N R L r) : Laws N R (Function.update (fun _ => R) r L) where
  toSteady := h.toSteady
  grows := h.grows
  move hm := by
    rcases World.Spares.ofMove (r := r) hm with hw | ⟨-, n, rfl⟩
    · exact h.spared hw
    · exact h.begun _ n
  heard {s w w'} hw := by
    by_cases hs : s = r
    · subst hs
      exact h.heard (by simpa using hw)
    · exact h.grows (by simpa [hs] using hw)
  -- for the listeners of other sessions the two relations are one
  listener s l c w := by
    by_cases hs : s = r
    · subst hs
      simpa using h.listener l c w
    · simpa [hs] using h.toSteady.play (E.listener l s c) w
  thrown {s w w'} line hw := by
    by_cases hs : s = r
    · subst hs
      simpa using h.thrown line (by simpa using hw)
    · simpa [hs] using h.trans (by simpa [hs] using hw) (h.log w' .error line)
  service hw := h.spared (.ofService hw)
  listeners w _ := h.spared (.change w rfl)
  asked op {_} ha := h.asked op ha
  transfer {s} op {w w'} hr hw := by
    by_cases hs : s = r
    · subst hs
      refine h.turn (.transfer s op) hr ?_
      simpa [Life.reaction] using hw
    · rw [Function.update_of_ne hs] at hw
      have hasked := h.spared (.emit w (e := .asked (.transfer s op)) hs)
      exact h.trans hasked (h.course_elsewhere hs hw)
  bye {s m w w'} hr hw := by
    by_cases hs : s = r
    · subst hs
      refine h.turn (.session s (.bye m)) hr ?_
      simpa [Life.reaction] using hw
    · rw [Function.update_of_ne hs] at hw
      have hasked := h.spared (.emit w (e := .asked (.session s (.bye m))) hs)
      exact h.trans hasked (h.course_elsewhere hs hw)
  interrupt {s w} hr := by
    by_cases hs : s = r
    · subst hs
      exact h.interrupt hr
    · exact h.spared (.trans (.emit w (by exact hs)) (.interrupting _ hs))
  interruptPlain {s w} hr hplain := by
    by_cases hs : s = r
    · subst hs
      exact h.interruptPlain hr hplain
    · exact h.spared (.interrupting w hs)
  removePlain {s w w'} _ _ hw :=
    h.trans (h.spared (.trans (.emit w (by exact not_false)) (.leaving _ s))) hw
  register {s w} _ _ := h.spared (.trans (.emit w (by exact not_false)) (.enrolling _ s))
  unregister {id w w'} hw :=
    h.trans (h.spared (.trans (.emit w (by exact not_false)) (.dismissing _ id))) hw
  make {s file w w'} hw := by
    by_cases hs : s = r
    · subst hs
      exact h.make hw
    · exact h.spared (.ofMade hw hs)
  enter {s w w'} hw _ _ := by
    by_cases hs : s = r
    · subst hs
      exact h.trans (h.make hw) (h.spared (.enrolling _ _))
    · exact h.spared (.trans (.ofMade hw hs) (.enrolling _ _))

end SessionLaws

end FileSharing
