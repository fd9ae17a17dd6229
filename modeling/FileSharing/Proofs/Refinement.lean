import FileSharing.Proofs.Reading

/-!
# Sessions and the machine

A session keeps the contract that the machine of `Life` is, as long as its own
listeners leave sessions alone while they are being called; they may begin or cease
to listen, and they may throw.  All others, the listeners of other sessions among
them, may do as they please.

The machine need not be idle while something else happens: between the claim of an
end and the fan-out for it a control is called, and that may ask for anything.  But
then the session has ended, so the machine is asked for nothing more.

## Main definitions

* `Op.IsListening` — the operations that begin or cease to listen.
* `World.Reads` — the machine reads what happens between two worlds.
* `World.Follows` — a session follows the machine between two worlds.

## Main results

* `follows_run` — **every run of the stack is a run of the machine.**
-/

namespace FileSharing

variable {E : Environment} {N : Handler E} {r s : Ref}

/-! ### Reading what happens -/

/-- Between two worlds the machine reads what has happened, and this takes it from one
state to another. -/
def World.Reads (r : Ref) (w w' : World E) (y y' : Life × Task) : Prop :=
  ∃ T, w'.trace = w.trace ++ T ∧ Life.run r y T = some y'

namespace World.Reads

variable {w w₁ w₂ : World E} {y y₁ y₂ : Life × Task}

theorem refl (w : World E) (y : Life × Task) : w.Reads r w y y := ⟨[], by simp, rfl⟩

theorem trans (h : w.Reads r w₁ y y₁) (h' : w₁.Reads r w₂ y₁ y₂) : w.Reads r w₂ y y₂ := by
  obtain ⟨T, hT, hrun⟩ := h
  obtain ⟨T', hT', hrun'⟩ := h'
  refine ⟨T ++ T', by simp [hT, hT'], ?_⟩
  rw [Life.run_append, hrun, Option.bind_some, hrun']

/-- The machine reads one event. -/
theorem emit (w : World E) {e : Event E.Note} (h : Life.step r y e = some y₁) :
    w.Reads r (w.emit e) y y₁ := by
  refine ⟨[e], rfl, ?_⟩
  rw [Life.run_cons, h]
  rfl

/-- Where a session is left alone, there is nothing to read. -/
theorem ofSpares (h : w.Spares r w₁) (y : Life × Task) : w.Reads r w₁ y y := by
  obtain ⟨T, hT, habout⟩ := h.trace
  exact ⟨T, hT, Life.run_of_not_isAbout habout y⟩

/-- What does not show in the trace is not read. -/
theorem change (h : w.Reads r w₁ y y₁) (f : Stack → Stack) : w.Reads r (w₁.change f) y y₁ := h

theorem interrupting (w : World E) (y : Life × Task) : w.Reads r (w.interrupting r) y y := by
  unfold World.interrupting
  split
  · exact .refl w y
  · exact .trans (.emit (w.change _) rfl) (.emit _ rfl)

theorem claiming (w : World E) (e : Ending) (y : Life × Task) :
    w.Reads r (w.claiming r e) y y :=
  (interrupting w y).trans (.emit _ rfl)

theorem establishing (w : World E) (y : Life × Task) : w.Reads r (w.establishing r) y y :=
  .trans (.emit (w.change _) rfl) (.emit _ rfl)

end World.Reads

/-! ### Following the machine -/

/-- What a session may owe its listeners while something happens that is not a
callback to one of them: nothing, or else the word that it has ended. -/
def Life.Calm (x : Life) (task : Task) : Prop :=
  task = .idle ∨ x.ended = true ∧ ∃ c, task = .due c

/-- Between two worlds a session follows the machine, whatever it owes of what `P`
allows, and owes the same afterwards. -/
structure World.Follows (r : Ref) (P : Life → Task → Prop) (w w' : World E) : Prop where
  grows : w.Grows w'
  /-- The machine reads what has happened. -/
  reads : w.stack.isTransfer r = true → ∀ task, P (w.stack.life r) task →
    w.Reads r w' (w.stack.life r, task) (w'.stack.life r, task)

/-- Whether what a session may owe is allowed for longer than it lives. -/
def Task.Lasts (P : Life → Task → Prop) : Prop :=
  ∀ (x y : Life) (task : Task), (x.ended = true → y.ended = true) → P x task → P y task

theorem Life.Calm.lasts : Task.Lasts Life.Calm := by
  rintro x y task h (hidle | ⟨hended, hdue⟩)
  · exact .inl hidle
  · exact .inr ⟨h hended, hdue⟩

theorem Life.Calm.idle (x : Life) : x.Calm .idle := .inl rfl

theorem Life.Calm.eq_idle {x : Life} {task : Task} (h : x.Calm task) (hx : x.ended = false) :
    task = .idle := by
  rcases h with hidle | ⟨hended, -⟩
  · exact hidle
  · exact absurd hended (by simp [hx])

namespace World.Follows

variable {P : Life → Task → Prop} {w w₁ w₂ : World E}

theorem trans (hP : Task.Lasts P) (h : w.Follows r P w₁) (h' : w₁.Follows r P w₂) :
    w.Follows r P w₂ := by
  refine ⟨h.grows.trans h'.grows, fun hr task htask => ?_⟩
  have htask₁ := hP _ (w₁.stack.life r) task h.grows.interrupted htask
  exact (h.reads hr task htask).trans (h'.reads (h.grows.isTransfer hr) task htask₁)

theorem ofSpares (h : w.Spares r w₁) : w.Follows r P w₁ := by
  refine ⟨h.grows, fun _ task _ => ?_⟩
  rw [h.life]
  exact .ofSpares h _

/-- Only the session of a file transfer follows the machine. -/
theorem ofPlain (h : w.Grows w₁) (hr : w.stack.isTransfer r = false) : w.Follows r P w₁ :=
  ⟨h, fun hr' => absurd hr' (by simp [hr])⟩

/-- The control has started the transfer. -/
theorem begun (w : World E) (n : Nat) :
    w.Follows r P ((w.emit (.controlDone r n .start true)).change
      (·.updateTransfer r fun t => { t with begun := true })) := by
  refine ⟨(World.Grows.emit w _).trans (.updateTransfer _ r fun _ => rfl), fun hr task _ => ?_⟩
  rw [World.life_updateTransfer (w := w.emit _) hr]
  exact .change (.emit w (by rw [Life.step, if_pos rfl]; rfl)) _

end World.Follows

/-! ### Courses -/

variable {w w' : World E} {c : Callback}

/-- The listeners are called one after another. -/
theorem reads_calls {ls : List Listener}
    (h : Calls (World.Follows r fun _ _ => True) r (w.stack.life r).contact c ls w w')
    (hr : w.stack.isTransfer r = true) :
    w.Reads r w' (w.stack.life r, .rest c ls) (w'.stack.life r, .idle) := by
  induction ls generalizing w with
  | nil =>
    obtain rfl : w' = w := h
    exact .refl _ _
  | cons l ls ih =>
    obtain ⟨w₁, h₁, h₂⟩ := h
    have hcall : w.Reads r (w.emit (.callback r l (w.stack.life r).contact c))
        (w.stack.life r, .rest c (l :: ls)) (w.stack.life r, .rest c ls) :=
      .emit w (by simp [Life.step, Task.rest])
    have hcontact : (w₁.stack.life r).contact = (w.stack.life r).contact :=
      (h₁.grows.ages r (Stack.lt_size_of_isTransfer hr)).contact
    refine hcall.trans ((h₁.reads hr _ trivial).trans (ih ?_ (h₁.grows.isTransfer hr)))
    rwa [hcontact]

/-- The listeners are told what is due. -/
theorem reads_fan (h : Fan (World.Follows r fun _ _ => True) r c w w')
    (hr : w.stack.isTransfer r = true) :
    w.Reads r w' (w.stack.life r, .due c) (w'.stack.life r, .idle) := by
  have hstep : Life.step r (w.stack.life r, .due c)
      (.fanout r c (w.stack.transfer r).listeners.members : Event E.Note)
        = some (w.stack.life r, .rest c (w.stack.transfer r).listeners.members) := by
    simp [Life.step]
  exact .trans (.emit w hstep) (reads_calls h hr)

/-- A course of the session is what the machine takes it for. -/
theorem reads_course {t : Turn}
    (h : Course (World.Follows r Life.Calm) (World.Follows r fun _ _ => True) r t w w')
    (hr : w.stack.isTransfer r = true) {task : Task} (htask : (w.stack.life r).Calm task) :
    ∃ y, (w.stack.life r).take task t = some y ∧ w.Reads r w' y (w'.stack.life r, task) := by
  induction h generalizing task with
  | logged level line h ih =>
    obtain ⟨y, htake, hreads⟩ := ih hr htask
    exact ⟨y, htake, .trans (.emit _ rfl) hreads⟩
  | nothing h => exact ⟨_, rfl, h.reads hr task htask⟩
  | @tell w w' c hi hc h =>
    obtain rfl := htask.eq_idle hi
    exact ⟨_, rfl, reads_fan h hr⟩
  | @establish w w' hi hp h =>
    obtain rfl := htask.eq_idle hi
    refine ⟨_, rfl, ?_⟩
    rw [← World.life_establishing hr]
    have hr' := (w.grows_establishing r).isTransfer hr
    exact .trans (.establishing w _) (reads_fan h hr')
  | @finish w w₁ w₂ w₃ w' e hi h₁ h₂ h₃ h₄ =>
    obtain rfl := htask.eq_idle hi
    have hclaim := w.grows_claiming r e
    have hended : (w.claiming r e).stack.life r = { w.stack.life r with ended := true } :=
      World.life_interrupting (Stack.lt_size_of_isTransfer hr)
    have hcallback : e.callback (w₁.stack.transfer r) = (w.stack.life r).terms.callback e := by
      rw [Ending.callback_eq, (hclaim.trans h₁.grows).terms hr, Stack.life_terms]
    rw [hcallback] at h₂
    have hr₀ := hclaim.isTransfer hr
    have hr₁ := h₁.grows.isTransfer hr₀
    have hr₂ := (h₂.grows fun h => h.grows).isTransfer hr₁
    -- the control may ask for anything once the end is claimed, but the end is all that is owed
    have hcalm : ((w.claiming r e).stack.life r).Calm (.due ((w.stack.life r).terms.callback e)) :=
      .inr ⟨by rw [hended], _, rfl⟩
    have hrest := h₃.trans Life.Calm.lasts (.trans Life.Calm.lasts (.ofSpares (.leaving _ r)) h₄)
    refine ⟨_, rfl, ?_⟩
    rw [← hended]
    exact .trans (.claiming w e _) ((h₁.reads hr₀ _ hcalm).trans
      ((reads_fan h₂ hr₁).trans (hrest.reads hr₂ _ (.idle _))))
  | @close w w₁ w' h₁ h₂ =>
    have hended := World.life_interrupting (w := w) (Stack.lt_size_of_isTransfer hr)
    have hcalm : ((w.interrupting r).stack.life r).Calm task :=
      Life.Calm.lasts _ _ _ (fun _ => by rw [hended]) htask
    have hrest := h₁.trans Life.Calm.lasts (.trans Life.Calm.lasts (.ofSpares (.leaving _ r)) h₂)
    refine ⟨_, rfl, ?_⟩
    rw [← hended]
    exact .trans (.interrupting w _)
      (hrest.reads ((w.grows_interrupting r).isTransfer hr) _ hcalm)
  | @lasting w w' client time hi ht h =>
    obtain rfl := htask.eq_idle hi
    have hclock : Life.step r (w.stack.life r, .compare) (.clock r time : Event E.Note)
        = some (w.stack.life r, .idle) := by
      rw [Life.step, if_pos rfl, if_pos rfl, Life.compared, Stack.life_terms, ht]
      rfl
    exact ⟨_, rfl, .trans (.emit (w.withClient client) hclock) (h.reads hr _ (.idle _))⟩
  | @expired w w' w'' client time hi ht h h' ih =>
    obtain rfl := htask.eq_idle hi
    obtain ⟨y, htake, hreads⟩ := ih hr (.idle _)
    -- reading a time after the expiry is what takes the machine to the end
    have hclock : Life.step r (w.stack.life r, .compare) (.clock r time : Event E.Note)
        = some y := by
      rw [Life.step, if_pos rfl, if_pos rfl, Life.compared, Stack.life_terms, ht, ← htake]
      rfl
    have hr' := (h.grows (fun h => h.grows) fun h => h.grows).isTransfer hr
    exact ⟨_, rfl, .trans (.emit (w.withClient client) hclock)
      (hreads.trans (h'.reads hr' _ (.idle _)))⟩
  | attach w l =>
    refine ⟨_, rfl, ?_⟩
    rw [World.life_updateTransfer hr]
    exact .change (.refl w _) _
  | detach w l =>
    refine ⟨_, rfl, ?_⟩
    rw [World.life_updateTransfer hr]
    exact .change (.refl w _) _

/-! ### Listeners that leave sessions alone -/

/-- Whether an operation only begins or ceases to listen. -/
def Op.IsListening : Op → Prop
  | .transfer _ op => op.IsListening
  | .service (.addListener _) => True
  | .service (.removeListener _) => True
  | _ => False

open Act

namespace World.Follows

variable {P : Life → Task → Prop}

/-- A change of who listens keeps to the machine in any state. -/
theorem relisten {op : TransferOp} {f : ListenerSet Listener → ListenerSet Listener}
    (hop : ∀ (x : Life) task,
      x.take task (x.turn op) = some ({ x with listeners := f x.listeners }, task)) (w : World E) :
    w.Follows r P ((w.emit (.asked (.transfer s op))).change (·.updateTransfer s fun t =>
      { t with listeners := f (w.stack.transfer s).listeners })) := by
  by_cases hs : s = r
  · subst hs
    refine ⟨(World.Grows.emit w _).trans (.updateTransfer _ s fun _ => rfl), fun hr task _ => ?_⟩
    rw [World.life_updateTransfer (w := w.emit _) hr]
    refine .change (.emit w ?_) _
    rw [Life.step, Life.reaction, if_pos rfl, hop]
    rfl
  · refine .ofSpares (.trans (.emit w (by exact hs)) (.updateTransfer _ (fun _ _ => rfl) ?_))
    exact fun h => absurd h hs

/-- Beginning or ceasing to listen keeps to the machine in any state. -/
theorem askTransfer {op : TransferOp} (hop : op.IsListening) (w : World E) :
    w.Follows r P (after N (Act.askTransfer s op) w) := by
  cases op with
  | addListener l => exact relisten (f := fun ls => (ls.add l).2) (fun _ _ => rfl) w
  | removeListener l => exact relisten (f := fun ls => (ls.remove l).2) (fun _ _ => rfl) w
  | _ => exact absurd hop not_false

theorem askEach (hP : Task.Lasts P) {op : TransferOp} (hop : op.IsListening) (rs : List Ref)
    (w : World E) : w.Follows r P (after N (Act.askEach op rs) w) := by
  induction rs generalizing w with
  | nil => exact .ofSpares (.refl w)
  | cons s rs ih => exact (askTransfer hop w).trans hP (ih _)

/-- An operation that only begins or ceases to listen keeps to the machine in any
state. -/
theorem carryOut (hP : Task.Lasts P) {op : Op} (hop : op.IsListening) (w : World E) :
    w.Follows r P (after N (Act.carryOut op) w) := by
  cases op with
  | transfer s op =>
    have hask := askTransfer (N := N) (r := r) (s := s) (P := P) hop w
    rw [Act.carryOut, after_bind, after_emit, Act.perform, after_stack_bind]
    split
    · exact hask
    · next hs =>
      by_cases hsr : s = r
      · exact .ofPlain (.emit w _) (Bool.eq_false_iff.mpr (hsr ▸ hs))
      · exact .ofSpares (.emit w hsr)
  | service op =>
    rw [Act.carryOut, after_bind, after_emit, Act.perform]
    refine .trans hP (.ofSpares (.emit w (e := .asked (.service op)) not_false)) ?_
    cases op with
    | addListener l =>
      rw [Act.serve, after_bind, Act.addServiceListener, after_stack_bind]
      dsimp only
      split
      · have hop : (TransferOp.addListener l).IsListening := trivial
        have hlisteners := fun (w : World E) ls => ofSpares (r := r) (P := P)
          (.change w (f := fun s => { s with listeners := ls }) rfl)
        exact .trans hP (hlisteners _ _) (askEach hP hop _ _)
      · exact .ofSpares (.refl _)
    | removeListener l =>
      rw [Act.serve, after_bind, Act.removeServiceListener, after_stack_bind]
      dsimp only
      split
      · have hop : (TransferOp.removeListener l).IsListening := trivial
        have hlisteners := fun (w : World E) ls => ofSpares (r := r) (P := P)
          (.change w (f := fun s => { s with listeners := ls }) rfl)
        exact .trans hP (hlisteners _ _) (askEach hP hop _ _)
      · exact .ofSpares (.refl _)
    | _ => exact absurd hop not_false
  | _ => exact absurd hop not_false

/-- **A session follows the machine along all that a stack does**, where its listeners
only begin or cease to listen. -/
theorem sessionLaws
    (hquiet : ∀ l c, (E.listener l r c).Asks Op.IsListening)
    (hN : ∀ (w : World E) op, w.Follows r Life.Calm ((N op).run w).2)
    (hlistening : ∀ (w : World E) (op : Op), op.IsListening →
      w.Follows r (fun _ _ => True) ((N op).run w).2) :
    SessionLaws N (World.Follows r Life.Calm) (World.Follows r fun _ _ => True) r where
  refl w := .ofSpares (.refl w)
  trans h h' := h.trans Life.Calm.lasts h'
  log w level line := .ofSpares (.emit w not_false)
  note w n := .ofSpares (.emit w not_false)
  client w c := .ofSpares (.withClient w c)
  nested := hN
  grows h := h.grows
  spared := ofSpares
  begun := begun
  heard h := h.grows
  listener l c w := by
    refine after_play_of_asks (hquiet l c) (fun w => .ofSpares (.refl w)) (fun h h' => ?_)
      (fun w n => .ofSpares (.emit w not_false)) (fun w c => .ofSpares (.withClient w c))
      hlistening w
    exact h.trans (fun _ _ _ _ _ => trivial) h'
  thrown line h := h.trans (fun _ _ _ _ _ => trivial) (.ofSpares (.emit _ not_false))
  ignored op {w} hr := .ofPlain (.emit w _) hr
  turn op {w w'} hr h := by
    have hgrows := h.grows (fun h => h.grows) fun h => h.grows
    refine ⟨.trans (.emit w _) hgrows, fun _ task htask => ?_⟩
    obtain ⟨y, htake, hreads⟩ := reads_course h hr htask
    have hstep : Life.step r (w.stack.life r, task) (.asked op : Event E.Note) = some y := htake
    exact .trans (.emit w hstep) hreads
  interrupt {w} hr := by
    refine ⟨(World.Grows.emit w _).trans (World.grows_interrupting _ r), fun _ task _ => ?_⟩
    rw [World.life_interrupting (w := w.emit _) (Stack.lt_size_of_isTransfer hr)]
    refine .trans (.emit w ?_) (.interrupting _ _)
    rw [Life.step, Life.reaction, if_pos rfl]
    rfl
  interruptPlain {w} _ hr := .ofPlain (w.grows_interrupting r) hr
  make {file w w'} h := by
    refine .ofPlain h.grows (Bool.eq_false_iff.mpr fun hr => ?_)
    exact Nat.lt_irrefl _ (h.fresh ▸ Stack.lt_size_of_isTransfer hr)

end World.Follows

/-! ### Runs -/

/-- Beginning or ceasing to listen keeps to the machine, however deep it is nested. -/
theorem follows_exec_of_isListening (depth : Nat) {op : Op} (hop : op.IsListening) (w : World E) :
    w.Follows r (fun _ _ => True) ((exec E depth op).run w).2 := by
  cases depth with
  | zero => exact .ofSpares (.refl w)
  | succ depth => exact .carryOut (fun _ _ _ _ _ => trivial) hop w

/-- An operation with its nested ones keeps to the machine. -/
theorem follows_exec (hquiet : ∀ l c, (E.listener l r c).Asks Op.IsListening) (depth : Nat) :
    ∀ w op, World.Follows r Life.Calm w ((exec E depth op).run w).2 := by
  induction depth with
  | zero => exact fun w _ => .ofSpares (.refl w)
  | succ depth ih =>
    have hlaws := World.Follows.sessionLaws hquiet ih
      fun w _ hop => follows_exec_of_isListening depth hop w
    exact fun w op => hlaws.laws.carryOut op w

/-- **Every run of the stack is a run of the machine**, as long as the listeners of the
session only begin or cease to listen while they are being called.  So the callbacks
are those that the fan-outs announce, each to all who listen at that time, and a
session that has ended makes none. -/
theorem follows_run (hquiet : ∀ l c, (E.listener l r c).Asks Op.IsListening) (depth : Nat)
    {α : Type} (p : Program E.State E.Note α) {w : World E} (hr : w.stack.isTransfer r = true) :
    let w' := ((run E depth p).run w).2
    ∃ T, w'.trace = w.trace ++ T ∧
      Life.run r (w.stack.life r, .idle) T = some (w'.stack.life r, .idle) ∧
      T.flatMap (Event.calls r) = T.flatMap (Event.announces r (w.stack.session r).contact) ∧
      ((w.stack.session r).interrupted = true →
        T.flatMap (Event.calls r) = [] ∧ (w'.stack.session r).interrupted = true ∧
          (w'.stack.transfer r).phase = (w.stack.transfer r).phase) := by
  have hlaws := World.Follows.sessionLaws hquiet (follows_exec hquiet depth)
    fun w _ hop => follows_exec_of_isListening depth hop w
  have hrun : w.Follows r Life.Calm ((run E depth p).run w).2 := hlaws.toSteady.play p w
  obtain ⟨T, hT, hread⟩ := hrun.reads hr .idle (.idle _)
  have hcalls : T.flatMap (Event.calls r) ++ []
      = [] ++ T.flatMap (Event.announces r (w.stack.session r).contact) :=
    (Life.callbacks_of_run hread).2
  rw [List.append_nil, List.nil_append] at hcalls
  refine ⟨T, hT, hread, hcalls, fun hi => ?_⟩
  obtain ⟨hended, hphase, hsilent⟩ := Life.silent_of_ended hi hread
  exact ⟨hsilent, hended, hphase⟩

/-- A listener that hears of one thing, ceases to listen, and throws. -/
def fickle (l : Listener) (r : Ref) (_ : Callback) : Program Unit Unit (Option Text) :=
  .call (.transfer r (.removeListener (some l))) fun _ => .done (some "enough")

/-- Listeners who cease to listen while they are being called are all called. -/
theorem follows_run_fickle :
    let w := ((run (.obliging fickle) 1 (beforeTwo (.done ()))).run (.start .default ())).2
    let w' := ((run (.obliging fickle) 2
      (.call (.transfer 0 (.engine .started)) fun _ => .done ())).run w).2
    ∃ T, w'.trace = w.trace ++ T ∧
      Life.run 0 (w.stack.life 0, .idle) T = some (w'.stack.life 0, .idle) ∧
      T.flatMap (Event.calls 0) = T.flatMap (Event.announces 0 (w.stack.session 0).contact) ∧
      ((w.stack.session 0).interrupted = true →
        T.flatMap (Event.calls 0) = [] ∧ (w'.stack.session 0).interrupted = true ∧
          (w'.stack.transfer 0).phase = (w.stack.transfer 0).phase) ∧
      T.flatMap (Event.calls 0) = callbacks 0 ⟨"+33612345678"⟩ .started [0, 1] ∧
      (w'.stack.transfer 0).listeners.members = [] := by
  intro w w'
  have hquiet : ∀ l c, ((Environment.obliging fickle).listener l 0 c).Asks Op.IsListening :=
    fun _ _ => ⟨trivial, fun _ => trivial⟩
  obtain ⟨T, hT, hrun, hcalls, hended⟩ := follows_run hquiet 2
    (.call (.transfer 0 (.engine .started)) fun _ => .done ()) (w := w) rfl
  have hsuffix : T = w'.trace.drop w.trace.length := by
    rw [show w'.trace = w.trace ++ T from hT, List.drop_left]
  refine ⟨T, hT, hrun, hcalls, hended, ?_, by decide +kernel⟩
  rw [hsuffix]
  rfl

end FileSharing
