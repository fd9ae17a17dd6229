import FileSharing.Proofs.Spared

/-!
# Runs of the machine

The machine of `Life` is a contract: it says which listeners a session calls, with
what, and when.  Here is what every trace has in common that the machine accepts.

## Main definitions

* `Life.Reading` — what the machine does when it reads an event.
* `Event.calls`, `Event.announces` — the callbacks that an event is, and those that
  a fan-out is about to make.

## Main results

* `Life.callbacks_of_run` — **the callbacks are those that the fan-outs announce.**
* `Life.silent_of_ended` — **a session that has ended is silent.**
-/

namespace FileSharing

/-! ### What is read -/

namespace Life

variable {ν : Type} {r : Ref}

theorem run_cons (y : Life × Task) (e : Event ν) (T : List (Event ν)) :
    run r y (e :: T) = (step r y e).bind fun z => run r z T := by
  simp only [run, List.foldlM_cons]
  rfl

/-- What is not about a session is nothing to its machine. -/
theorem step_of_not_isAbout {e : Event ν} (h : ¬e.IsAbout r) (y : Life × Task) :
    step r y e = some y := by
  obtain ⟨x, task⟩ := y
  cases e with
  | asked op =>
    have hreaction : x.reaction r op = .nothing := by
      cases op with
      | transfer s op => exact if_neg h
      | session s op =>
        cases op with
        | bye m => exact if_neg h
        | interrupt => exact if_neg h
        | _ => rfl
      | _ => rfl
    rw [step, hreaction, take]
  | fanout s c ls => exact if_neg h
  | callback s l contact c => exact if_neg h
  | clock s time => exact if_neg h
  | controlDone s n call succeeded =>
    cases call with
    | start =>
      cases succeeded with
      | true => exact if_neg h
      | false => rfl
    | _ => rfl
  | _ => rfl

theorem run_of_not_isAbout {T : List (Event ν)} (h : ∀ e ∈ T, ¬e.IsAbout r) (y : Life × Task) :
    run r y T = some y := by
  induction T with
  | nil => rfl
  | cons e T ih =>
    rw [run_cons, step_of_not_isAbout (h e List.mem_cons_self), Option.bind_some]
    exact ih fun e' he' => h e' (List.mem_cons_of_mem e he')

/-- What the machine does when it reads an event. -/
inductive Reading (r : Ref) : Life × Task → Event ν → Life × Task → Prop where
  /-- An operation is asked for. -/
  | asked {x : Life} {task : Task} {op : Op} {y : Life × Task}
    (h : x.take task (x.reaction r op) = some y) : Reading r (x, task) (.asked op) y
  /-- The time is read, which was to be compared. -/
  | clock {x : Life} (time : Int) : Reading r (x, .compare) (.clock r time) (x.compared time)
  /-- The session is about to tell its listeners what is due. -/
  | fanout {x : Life} (c : Callback) :
    Reading r (x, .due c) (.fanout r c x.listeners.members) (x, .rest c x.listeners.members)
  /-- The session calls the next of its listeners. -/
  | callback {x : Life} (c : Callback) (l : Listener) (rest : List Listener) :
    Reading r (x, .telling c l rest) (.callback r l x.contact c) (x, .rest c rest)
  /-- The control has started the transfer. -/
  | begun {x : Life} {task : Task} (n : Nat) :
    Reading r (x, task) (.controlDone r n .start true) ({ x with begun := true }, task)
  /-- It has nothing to do with the listeners of the session. -/
  | other {y : Life × Task} {e : Event ν} (hfan : ∀ c ls, e ≠ .fanout r c ls)
    (hcall : ∀ l contact c, e ≠ .callback r l contact c) : Reading r y e y

/-- The machine only does what is described. -/
theorem Reading.of_step {y y' : Life × Task} {e : Event ν} (h : step r y e = some y') :
    Reading r y e y' := by
  obtain ⟨x, task⟩ := y
  by_cases habout : e.IsAbout r
  · cases e with
    | asked op => exact .asked h
    | clock s time =>
      obtain rfl : s = r := habout
      rw [step, if_pos rfl] at h
      obtain ⟨rfl, rfl⟩ : task = .compare ∧ x.compared time = y' := by simpa using h
      exact .clock time
    | fanout s c ls =>
      obtain rfl : s = r := habout
      rw [step, if_pos rfl] at h
      obtain ⟨⟨rfl, rfl⟩, rfl⟩ : (task = .due c ∧ ls = x.listeners.members) ∧
        (x, Task.rest c ls) = y' := by simpa using h
      exact .fanout c
    | callback s l contact c =>
      obtain rfl : s = r := habout
      cases task with
      | telling c' l' rest =>
        rw [step, if_pos rfl] at h
        obtain ⟨⟨rfl, rfl, rfl⟩, rfl⟩ : (c = c' ∧ l = l' ∧ contact = x.contact) ∧
          (x, Task.rest c rest) = y' := by simpa using h
        exact .callback c l rest
      | _ => simp [step] at h
    | controlDone s n call succeeded =>
      cases call with
      | start =>
        cases succeeded with
        | true =>
          obtain rfl : s = r := habout
          obtain rfl : ({ x with begun := true }, task) = y' := by simpa [step] using h
          exact .begun n
        | false => exact absurd habout not_false
      | _ => exact absurd habout not_false
    | interrupted s =>
      obtain rfl : (x, task) = y' := Option.some.inj h
      exact .other (by simp) (by simp)
    | claimed s e =>
      obtain rfl : (x, task) = y' := Option.some.inj h
      exact .other (by simp) (by simp)
    | established s =>
      obtain rfl : (x, task) = y' := Option.some.inj h
      exact .other (by simp) (by simp)
    | _ => exact absurd habout not_false
  · rw [step_of_not_isAbout habout] at h
    obtain rfl : (x, task) = y' := Option.some.inj h
    refine .other (fun c ls he => habout ?_) fun l contact c he => habout ?_
    · rw [he]
      rfl
    · rw [he]
      rfl

theorem whenIdle_eq_some {x : Life} {task next : Task} {y : Life × Task} :
    x.whenIdle task next = some y ↔ task = .idle ∧ (x, next) = y := by
  rw [whenIdle, Option.ite_none_right_eq_some, Option.some.injEq]

end Life

/-! ### The callbacks of a run -/

/-- The callbacks of a session that an event is. -/
def Event.calls {ν : Type} (r : Ref) : Event ν → List (Event ν)
  | .callback s l contact c => if s = r then [.callback s l contact c] else []
  | _ => []

/-- The callbacks that an event says a session with this contact is about to make. -/
def Event.announces {ν : Type} (r : Ref) (contact : Contact) : Event ν → List (Event ν)
  | .fanout s c ls => if s = r then callbacks r contact c ls else []
  | _ => []

theorem Event.calls_eq_nil {ν : Type} {r : Ref} {e : Event ν}
    (h : ∀ l contact c, e ≠ .callback r l contact c) : e.calls r = [] := by
  cases e with
  | callback s l contact c => exact if_neg fun hs => h l contact c (by rw [hs])
  | _ => rfl

theorem Event.announces_eq_nil {ν : Type} {r : Ref} {contact : Contact} {e : Event ν}
    (h : ∀ c ls, e ≠ .fanout r c ls) : e.announces r contact = [] := by
  cases e with
  | fanout s c ls => exact if_neg fun hs => h c ls (by rw [hs])
  | _ => rfl

/-- The callbacks that have been announced and not been made. -/
def Task.owed {ν : Type} (r : Ref) (contact : Contact) : Task → List (Event ν)
  | .telling c l rest => callbacks r contact c (l :: rest)
  | _ => []

theorem Task.owed_rest {ν : Type} (r : Ref) (contact : Contact) (c : Callback)
    (ls : List Listener) :
    ((Task.rest c ls).owed r contact : List (Event ν)) = callbacks r contact c ls := by
  cases ls <;> rfl

namespace Life

variable {ν : Type} {r : Ref}

/-- An operation itself is no callback and announces none. -/
theorem owed_of_take {x : Life} {task : Task} {t : Turn} {y : Life × Task}
    (h : x.take task t = some y) :
    y.1.contact = x.contact ∧
      ∀ contact, (y.2.owed r contact : List (Event ν)) = task.owed r contact := by
  cases t with
  | nothing | close | attach l | detach l =>
    obtain rfl := Option.some.inj h
    exact ⟨rfl, fun _ => rfl⟩
  | tell c | establish | finish e | compare =>
    rw [take] at h
    obtain ⟨rfl, rfl⟩ := whenIdle_eq_some.mp h
    exact ⟨rfl, fun _ => rfl⟩

/-- What is made of an announcement is no longer owed. -/
theorem Reading.owed {y y' : Life × Task} {e : Event ν} (h : Reading r y e y') :
    y'.1.contact = y.1.contact ∧
      e.calls r ++ y'.2.owed r y.1.contact
        = y.2.owed r y.1.contact ++ e.announces r y.1.contact := by
  cases h with
  | asked h =>
    obtain ⟨hcontact, howed⟩ := owed_of_take (ν := ν) (r := r) h
    exact ⟨hcontact, by simp [Event.calls, Event.announces, howed]⟩
  | @clock x time =>
    unfold compared
    split
    · exact ⟨rfl, rfl⟩
    · exact ⟨rfl, rfl⟩
  | @fanout x c =>
    have hannounced : (Event.fanout r c x.listeners.members : Event ν).announces r x.contact
        = callbacks r x.contact c x.listeners.members := if_pos rfl
    rw [hannounced, Task.owed_rest]
    exact ⟨rfl, rfl⟩
  | @callback x c l rest =>
    have hmade : (Event.callback r l x.contact c : Event ν).calls r
        = [.callback r l x.contact c] := if_pos rfl
    rw [hmade, Task.owed_rest]
    exact ⟨rfl, (List.append_nil _).symm⟩
  | begun n => exact ⟨rfl, by simp [Event.calls, Event.announces]⟩
  | other hfan hcall =>
    refine ⟨rfl, ?_⟩
    rw [Event.calls_eq_nil hcall, Event.announces_eq_nil hfan, List.nil_append, List.append_nil]

/-- **The callbacks of a run are those that its fan-outs announce**, in order. -/
theorem callbacks_of_run {T : List (Event ν)} {y y' : Life × Task} (h : run r y T = some y') :
    y'.1.contact = y.1.contact ∧
      T.flatMap (Event.calls r) ++ y'.2.owed r y.1.contact
        = y.2.owed r y.1.contact ++ T.flatMap (Event.announces r y.1.contact) := by
  induction T generalizing y with
  | nil =>
    obtain rfl := Option.some.inj h
    exact ⟨rfl, by simp⟩
  | cons e T ih =>
    rw [run_cons, Option.bind_eq_some_iff] at h
    obtain ⟨z, hstep, hrun⟩ := h
    obtain ⟨hz, hfirst⟩ := (Reading.of_step hstep).owed
    obtain ⟨hy', hrest⟩ := ih hrun
    rw [hz] at hy' hrest
    refine ⟨hy', ?_⟩
    rw [List.flatMap_cons, List.flatMap_cons, List.append_assoc, hrest, ← List.append_assoc,
      hfirst, List.append_assoc]

/-! ### After the end -/

/-- Listeners hear nothing of what comes of an operation on a transfer that has ended,
and the transfer stays in its phase. -/
theorem take_turn_of_ended {x : Life} (hx : x.ended = true) (task : Task) (op : TransferOp) :
    ∃ x', x.take task (x.turn op) = some (x', task) ∧ x'.ended = true ∧ x'.phase = x.phase := by
  have hlate : ∀ t, x.unlessEnded t = .nothing := unlessEnded_of_ended hx
  have hchecked : x.checked = .nothing := checked_of_ended hx
  cases op with
  | addListener l => exact ⟨_, rfl, hx, rfl⟩
  | removeListener l => exact ⟨_, rfl, hx, rfl⟩
  | close reason => exact ⟨_, rfl, rfl, rfl⟩
  | engine event =>
    refine ⟨x, ?_, hx, rfl⟩
    cases event <;> rw [turn, hlate, take]
  | accept => exact ⟨x, by rw [turn, hchecked, ite_self, take], hx, rfl⟩
  | resume => exact ⟨x, by rw [turn, hchecked, ite_self, take], hx, rfl⟩
  | reject => exact ⟨x, by rw [turn, hlate, ite_self, take], hx, rfl⟩
  | abort reason => exact ⟨x, by rw [turn, hlate, take], hx, rfl⟩
  | _ => exact ⟨x, rfl, hx, rfl⟩

theorem take_reaction_of_ended {x : Life} (hx : x.ended = true) (task : Task) (op : Op) :
    ∃ x', x.take task (x.reaction r op) = some (x', task) ∧ x'.ended = true ∧
      x'.phase = x.phase := by
  have hnothing : ∃ x', x.take task .nothing = some (x', task) ∧ x'.ended = true ∧
      x'.phase = x.phase := ⟨x, rfl, hx, rfl⟩
  cases op with
  | transfer s op =>
    rw [reaction]
    split
    · exact take_turn_of_ended hx task op
    · exact hnothing
  | session s op =>
    cases op with
    | bye m => rwa [reaction, byeTurn, unlessEnded_of_ended hx, ite_self]
    | interrupt =>
      rw [reaction]
      split
      · exact ⟨_, rfl, rfl, rfl⟩
      · exact hnothing
    | _ => exact hnothing
  | _ => exact hnothing

/-- **A session that has ended is silent**, and its state stays as it is. -/
theorem silent_of_ended {T : List (Event ν)} {x : Life} {y : Life × Task} (hx : x.ended = true)
    (h : run r (x, .idle) T = some y) :
    y.1.ended = true ∧ y.1.phase = x.phase ∧ T.flatMap (Event.calls r) = [] := by
  induction T generalizing x with
  | nil =>
    obtain rfl := Option.some.inj h
    exact ⟨hx, rfl, rfl⟩
  | cons e T ih =>
    rw [run_cons, Option.bind_eq_some_iff] at h
    obtain ⟨z, hstep, hrun⟩ := h
    -- an idle machine is about to make no callback, and an end leaves it idle
    cases Reading.of_step hstep with
    | asked htake =>
      rename_i op
      obtain ⟨x', hx', hended, hphase⟩ := take_reaction_of_ended (r := r) hx .idle op
      obtain rfl := Option.some.inj (hx'.symm.trans htake)
      rw [← hphase]
      exact ih hended hrun
    | begun n => exact ih (x := { x with begun := true }) hx hrun
    | other hfan hcall =>
      rw [List.flatMap_cons, Event.calls_eq_nil hcall]
      exact ih hx hrun

end Life

end FileSharing
