import FileSharing.Proofs.Entries

/-!
# Sessions that leave by name

A session leaves the registry by its name, and once.  Both are right for a session that
entered under its name, is registered from then until it leaves, and never enters again.
A session that somebody else registers may do otherwise: it may be refused because its
name is taken, and then it leaves by a name that is in other hands; or it may enter after
it has left, and then it does not leave again.

## Main definitions

* `World.Alone` — nobody but one session has to do with a name.
* `World.IsClean` — no session is registered that has left.
* `Op.IsLate` — a session is to enter that has left.
* `Program.AtEachCall` — what holds of each operation of a program.

## Main results

* `kept_iff_not_left` — **an entry is lost exactly where a session of its name leaves**,
  be it the one that the entry holds or not.
* `clean_iff_none_late` — **no session is registered that has left, exactly as long as
  none enters that has left.**
-/

namespace FileSharing

variable {E : Environment}

/-! ### Taking an entry along -/

/-- Between two worlds nobody but `s` has to do with a name: no session enters under it,
nobody asks for it to be taken out, and no other session of that name leaves. -/
structure World.Alone (s : Ref) (id : Text) (w w' : World E) : Prop where
  quiet : touchings id w'.trace = touchings id w.trace
  others : ∀ r, w.Left r w' → (w'.stack.session r).id = id → r = s

/-- **An entry is lost exactly where a session of its name leaves.**  So a session takes
the entry of another one with it where they share a name, and no other entry. -/
theorem kept_iff_not_left (depth : Nat) {α : Type} (p : Program E.State E.Note α) (w : World E)
    (s q : Ref) (id : Text) :
    let w' := ((run E depth p).run w).2
    w.stack.find? id = some q → w.Alone s id w' →
      (w'.stack.find? id = some q ↔ ¬(w.Left s w' ∧ (w'.stack.session s).id = id)) := by
  intro w' hfound halone
  have hevolves : w.Evolves w' := .run depth p w
  rcases hevolves.entry halone.quiet with hkept | hlost
  · have hfound' : w'.stack.find? id = some q := hkept.find?.trans hfound
    refine ⟨fun _ hleft => hkept.name_ne s hleft.1 hleft.2, fun _ => hfound'⟩
  · obtain ⟨r, hleft, hname⟩ := hlost.left
    -- the session that has left can only be `s`
    obtain rfl : r = s := halone.others r hleft hname
    constructor
    · intro hfound'
      rw [hlost.find?] at hfound'
      exact absurd hfound' (by simp)
    · intro hstays
      exact absurd ⟨hleft, hname⟩ hstays

/-- What an upload is made from. -/
def uploadDraft : Draft :=
  ⟨"ft", ⟨"+33612345678"⟩, [], 0, some ⟨.empty, none, [], 0, 0, .outgoing⟩⟩

/-- Two uploads are made with one name; the first one is registered, and the second is
refused. -/
def twoOfOneName : Program Unit Unit Unit :=
  .call (.create uploadDraft) fun _ =>
  .call (.create uploadDraft) fun _ =>
  .call (.register (some 0)) fun _ =>
  .call (.register (some 1)) fun _ => .done ()

def abortSecond : Program Unit Unit Unit := .call (.transfer 1 (.abort .byUser)) fun _ => .done ()

/-- The first upload is lost as the second one leaves. -/
theorem kept_iff_not_left_twoOfOneName :
    let w := ((run (.obliging fun _ _ _ => .done none) 1 twoOfOneName).run (.start .default ())).2
    let w' := ((run (.obliging fun _ _ _ => .done none) 1 abortSecond).run w).2
    w.stack.find? "ft" = some 0 ∧ w.Alone 1 "ft" w' ∧
      (w'.stack.find? "ft" = some 0 ↔ ¬(w.Left 1 w' ∧ (w'.stack.session 1).id = "ft")) := by
  intro w w'
  have hfound : w.stack.find? "ft" = some 0 := by decide +kernel
  have hsize : w'.stack.sessions.size = 2 := by decide +kernel
  have hstays : (w'.stack.session 0).removed = false := by decide +kernel
  have hquiet : touchings "ft" w'.trace = touchings "ft" w.trace := by decide +kernel
  have hkept := kept_iff_not_left (E := .obliging fun _ _ _ => .done none) 1 abortSecond w 1 0 "ft"
    hfound
  have halone : w.Alone 1 "ft" w' := by
    refine ⟨hquiet, fun r hleft _ => ?_⟩
    have hmade := World.Grows.lt_size_of_removed hleft.after
    rw [hsize] at hmade
    have hnot : r ≠ 0 := by
      rintro rfl
      exact absurd hleft.after (by simp [hstays])
    exact Nat.le_antisymm (Nat.le_of_lt_succ hmade) (Nat.one_le_iff_ne_zero.mpr hnot)
  exact ⟨hfound, halone, hkept halone⟩

/-- The second upload takes the entry of the first one with it. -/
theorem not_kept_twoOfOneName :
    let w := ((run (.obliging fun _ _ _ => .done none) 1 twoOfOneName).run (.start .default ())).2
    let w' := ((run (.obliging fun _ _ _ => .done none) 1 abortSecond).run w).2
    w.stack.find? "ft" = some 0 ∧ ¬w.stack.Holds 1 ∧ w'.stack.find? "ft" = none := by
  decide +kernel

/-! ### Entering after leaving -/

/-- Whether no session is registered that has left. -/
def World.IsClean (w : World E) : Prop := ∀ r, ¬w.IsStale r

/-- Whether an operation lets a session enter that has left. -/
def Op.IsLate (s : Stack) : Op → Prop
  | .register (some r) => (s.session r).removed = true ∧ s.find? (s.session r).id = none
  | _ => False

instance (s : Stack) : DecidablePred (Op.IsLate s) := fun
  | .register (some r) =>
    inferInstanceAs (Decidable ((s.session r).removed = true ∧ s.find? (s.session r).id = none))
  | .register none => .isFalse id
  | .create _ => .isFalse id
  | .session _ _ => .isFalse id
  | .transfer _ _ => .isFalse id
  | .unregister _ => .isFalse id
  | .receiveBye _ => .isFalse id
  | .watch _ => .isFalse id
  | .refreshOne => .isFalse id
  | .refreshAll => .isFalse id
  | .service _ => .isFalse id

/-- Whether `Q` holds of each operation that a program asks for, with the worlds before
and after it. -/
def Program.AtEachCall (N : Handler E) (Q : Op → World E → World E → Prop) {α : Type} :
    Program E.State E.Note α → World E → Prop
  | .done _, _ => True
  | .call op next, w =>
    let answer := (N op).run w
    Q op w answer.2 ∧ (next answer.1).AtEachCall N Q answer.2
  | .look next, w => (next w.stack w.client).AtEachCall N Q w
  | .change f next, w => next.AtEachCall N Q (w.withClient (f w.client))
  | .write n next, w => next.AtEachCall N Q (w.emit (.note n))

variable {w w' : World E} {r : Ref} {depth : Nat}

theorem exec_register_of_free (hr : r < w.stack.sessions.size)
    (hfree : w.stack.find? (w.stack.session r).id = none) :
    ((exec E (depth + 1) (.register (some r))).run w).2
      = (w.emit (.asked (.register (some r)))).enrolling r := by
  show Act.after (exec E depth) (Act.carryOut (.register (some r))) w = _
  rw [Act.carryOut, Act.after_bind, Act.after_emit, Act.perform, Act.after_stack_bind,
    World.emit_stack, if_pos hr, Act.after_bind, Act.after_pure]
  rcases Act.register_cases (N := exec E depth) r (w.emit (.asked (.register (some r)))) with
    ⟨htaken, -⟩ | ⟨-, -, hafter⟩
  · rw [World.emit_stack, hfree] at htaken
    exact absurd htaken (by simp)
  · exact hafter

theorem exec_register_of_refused
    (h : r < w.stack.sessions.size → w.stack.find? (w.stack.session r).id ≠ none) :
    w.Rests ((exec E (depth + 1) (.register (some r))).run w).2 := by
  show w.Rests (Act.after (exec E depth) (Act.carryOut (.register (some r))) w)
  rw [Act.carryOut, Act.after_bind, Act.after_emit, Act.perform, Act.after_stack_bind]
  split
  · next hr =>
    rw [Act.after_bind, Act.after_pure]
    rcases Act.register_cases (N := exec E depth) r (w.emit (.asked (.register (some r)))) with
      ⟨-, f, -, hafter⟩ | ⟨hfree, -⟩
    · rw [hafter]
      exact .trans (.emit w fun _ => rfl) (.emit _ fun _ => rfl)
    · exact absurd hfree (h hr)
  · exact .emit w fun _ => rfl

theorem World.IsStale.ofLate (depth : Nat) {op : Op} (h : op.IsLate w.stack) :
    ∃ r, World.IsStale ((exec E (depth + 1) op).run w).2 r := by
  cases op with
  | register q =>
    cases q with
    | none => exact absurd h not_false
    | some r =>
      refine ⟨r, ?_⟩
      rw [exec_register_of_free (World.Grows.lt_size_of_removed h.1) h.2]
      exact ⟨List.mem_cons_self, h.1⟩
  | _ => exact absurd h not_false

/-- An operation, of which nothing else is registered, leaves the registry clean exactly
if it lets no session enter that has left. -/
theorem isClean_exec_iff (hfiled : w.stack.Filed) (hclean : w.IsClean) {op : Op}
    (halone : registrations ((exec E (depth + 1) op).run w).2.trace
      = registrations w.trace ++ op.registers) :
    World.IsClean ((exec E (depth + 1) op).run w).2 ↔ ¬op.IsLate w.stack := by
  constructor
  · intro hafter hlate
    obtain ⟨r, hr⟩ := World.IsStale.ofLate depth hlate
    exact hafter r hr
  · intro hlate r hr
    rcases (World.Evolves.exec (depth + 1) w op).stale hfiled hr with hbefore | hcount
    · exact hclean r hbefore
    · -- the session was asked for, which only the operation itself can have done
      rw [halone, List.count_append] at hcount
      have hmem : r ∈ op.registers := List.count_pos_iff.mp (by omega)
      obtain rfl := Op.eq_register_of_mem hmem
      by_cases hfree : r < w.stack.sessions.size ∧ w.stack.find? (w.stack.session r).id = none
      · -- it enters, and entering changes nothing about it
        have hremoved := hr.removed
        rw [exec_register_of_free hfree.1 hfree.2] at hremoved
        exact hlate ⟨hremoved, hfree.2⟩
      · have hrests : w.Rests ((exec E (depth + 1) (.register (some r))).run w).2 :=
          exec_register_of_refused (not_and.mp hfree)
        refine hclean r ⟨?_, by rw [← hrests.removed, hr.removed]⟩
        rw [Stack.Holds, ← hrests.registry]
        exact hr.holds

/-- From a clean registry on, the registry stays clean exactly as long as no session enters
that has left. -/
theorem atEachCall_isClean_iff {α : Type} (p : Program E.State E.Note α) (hfiled : w.stack.Filed)
    (hclean : w.IsClean)
    (halone : p.AtEachCall (exec E (depth + 1)) (fun op w w' =>
      registrations w'.trace = registrations w.trace ++ op.registers) w) :
    p.AtEachCall (exec E (depth + 1)) (fun _ _ w' => w'.IsClean) w ↔
      p.AtEachCall (exec E (depth + 1)) (fun op w _ => ¬op.IsLate w.stack) w := by
  induction p generalizing w with
  | done a => exact Iff.rfl
  | call op next ih =>
    obtain ⟨hop, hnext⟩ := halone
    have hfiled' := (World.Evolves.exec (depth + 1) w op).filed hfiled
    have hiff := isClean_exec_iff hfiled hclean hop
    constructor
    · rintro ⟨hafter, hrest⟩
      exact ⟨hiff.mp hafter, (ih _ hfiled' hafter hnext).mp hrest⟩
    · rintro ⟨htimely, hrest⟩
      have hafter := hiff.mpr htimely
      exact ⟨hafter, (ih _ hfiled' hafter hnext).mpr hrest⟩
  | look next ih => exact ih _ _ hfiled hclean halone
  | change f next ih => exact ih hfiled (fun r hr => hclean r ⟨hr.holds, hr.removed⟩) halone
  | write n next ih => exact ih hfiled (fun r hr => hclean r ⟨hr.holds, hr.removed⟩) halone

theorem isClean_start (settings : Settings) (client : E.State) :
    (World.start settings client : World E).IsClean :=
  fun _ hr => absurd hr.holds List.not_mem_nil

/-- **No session is registered that has left, exactly as long as none enters that has
left**, where callbacks register none.  Whatever callbacks do, a session that has left is
registered only if that was asked for, which is never so for those of the services. -/
theorem clean_iff_none_late (settings : Settings) (client : E.State) (depth : Nat) {α : Type}
    (p : Program E.State E.Note α) :
    let start : World E := .start settings client
    let w := ((run E (depth + 1) p).run start).2
    (∀ r, w.IsStale r → r ∈ registrations w.trace) ∧
    (p.AtEachCall (exec E (depth + 1)) (fun op w w' =>
        registrations w'.trace = registrations w.trace ++ op.registers) start →
      (p.AtEachCall (exec E (depth + 1)) (fun _ _ w' => w'.IsClean) start ↔
        p.AtEachCall (exec E (depth + 1)) (fun op w _ => ¬op.IsLate w.stack) start)) := by
  intro start w
  have hfiled : start.stack.Filed := Stack.filed_fresh settings
  have hclean : start.IsClean := isClean_start settings client
  refine ⟨fun r hr => ?_, fun halone => atEachCall_isClean_iff p hfiled hclean halone⟩
  have hevolves : start.Evolves w := .run (depth + 1) p start
  rcases hevolves.stale hfiled hr with hbefore | hcount
  · exact absurd hbefore (hclean r)
  · exact List.count_pos_iff.mp (Nat.lt_of_le_of_lt (Nat.zero_le _) hcount)

/-- An upload fails after it was registered, and is started and closed all the same. -/
def registerAndFail : Program Unit Unit Unit :=
  .call (.create uploadDraft) fun _ =>
  .call (.register (some 0)) fun _ =>
  .call (.transfer 0 (.engine (.failed (.bare 1)))) fun _ =>
  .call (.transfer 0 .start) fun _ =>
  .call (.transfer 0 (.close .bySystem)) fun _ => .done ()

/-- An upload that is registered in time leaves a clean registry. -/
theorem clean_iff_none_late_registerAndFail :
    let start : World (.obliging fun _ _ _ => .done none) := .start .default ()
    let N := exec (.obliging fun _ _ _ => .done none) 1
    registerAndFail.AtEachCall N (fun op w w' =>
        registrations w'.trace = registrations w.trace ++ op.registers) start ∧
      registerAndFail.AtEachCall N (fun op w _ => ¬op.IsLate w.stack) start ∧
      registerAndFail.AtEachCall N (fun _ _ w' => w'.IsClean) start := by
  intro start N
  have halone : registerAndFail.AtEachCall N (fun op w w' =>
      registrations w'.trace = registrations w.trace ++ op.registers) start := by
    refine ⟨?_, ?_, ?_, ?_, ?_, trivial⟩
    all_goals decide +kernel
  have hnone : registerAndFail.AtEachCall N (fun op w _ => ¬op.IsLate w.stack) start := by
    refine ⟨?_, ?_, ?_, ?_, ?_, trivial⟩
    all_goals decide +kernel
  have hiff := (clean_iff_none_late (E := .obliging fun _ _ _ => .done none) .default () 0
    registerAndFail).2 halone
  exact ⟨halone, hnone, hiff.mpr hnone⟩

/-- An upload is registered after it has failed, and is started and closed all the
same. -/
def failAndRegister : Program Unit Unit Unit :=
  .call (.create uploadDraft) fun _ =>
  .call (.transfer 0 (.engine (.failed (.bare 1)))) fun _ =>
  .call (.register (some 0)) fun _ =>
  .call (.transfer 0 .start) fun _ =>
  .call (.transfer 0 (.close .bySystem)) fun _ => .done ()

/-- An upload that is registered too late stays in the registry. -/
theorem not_clean_failAndRegister :
    let w := ((run (.obliging fun _ _ _ => .done none) 1 failAndRegister).run
      (.start .default ())).2
    w.stack.Holds 0 ∧ (w.stack.session 0).removed = true := by
  decide +kernel

end FileSharing
