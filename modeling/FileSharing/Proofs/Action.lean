import FileSharing.Run

/-!
# Actions, seen as steps between worlds

An action of the stack is a function on worlds once it is said how the operations
are carried out that callbacks start.  Here are the worlds that the small actions
lead to, and the rule by which everything else is followed: a relation between
worlds that is reflexive and transitive holds along an action as soon as it holds
along its parts.

## Main definitions

* `Handler` — how operations of callbacks are carried out.
* `Act.after`, `Act.result` — the world after an action, and its result.
* `Placid` — a relation between worlds that holds along what leaves the stack alone.
* `Steady` — one that holds along all that callbacks may do, too.

## Main results

* `Steady.play` — the program of a callback stays in a steady relation.
-/

namespace FileSharing

/-- How the operations are carried out that callbacks start. -/
abbrev Handler (E : Environment) := Op → StateM (World E) Reply

namespace World

variable {E : Environment}

/-- The world after an event. -/
def emit (w : World E) (e : Event E.Note) : World E := { w with trace := w.trace ++ [e] }

/-- The world after a change of the stack. -/
def change (w : World E) (f : Stack → Stack) : World E := { w with stack := f w.stack }

/-- The world with its collaborators in another state. -/
def withClient (w : World E) (c : E.State) : World E := { w with client := c }

@[simp] theorem emit_stack (w : World E) (e : Event E.Note) : (w.emit e).stack = w.stack := rfl

@[simp] theorem emit_client (w : World E) (e : Event E.Note) : (w.emit e).client = w.client := rfl

@[simp] theorem emit_trace (w : World E) (e : Event E.Note) :
    (w.emit e).trace = w.trace ++ [e] := rfl

@[simp] theorem emit_findByCall (w : World E) (e : Event E.Note) (callId : Text) :
    (w.emit e).findByCall? callId = w.findByCall? callId := rfl

@[simp] theorem change_stack (w : World E) (f : Stack → Stack) :
    (w.change f).stack = f w.stack := rfl

@[simp] theorem change_client (w : World E) (f : Stack → Stack) :
    (w.change f).client = w.client := rfl

@[simp] theorem change_trace (w : World E) (f : Stack → Stack) :
    (w.change f).trace = w.trace := rfl

@[simp] theorem withClient_stack (w : World E) (c : E.State) :
    (w.withClient c).stack = w.stack := rfl

@[simp] theorem withClient_client (w : World E) (c : E.State) : (w.withClient c).client = c := rfl

@[simp] theorem withClient_trace (w : World E) (c : E.State) :
    (w.withClient c).trace = w.trace := rfl

end World

namespace Act

variable {E : Environment} {α β : Type}

/-- The world after an action. -/
def after (N : Handler E) (a : Act E α) (w : World E) : World E := ((a.run N).run w).2

/-- The result of an action. -/
def result (N : Handler E) (a : Act E α) (w : World E) : α := ((a.run N).run w).1

variable {N : Handler E} {w : World E}

/-! ### Composed actions -/

@[simp] theorem after_pure (x : α) : after N (pure x) w = w := rfl

@[simp] theorem result_pure (x : α) : result N (pure x) w = x := rfl

@[simp] theorem after_bind (a : Act E α) (f : α → Act E β) :
    after N (a >>= f) w = after N (f (result N a w)) (after N a w) := rfl

@[simp] theorem result_bind (a : Act E α) (f : α → Act E β) :
    result N (a >>= f) w = result N (f (result N a w)) (after N a w) := rfl

@[simp] theorem after_map (f : α → β) (a : Act E α) : after N (f <$> a) w = after N a w := rfl

@[simp] theorem result_map (f : α → β) (a : Act E α) :
    result N (f <$> a) w = f (result N a w) := rfl

@[simp ↓] theorem after_ite (c : Prop) [Decidable c] (a b : Act E α) :
    after N (if c then a else b) w = if c then after N a w else after N b w := by
  split <;> rfl

@[simp ↓] theorem result_ite (c : Prop) [Decidable c] (a b : Act E α) :
    result N (if c then a else b) w = if c then result N a w else result N b w := by
  split <;> rfl

/-! ### Looking at the world -/

theorem after_stack_bind (f : Stack → Act E β) :
    after N (stack >>= f) w = after N (f w.stack) w := rfl

theorem after_findByCall_bind (callId : Text) (f : Option Ref → Act E β) :
    after N (findByCall? callId >>= f) w = after N (f (w.findByCall? callId)) w := rfl

theorem after_session_bind (r : Ref) (f : Session → Act E β) :
    after N (session r >>= f) w = after N (f (w.stack.session r)) w := rfl

theorem after_transfer_bind (r : Ref) (f : Transfer → Act E β) :
    after N (transfer r >>= f) w = after N (f (w.stack.transfer r)) w := rfl

/-! ### Small actions -/

@[simp] theorem after_stack : after N stack w = w := rfl

@[simp] theorem result_stack : result N stack w = w.stack := rfl

@[simp] theorem after_findByCall (callId : Text) : after N (findByCall? callId) w = w := rfl

@[simp] theorem result_findByCall (callId : Text) :
    result N (findByCall? callId) w = w.findByCall? callId := rfl

@[simp] theorem after_session (r : Ref) : after N (session r) w = w := rfl

@[simp] theorem result_session (r : Ref) : result N (session r) w = w.stack.session r := rfl

@[simp] theorem after_transfer (r : Ref) : after N (transfer r) w = w := rfl

@[simp] theorem result_transfer (r : Ref) : result N (transfer r) w = w.stack.transfer r := rfl

@[simp] theorem after_change (f : Stack → Stack) : after N (change f) w = w.change f := rfl

@[simp] theorem after_update (r : Ref) (f : Session → Session) :
    after N (update r f) w = w.change (·.update r f) := rfl

@[simp] theorem after_updateTransfer (r : Ref) (f : Transfer → Transfer) :
    after N (updateTransfer r f) w = w.change (·.updateTransfer r f) := rfl

@[simp] theorem after_emit (e : Event E.Note) : after N (emit e) w = w.emit e := rfl

@[simp] theorem after_debug (line : Text) :
    after N (debug line) w = w.emit (.log .debug line) := rfl

@[simp] theorem after_info (line : Text) : after N (info line) w = w.emit (.log .info line) := rfl

@[simp] theorem after_warn (line : Text) : after N (warn line) w = w.emit (.log .warn line) := rfl

@[simp] theorem after_error (line : Text) :
    after N (error line) w = w.emit (.log .error line) := rfl

@[simp] theorem after_ask (f : E.State → α × E.State) :
    after N (ask f) w = w.withClient (f w.client).2 := rfl

@[simp] theorem result_ask (f : E.State → α × E.State) :
    result N (ask f) w = (f w.client).1 := rfl

@[simp] theorem after_fail (code : ErrorCode) (message : Text) :
    after N (fail code message : Act E (Outcome α)) w
      = w.emit (.log .debug (Failure.logLine ⟨code, message⟩)) := rfl

@[simp] theorem result_fail (code : ErrorCode) (message : Text) :
    result N (fail code message : Act E (Outcome α)) w = .error ⟨code, message⟩ := rfl

end Act

/-! ### Steady relations -/

variable {E : Environment} {N : Handler E} {R : World E → World E → Prop} {α : Type}

/-- A program that only does what is allowed stays in a relation in which that stays. -/
theorem after_play_of_asks {P : Op → Prop}
    {p : Program E.State E.Note α} (hp : p.Asks P) (hrefl : ∀ w, R w w)
    (htrans : ∀ {w w₁ w₂}, R w w₁ → R w₁ w₂ → R w w₂) (hnote : ∀ w n, R w (w.emit (.note n)))
    (hclient : ∀ w c, R w (w.withClient c)) (hop : ∀ w op, P op → R w ((N op).run w).2)
    (w : World E) : R w (Act.after N (Act.play p) w) := by
  induction p generalizing w with
  | done a => exact hrefl w
  | call op next ih => exact htrans (hop w op hp.1) (ih _ (hp.2 _) _)
  | look next ih => exact ih _ _ (hp _ _) w
  | change f next ih => exact htrans (hclient w _) (ih hp _)
  | write n next ih => exact htrans (hnote w n) (ih hp _)

/-- Nothing is asked of a program that may do anything. -/
theorem Program.asks_true {σ ν : Type} (p : Program σ ν α) : p.Asks fun _ => True := by
  induction p with
  | done a => exact trivial
  | call op next ih => exact ⟨trivial, ih⟩
  | look next ih => exact ih
  | change f next ih => exact ih
  | write n next ih => exact ih

/-- A relation between worlds that holds along everything that leaves the stack alone,
and along what a control does and the client does as a session leaves. -/
structure Placid (N : Handler E) (R : World E → World E → Prop) : Prop where
  /-- Nothing happens. -/
  refl : ∀ w, R w w
  /-- One thing after another. -/
  trans : ∀ {w w₁ w₂}, R w w₁ → R w₁ w₂ → R w w₂
  /-- A line is logged. -/
  log : ∀ w level line, R w (w.emit (.log level line))
  /-- A collaborator or the client changes its state. -/
  client : ∀ w c, R w (w.withClient c)
  /-- A control is called. -/
  control : ∀ r n call w, R w (Act.after N (Act.play (E.control r n call)) w)
  /-- The client is told that a session has left. -/
  removed : ∀ id w, R w (Act.after N (Act.play (E.removed id)) w)

/-- A relation between worlds that holds along everything that leaves the stack
alone, and along the operations that callbacks start. -/
structure Steady (N : Handler E) (R : World E → World E → Prop) : Prop extends Placid N R where
  /-- The client writes a note. -/
  note : ∀ w n, R w (w.emit (.note n))
  /-- A callback starts an operation. -/
  nested : ∀ w op, R w ((N op).run w).2
  control := fun r n call w =>
    after_play_of_asks (E.control r n call).asks_true refl trans note client
      (fun w op _ => nested w op) w
  removed := fun id w =>
    after_play_of_asks (E.removed id).asks_true refl trans note client
      (fun w op _ => nested w op) w

/-- The program of a callback stays in a steady relation. -/
theorem Steady.play (h : Steady N R) (p : Program E.State E.Note α) (w : World E) :
    R w (Act.after N (Act.play p) w) :=
  after_play_of_asks p.asks_true h.refl h.trans h.note h.client (fun w op _ => h.nested w op) w

namespace Placid

open Act

/-- One action after another. -/
theorem bind {β : Type} {a : Act E α} {f : α → Act E β} {w : World E} (h : Placid N R)
    (ha : R w (after N a w)) (hf : R (after N a w) (after N (f (result N a w)) (after N a w))) :
    R w (after N (a >>= f) w) :=
  h.trans ha hf

theorem debug (h : Placid N R) (line : Text) (w : World E) :
    R w (after N (Act.debug line) w) :=
  h.log w _ _

theorem info (h : Placid N R) (line : Text) (w : World E) : R w (after N (Act.info line) w) :=
  h.log w _ _

theorem warn (h : Placid N R) (line : Text) (w : World E) : R w (after N (Act.warn line) w) :=
  h.log w _ _

theorem ask (h : Placid N R) (f : E.State → α × E.State) (w : World E) :
    R w (after N (Act.ask f) w) :=
  h.client w _

theorem fail (h : Placid N R) (code : ErrorCode) (message : Text) (w : World E) :
    R w (after N (Act.fail code message : Act E (Outcome α)) w) :=
  h.log w _ _

theorem report (h : Placid N R) (f : Option Failure) (w : World E) :
    R w (after N (Act.report f) w) := by
  cases f with
  | none => exact h.refl w
  | some f => exact h.log w _ _

theorem warnOnFailure (h : Placid N R) (line : Text) (o : Outcome Unit) (w : World E) :
    R w (after N (Act.warnOnFailure line o) w) := by
  cases o with
  | ok a => exact h.refl w
  | error f => exact h.log w _ _

end Placid

end FileSharing
