import FileSharing.Text

/-!
# Listener sets

Observers are kept in the order in which they were added, each at most once.  A
fan-out calls the listeners that were in the set when it started; what their
callbacks do to the set takes effect at once but not on the fan-out that runs.
A callback that throws ends early, and the fan-out goes on with the next
listener.  This is so for exceptions of the standard class, which has a text; one of
any other kind would not be caught, and is left out.

## Main definitions

* `ListenerSet` — the listeners, with `add`, `remove` and `clear`.
* `Reaction` — what a callback does to the set that calls it.
* `Fanout.each` — a fan-out over such callbacks.
-/

namespace FileSharing

/-- The listeners of some source, in the order in which they were added. -/
structure ListenerSet (α : Type) where
  /-- The listeners. -/
  members : List α
  deriving DecidableEq, Repr

namespace ListenerSet

variable {α : Type} [DecidableEq α]

/-- No listeners. -/
def empty : ListenerSet α := ⟨[]⟩

instance : Inhabited (ListenerSet α) := ⟨⟨[]⟩⟩

/-- Add a listener that is not yet there; answers whether the set has changed. -/
def add (s : ListenerSet α) : Option α → Bool × ListenerSet α
  | none => (false, s)
  | some l => if l ∈ s.members then (false, s) else (true, ⟨s.members ++ [l]⟩)

/-- Remove a listener that is there; answers whether the set has changed. -/
def remove (s : ListenerSet α) : Option α → Bool × ListenerSet α
  | none => (false, s)
  | some l => if l ∈ s.members then (true, ⟨s.members.erase l⟩) else (false, s)

/-- Remove all listeners. -/
def clear (_ : ListenerSet α) : ListenerSet α := ⟨[]⟩

end ListenerSet

/-! ### Callbacks that act on their own set -/

/-- What a callback does, in order.  It learns whether its changes took effect
and may start a fan-out of its own. -/
inductive Reaction (α : Type) where
  /-- Nothing more. -/
  | done
  /-- Throw an exception of the standard class, with this text. -/
  | throw (message : Text)
  /-- Add a listener. -/
  | add (l : Option α) (rest : Bool → Reaction α)
  /-- Remove a listener. -/
  | remove (l : Option α) (rest : Bool → Reaction α)
  /-- Remove all listeners. -/
  | clear (rest : Reaction α)
  /-- Call the listeners for another event. -/
  | each (event : Text) (react : α → Reaction α) (rest : Reaction α)

/-- The line that is logged for a listener that throws. -/
def listenerFailure (event message : Text) : Text :=
  "Listener failed on " ++ event ++ ": " ++ message.visible

/-- A listener set while fan-outs run over it. -/
structure Fanout (α : Type) where
  /-- The set. -/
  set : ListenerSet α
  /-- The listeners that were called, each with the event, in order. -/
  visits : List (Text × α)
  /-- The lines logged for listeners that threw, in order. -/
  failures : List Text

namespace Fanout

variable {α : Type} [DecidableEq α]

/-- A set over which nothing has run yet. -/
def start (s : ListenerSet α) : Fanout α := ⟨s, [], []⟩

/-- Call one listener after another, each with its reaction carried out by `act`;
an exception is logged. -/
def visit (event : Text) (act : α → Fanout α → Option Text × Fanout α) :
    List α → Fanout α → Fanout α
  | [], f => f
  | l :: ls, f =>
    match act l { f with visits := f.visits ++ [(event, l)] } with
    | (none, f) => visit event act ls f
    | (some message, f) =>
      visit event act ls { f with failures := f.failures ++ [listenerFailure event message] }

/-- Carry out a reaction; answers the text of the exception that ended it. -/
def perform : Reaction α → Fanout α → Option Text × Fanout α
  | .done, f => (none, f)
  | .throw message, f => (some message, f)
  | .add l rest, f =>
    let (changed, set) := f.set.add l
    perform (rest changed) { f with set := set }
  | .remove l rest, f =>
    let (changed, set) := f.set.remove l
    perform (rest changed) { f with set := set }
  | .clear rest, f => perform rest { f with set := f.set.clear }
  | .each event react rest, f =>
    perform rest (visit event (fun l f => perform (react l) f) f.set.members f)

/-- Call every listener of the set for an event. -/
def each (event : Text) (react : α → Reaction α) (f : Fanout α) : Fanout α :=
  visit event (fun l f => perform (react l) f) f.set.members f

end Fanout

end FileSharing
