import FileSharing.Run
import FileSharing.Scenario.Client

/-!
# Running a scenario

A scenario starts from a stack with given settings and runs its commands one by
one.  After each of them its answer, what happened since the one before it, and the
state that it left are kept, with new transfer ids shown by the names that the
scenario has for them.
-/

namespace FileSharing.Scenario

/-- The levels to which callbacks may use the stack. -/
def nesting : Nat := 4096

/-! ### Showing new ids by their names -/

/-- An answer with the new ids in it shown by their names. -/
def Answer.shown (m : Naming) : Answer → Answer
  | .name t => .name (m.shown t)
  | .names ts => .names (ts.map m.shown)
  | .failure f => .failure { f with message := m.shown f.message }
  | .session s expired => .session { s with id := m.shown s.id } expired
  | a => a

/-- An event with the new ids in it shown by their names. -/
def shownEvent (m : Naming) : Event (Text × Answer) → Event (Text × Answer)
  | .log level line => .log level (m.shown line)
  | .markRead id => .markRead (m.shown id)
  | .removed id => .removed (m.shown id)
  | .mediaClosed id => .mediaClosed (m.shown id)
  | .registered id r => .registered (m.shown id) r
  | .note (label, a) => .note (label, a.shown m)
  | e => e

/-! ### Steps -/

/-- What is kept of a command. -/
structure Step where
  /-- Its answer. -/
  answer : Answer
  /-- What happened while it ran. -/
  events : List (Event (Text × Answer))
  /-- The stack after it. -/
  stack : Stack
  /-- The collaborators after it. -/
  client : Client

/-- The world before a scenario. -/
def start (settings : Settings) : World scripted := ⟨.fresh settings, .fresh, []⟩

/-- Run a command from a world whose trace is empty. -/
def runOne (c : Command) (w : World scripted) : Step × World scripted :=
  let (answer, w) := (run scripted nesting c.program).run { w with trace := [] }
  let m := w.client.naming
  (⟨answer.shown m, w.trace.map (shownEvent m), w.stack, w.client⟩, w)

/-- Run commands one by one. -/
def runAll : List Command → World scripted → List Step × World scripted
  | [], w => ([], w)
  | c :: cs, w =>
    let (step, w) := runOne c w
    let (steps, w) := runAll cs w
    (step :: steps, w)

end FileSharing.Scenario
