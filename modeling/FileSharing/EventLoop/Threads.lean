import FileSharing.EventLoop
import Mathlib.Logic.Function.Basic

/-!
# Threads around an event loop

A loop is shared by its worker and by any number of other threads.  Each of them runs jobs on a
stack of its own; what they share is the loop.  The lock of the loop makes each of the following
one step: to post a job, to take the first job from the queue, to ask the worker to stop, and the
worker's decision to end.  A turn is one such step of one thread, and a run is any sequence of
turns.

A thread that runs no job may call the loop.  `stop` is two turns: the thread asks the worker to
stop, and it returns once the worker has ended.  Two threads must not wait for one worker, so a
second `stop` has to wait until the first one has returned.

## Main definitions

* `Call`, `Turn` — what a thread asks of the loop, and a step of one of the threads.
* `Threads` — the loop with all its threads.
* `Threads.act`, `Threads.exec` — a turn, and a sequence of turns.
* `Threads.posts`, `Threads.posted` — the calls of `post` that turns make.
* `Threads.ends`, `Threads.ended` — the jobs that come to their end in them.
-/

namespace FileSharing.EventLoop

/-- What a thread asks of the loop. -/
inductive Call where
  /-- Post a job, or nothing at all. -/
  | post (job : Option Job)
  /-- Run the first job of the queue, if there is one. -/
  | processOne
  /-- Run jobs until the queue is empty. -/
  | processAll
  /-- Start the worker. -/
  | start
  /-- Stop the worker. -/
  | stop
  deriving DecidableEq, Repr

/-- A step of one of the threads.  The worker is no thread of `T`. -/
inductive Turn (T : Type) where
  /-- A thread calls the loop. -/
  | call (t : T) (c : Call)
  /-- The worker, or another thread, goes on with what it is doing. -/
  | go (who : Option T)
  deriving DecidableEq, Repr

/-- A loop with its worker and the other threads. -/
structure Threads (T : Type) where
  /-- What they share. -/
  loop : Loop
  /-- Whether the worker has been asked to stop. -/
  stopRequested : Bool
  /-- Whether the worker has been started and has not ended yet. -/
  alive : Bool
  /-- The thread that waits for the worker to end. -/
  stopper : Option T
  /-- The stack of the worker, and those of the other threads. -/
  stack : Option T → List Frame

/-! ### The steps of a stack -/

/-- The calls of `post` that the next step of a stack makes. -/
def stackPosts : List Frame → List (Option Job)
  | .job (.post name work _) :: _ => [some ⟨name, work⟩]
  | .job (.postNothing _) :: _ => [none]
  | _ => []

/-- The jobs that come to their end in the next step of a stack. -/
def stackEnds : List Frame → Nat
  | .job .done :: _ => 1
  | .job (.throw _) :: _ => 1
  | _ => 0

namespace Threads

variable {T : Type} [DecidableEq T]

/-- A new loop, with threads that do nothing. -/
def fresh : Threads T := ⟨.empty, false, false, none, fun _ => []⟩

/-- Whether a thread may call the loop: it runs no job, and waits for nothing. -/
def isFree (m : Threads T) (t : T) : Bool := (m.stack (some t)).isEmpty && m.stopper != some t

/-- A thread changes the loop and its stack. -/
def put (m : Threads T) (who : Option T) (l : Loop) (stack : List Frame) : Threads T :=
  { m with loop := l, stack := Function.update m.stack who stack }

@[simp] theorem put_loop (m : Threads T) (who : Option T) (l : Loop) (stack : List Frame) :
    (m.put who l stack).loop = l := rfl

@[simp] theorem put_alive (m : Threads T) (who : Option T) (l : Loop) (stack : List Frame) :
    (m.put who l stack).alive = m.alive := rfl

@[simp] theorem put_stopRequested (m : Threads T) (who : Option T) (l : Loop)
    (stack : List Frame) : (m.put who l stack).stopRequested = m.stopRequested := rfl

@[simp] theorem put_stopper (m : Threads T) (who : Option T) (l : Loop) (stack : List Frame) :
    (m.put who l stack).stopper = m.stopper := rfl

@[simp] theorem put_stack_self (m : Threads T) (who : Option T) (l : Loop) (stack : List Frame) :
    (m.put who l stack).stack who = stack := Function.update_self ..

@[simp] theorem put_stack_of_ne {m : Threads T} {who who' : Option T} (hne : who' ≠ who) (l : Loop)
    (stack : List Frame) : (m.put who l stack).stack who' = m.stack who' :=
  Function.update_of_ne hne ..

@[simp] theorem put_put (m : Threads T) (who : Option T) (l l' : Loop) (stack stack' : List Frame) :
    (m.put who l stack).put who l' stack' = m.put who l' stack' := by
  simp [put]

/-- A thread begins the first job of the queue, if there is one. -/
def take? (m : Threads T) (who : Option T) : Option (Threads T) :=
  m.loop.begin?.map fun (work, l) => m.put who l [.job work]

/-- A thread goes on with a job. -/
def advance (m : Threads T) (who : Option T) (stack : List Frame) : Threads T :=
  m.put who (m.loop.step stack).1 (m.loop.step stack).2

/-- The worker, which runs no job, begins one; or it ends, if it has been asked to stop; or it
waits. -/
def wake (m : Threads T) : Threads T :=
  if m.alive then
    match m.take? none with
    | some m => m
    | none => if m.stopRequested then { m with alive := false } else m
  else m

/-- A thread returns from `stop` if the worker has ended. -/
def returnFromStop (m : Threads T) (t : T) : Threads T :=
  if m.stopper = some t ∧ m.alive = false then
    { m with loop := { m.loop with running := false }, stopper := none }
  else m

/-- A thread calls the loop. -/
def called (m : Threads T) (t : T) : Call → Threads T
  | .post job => { m with loop := m.loop.post job }
  | .processOne => (m.take? (some t)).getD m
  | .processAll => m.put (some t) m.loop [.draining]
  | .start =>
    if m.loop.running then m else { m with loop := m.loop.start, stopRequested := false, alive := true }
  | .stop =>
    if m.loop.running ∧ m.stopper = none then { m with stopRequested := true, stopper := some t }
    else m

/-- A turn.  It changes nothing where the thread cannot take it. -/
def act (m : Threads T) : Turn T → Threads T
  | .call t c => if m.isFree t then m.called t c else m
  | .go who =>
    match m.stack who, who with
    | frame :: stack, who => m.advance who (frame :: stack)
    | [], none => m.wake
    | [], some t => m.returnFromStop t

/-- A sequence of turns. -/
def exec (m : Threads T) (turns : List (Turn T)) : Threads T := turns.foldl act m

/-! ### What turns do -/

/-- The calls of `post` that a turn makes, with the thread that makes them. -/
def posts (m : Threads T) : Turn T → List (Option T × Option Job)
  | .call t (.post job) => if m.isFree t then [(some t, job)] else []
  | .call _ _ => []
  | .go who => (stackPosts (m.stack who)).map (who, ·)

/-- The calls of `post` in a sequence of turns, in order. -/
def posted (m : Threads T) : List (Turn T) → List (Option T × Option Job)
  | [] => []
  | turn :: turns => m.posts turn ++ (m.act turn).posted turns

/-- The jobs that come to their end in a turn. -/
def ends (m : Threads T) : Turn T → Nat
  | .call _ _ => 0
  | .go who => stackEnds (m.stack who)

/-- The jobs that come to their end in a sequence of turns. -/
def ended (m : Threads T) : List (Turn T) → Nat
  | [] => 0
  | turn :: turns => m.ends turn + (m.act turn).ended turns

end Threads

end FileSharing.EventLoop
