import FileSharing.Text

/-!
# The event loop

Jobs wait in a queue and are run in the order in which they were posted, by the
caller of `processOne` and `processAll` or, between `start` and `stop`, by a
worker.  A job is a finite tree of work: it may post further jobs, process the
queue itself, or throw, which ends this job and no other.  Exceptions are of the
standard class throughout, which has a text; one of any other kind would not be
caught, and is left out.

The loop is described step by step.  Whoever runs jobs has a stack of frames: the
rest of each job begun and not yet ended, and the processing calls around them.
Every step makes the outstanding work smaller (`Loop.outstanding_step_lt`), so running
a stack to its end needs no bound.

## Main definitions

* `Work`, `Job` — what a job does, and a job with its name.
* `Loop.step` — one step of a stack of frames.
* `Loop.run` — the loop after a stack has come to its end.
* `Loop.post`, `Loop.processOne`, `Loop.processAll`, `Loop.start`, `Loop.stop` —
  the operations of a caller.
-/

namespace FileSharing.EventLoop

/-- What a job does, in order. -/
inductive Work where
  /-- Nothing more. -/
  | done
  /-- Throw an exception of the standard class, with this text. -/
  | throw (message : Text)
  /-- Post a job. -/
  | post (name : Text) (work : Work) (rest : Work)
  /-- Post nothing at all. -/
  | postNothing (rest : Work)
  /-- Run the first job of the queue, if there is one. -/
  | processOne (rest : Work)
  /-- Run jobs until the queue is empty. -/
  | processAll (rest : Work)
  deriving DecidableEq, Repr

/-- A job in the queue. -/
structure Job where
  /-- What the job is known by. -/
  name : Text
  /-- What it does. -/
  work : Work
  deriving DecidableEq, Repr

/-- What happens in a loop. -/
inductive Happening where
  /-- A job enters the queue. -/
  | posted (job : Job)
  /-- A job leaves the queue and begins. -/
  | begun (job : Job)
  /-- A job threw an exception. -/
  | failed (message : Text)
  /-- A job's own call of `processOne` returns and says whether it ran a job. -/
  | processed (some : Bool)
  /-- A job's own call of `processAll` returns. -/
  | drained
  deriving DecidableEq, Repr

/-- The line that is logged for a job that throws. -/
def failureLog (message : Text) : Text := "Error processing job: " ++ message.visible

/-- A frame of a stack. -/
inductive Frame where
  /-- The rest of a job. -/
  | job (work : Work)
  /-- Jobs are run until the queue is empty. -/
  | draining
  /-- A processing call is about to report its end. -/
  | report (h : Happening)
  deriving DecidableEq, Repr

/-- The state of a loop. -/
structure Loop where
  /-- The jobs not yet begun, the first one at the head. -/
  queue : List Job
  /-- What has happened, in order. -/
  history : List Happening
  /-- Whether a worker has been started. -/
  running : Bool
  deriving DecidableEq, Repr

/-! ### Outstanding work -/

/-- A bound on the steps that some work still needs, the jobs it posts included. -/
def Work.size : Work → Nat
  | .done => 1
  | .throw _ => 1
  | .post _ work rest => 3 + work.size + rest.size
  | .postNothing rest => 1 + rest.size
  | .processOne rest => 3 + rest.size
  | .processAll rest => 3 + rest.size

/-- A bound on the steps that a queued job needs. -/
def Job.size (j : Job) : Nat := 1 + j.work.size

/-- A bound on the steps that a frame needs, apart from the queue. -/
def Frame.size : Frame → Nat
  | .job work => work.size
  | .draining => 1
  | .report _ => 1

/-- The sizes of all in a list together. -/
def total {α : Type} (size : α → Nat) : List α → Nat
  | [] => 0
  | a :: l => size a + total size l

theorem total_append {α : Type} (size : α → Nat) (l l' : List α) :
    total size (l ++ l') = total size l + total size l' := by
  induction l with
  | nil => simp [total]
  | cons a l ih => simp [total, ih, Nat.add_assoc]

/-- A bound on the steps that the queue and a stack need together. -/
def outstanding (queue : List Job) (stack : List Frame) : Nat :=
  total Job.size queue + total Frame.size stack

namespace Loop

/-- A new loop. -/
def empty : Loop := ⟨[], [], false⟩

/-- Write down what happens. -/
def note (l : Loop) (h : Happening) : Loop := { l with history := l.history ++ [h] }

/-- Put a job into the queue. -/
def push (l : Loop) (job : Job) : Loop := { l.note (.posted job) with queue := l.queue ++ [job] }

/-- Take the first job from the queue and begin it. -/
def begin? (l : Loop) : Option (Work × Loop) :=
  match l.queue with
  | [] => none
  | job :: queue => some (job.work, { l.note (.begun job) with queue := queue })

/-- One step of a stack of frames: the step of its top frame. -/
def step (l : Loop) : List Frame → Loop × List Frame
  | [] => (l, [])
  | .report h :: stack => (l.note h, stack)
  | .draining :: stack =>
    match l.begin? with
    | some (work, l) => (l, .job work :: .draining :: stack)
    | none => (l, stack)
  | .job work :: stack =>
    match work with
    | .done => (l, stack)
    | .throw message => (l.note (.failed message), stack)
    | .post name work rest => (l.push ⟨name, work⟩, .job rest :: stack)
    | .postNothing rest => (l, .job rest :: stack)
    | .processOne rest =>
      match l.begin? with
      | some (work, l) => (l, .job work :: .report (.processed true) :: .job rest :: stack)
      | none => (l.note (.processed false), .job rest :: stack)
    | .processAll rest => (l, .draining :: .report .drained :: .job rest :: stack)

/-- Every step of a stack that is not empty makes the outstanding work smaller. -/
theorem outstanding_step_lt (l : Loop) (frame : Frame) (stack : List Frame) :
    outstanding (l.step (frame :: stack)).1.queue (l.step (frame :: stack)).2
      < outstanding l.queue (frame :: stack) := by
  have pop : ∀ {work l'}, l.begin? = some (work, l') →
      total Job.size l.queue = 1 + work.size + total Job.size l'.queue := by
    intro work l' h
    unfold begin? at h
    split at h
    · contradiction
    · next job queue hq =>
      simp only [Option.some.injEq, Prod.mk.injEq] at h
      obtain ⟨rfl, rfl⟩ := h
      simp [hq, total, Job.size]
  cases frame with
  | report h => simp [step, outstanding, total, note, Frame.size]
  | draining =>
    simp only [step]
    split
    · next h => simp [outstanding, total, Frame.size, pop h]; omega
    · simp [outstanding, total, Frame.size]
  | job work =>
    cases work with
    | done => simp [step, outstanding, total, Frame.size, Work.size]
    | throw => simp [step, outstanding, total, note, Frame.size, Work.size]
    | post =>
      simp [step, outstanding, total, total_append, push, note, Frame.size, Work.size, Job.size]
      omega
    | postNothing => simp [step, outstanding, total, Frame.size, Work.size]
    | processOne rest =>
      simp only [step]
      split
      · next h => simp [outstanding, total, Frame.size, Work.size, pop h]; omega
      · simp [outstanding, total, note, Frame.size, Work.size]
    | processAll => simp [step, outstanding, total, Frame.size, Work.size]; omega

/-- The loop after a stack of frames has come to its end. -/
def run (l : Loop) (stack : List Frame) : Loop :=
  match stack with
  | [] => l
  | frame :: stack =>
    have := outstanding_step_lt l frame stack
    run (l.step (frame :: stack)).1 (l.step (frame :: stack)).2
termination_by outstanding l.queue stack

/-! ### The operations of a caller -/

/-- Post a job; nothing is posted where there is no job. -/
def post (l : Loop) : Option Job → Loop
  | none => l
  | some job => l.push job

/-- Run the first job of the queue; answers whether there was one. -/
def processOne (l : Loop) : Bool × Loop :=
  match l.begin? with
  | none => (false, l)
  | some (work, l) => (true, l.run [.job work])

/-- Run jobs until the queue is empty. -/
def processAll (l : Loop) : Loop := l.run [.draining]

/-- Start the worker. -/
def start (l : Loop) : Loop := { l with running := true }

/-- Stop the worker, which first runs the jobs that are left. -/
def stop (l : Loop) : Loop := if l.running then { l.processAll with running := false } else l

end Loop

end FileSharing.EventLoop
