import FileSharing.Proofs.Schedules
import Mathlib.Data.List.Perm.Basic

/-!
# Draining a queue comes to its end

A job is a finite tree: it posts jobs, which post jobs in turn.  Where a queue is drained, each of
these jobs begins once, be it by the call that drains the queue or by one that a job makes.  What
is left to do is the jobs of the queue and those that are still to be posted by the frames of a
stack, with all that comes of them; a step moves a job from one place to another, or begins it.

## Main definitions

* `Job.tree` — a job with all jobs that come of it.
* `due` — the jobs that are still to begin.
* `Loop.steps` — several steps of a stack.

## Main results

* `Loop.exists_begins_run` — **what begins is what was due**, but for what is left in the queue.
* `Loop.exists_steps_run` — a stack comes to its end, whatever is below it.
* `Loop.processAll_drains` — **every job of every tree begins once, and the queue is empty.**
-/

namespace FileSharing.EventLoop

/-! ### Trees of jobs -/

/-- The jobs that some work posts, each with those that come of it. -/
def Work.jobs : Work → List Job
  | .done => []
  | .throw _ => []
  | .post name work rest => ⟨name, work⟩ :: (work.jobs ++ rest.jobs)
  | .postNothing rest => rest.jobs
  | .processOne rest => rest.jobs
  | .processAll rest => rest.jobs

/-- A job with all jobs that come of it. -/
def Job.tree (job : Job) : List Job := job :: job.work.jobs

/-- The jobs that are to come of a frame, apart from those that it takes from the queue. -/
def Frame.jobs : Frame → List Job
  | .job work => work.jobs
  | .draining => []
  | .report _ => []

/-- The jobs that are still to begin. -/
def due (queue : List Job) (stack : List Frame) : List Job :=
  queue.flatMap Job.tree ++ stack.flatMap Frame.jobs

@[simp] theorem count_due (job : Job) (queue : List Job) (stack : List Frame) :
    (due queue stack).count job
      = (queue.flatMap Job.tree).count job + (stack.flatMap Frame.jobs).count job :=
  List.count_append

namespace Loop

variable {l : Loop}

/-! ### Steps -/

/-- A job that is taken from the queue begins, and what it posts is due on the stack. -/
theorem exists_begins_begin {work : Work} {l' : Loop} {above below : List Frame}
    (h : l.begin? = some (work, l'))
    (hjobs : ∀ job, (above.flatMap Frame.jobs).count job
      = work.jobs.count job + (below.flatMap Frame.jobs).count job) :
    ∃ begins, l'.begun = l.begun ++ begins ∧
      (begins ++ due l'.queue above).Perm (due l.queue below) := by
  obtain ⟨job, rfl, hmoves⟩ := moves_begin h
  refine ⟨[job], hmoves.begun, List.perm_iff_count.mpr fun job' => ?_⟩
  have hqueue : job :: l'.queue = l.queue := by
    simpa [List.reduceOption] using hmoves.queue
  rw [← hqueue]
  simp [Job.tree, hjobs, List.count_cons]
  omega

/-- **What a step does to the jobs that are due**: one of them begins, or none. -/
theorem exists_begins_step (l : Loop) {stack : List Frame} (hplain : IsPlain stack) :
    ∃ begins, (l.step stack).1.begun = l.begun ++ begins ∧
      (begins ++ due (l.step stack).1.queue (l.step stack).2).Perm (due l.queue stack) := by
  match stack with
  | [] => exact ⟨[], by simp [step], by simp [step]⟩
  | .report h :: stack =>
    have hreturn := Happening.isReturn_spec hplain.1
    exact ⟨[], (moves_note hreturn).begun, by simp [step, due, note, Frame.jobs]⟩
  | .draining :: stack =>
    cases hbegin : l.begin? with
    | none => exact ⟨[], by simp [step, hbegin], by simp [step, hbegin, due, Frame.jobs]⟩
    | some p =>
      simp only [step, hbegin]
      exact exists_begins_begin hbegin fun job => by simp [Frame.jobs]
  | .job work :: stack =>
    cases work with
    | done => exact ⟨[], by simp [step], by simp [step, due, Frame.jobs, Work.jobs]⟩
    | throw message =>
      refine ⟨[], (moves_note ⟨rfl, rfl⟩).begun, ?_⟩
      simp [step, due, note, Frame.jobs, Work.jobs]
    | post name work rest =>
      refine ⟨[], (l.moves_post (some ⟨name, work⟩)).begun, ?_⟩
      simp [step, due, push, note, Frame.jobs, Work.jobs, Job.tree]
    | postNothing rest => exact ⟨[], by simp [step], by simp [step, due, Frame.jobs, Work.jobs]⟩
    | processOne rest =>
      cases hbegin : l.begin? with
      | none =>
        refine ⟨[], by simpa [step, hbegin] using (moves_note ⟨rfl, rfl⟩).begun, ?_⟩
        simp [step, hbegin, due, note, Frame.jobs, Work.jobs]
      | some p =>
        simp only [step, hbegin]
        exact exists_begins_begin hbegin fun job => by simp [Frame.jobs, Work.jobs]
    | processAll rest =>
      exact ⟨[], by simp [step], by simp [step, due, Frame.jobs, Work.jobs]⟩

/-- **What begins is what was due**, but for what is left in the queue. -/
theorem exists_begins_run (l : Loop) {stack : List Frame} (hplain : IsPlain stack) :
    ∃ begins, (l.run stack).begun = l.begun ++ begins ∧
      (begins ++ (l.run stack).queue.flatMap Job.tree).Perm (due l.queue stack) := by
  induction l, stack using Loop.run.induct with
  | case1 l => exact ⟨[], by simp [run_nil], by simp [run_nil, due]⟩
  | case2 l frame stack _ ih =>
    obtain ⟨begins, hbegun, hdue⟩ := l.exists_begins_step hplain
    obtain ⟨begins', hbegun', hdue'⟩ := ih (l.isPlain_step hplain)
    rw [run_cons]
    refine ⟨begins ++ begins', by rw [hbegun', hbegun, List.append_assoc], ?_⟩
    rw [List.append_assoc]
    exact (hdue'.append_left begins).trans hdue

/-! ### Coming to an end -/

/-- Several steps of a stack. -/
def steps : Nat → Loop → List Frame → Loop × List Frame
  | 0, l, stack => (l, stack)
  | n + 1, l, stack => steps n (l.step stack).1 (l.step stack).2

/-- A stack comes to its end, whatever is below it, and what is outstanding bounds its steps. -/
theorem exists_steps_run (l : Loop) (stack below : List Frame) :
    ∃ n ≤ outstanding l.queue stack, l.steps n (stack ++ below) = (l.run stack, below) := by
  induction l, stack using Loop.run.induct with
  | case1 l => exact ⟨0, Nat.zero_le _, by rw [run_nil]; rfl⟩
  | case2 l frame stack hlt ih =>
    obtain ⟨n, hn, hsteps⟩ := ih
    refine ⟨n + 1, Nat.lt_of_le_of_lt hn hlt, ?_⟩
    rw [steps, step_append, run_cons]
    exact hsteps

/-- The queue is empty where it has been drained. -/
theorem queue_processAll (l : Loop) : l.processAll.queue = [] := by
  -- a worker that goes on with its jobs finds the queue as the call leaves it
  have hdrain := Threads.exists_exec_drain
    (m := { (Threads.fresh : Threads Unit) with alive := true }) rfl l []
  exact queue_eq_nil_of_begin hdrain.2

/-- **Every job of every tree begins once, and the queue is empty**: a call that drains the queue
returns after a bounded number of steps, at whatever depth it is made, and what has begun by then
is all jobs of the queue, all that they post, and no other. -/
theorem processAll_drains (l : Loop) :
    (∀ below, ∃ n ≤ outstanding l.queue [.draining],
        l.steps n (.draining :: below) = (l.processAll, below)) ∧
      l.processAll.queue = [] ∧
      ∃ begins, l.processAll.begun = l.begun ++ begins ∧
        begins.Perm (l.queue.flatMap Job.tree) := by
  refine ⟨fun below => l.exists_steps_run [.draining] below, l.queue_processAll, ?_⟩
  have hplain : IsPlain [.draining] := trivial
  obtain ⟨begins, hbegun, hdue⟩ := l.exists_begins_run hplain
  refine ⟨begins, hbegun, ?_⟩
  change (begins ++ l.processAll.queue.flatMap Job.tree).Perm _ at hdue
  rw [l.queue_processAll] at hdue
  simpa [due, Frame.jobs] using hdue

end Loop

end FileSharing.EventLoop
