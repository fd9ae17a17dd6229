import FileSharing.Proofs.Calm

/-!
# An event loop and its threads

Whatever the turns of a loop's threads are, its jobs begin once and in order, and a thread that
returns from `stop` leaves no job behind.  A caller that has the loop to itself is a special case:
each of its calls is a sequence of turns, in which the worker runs only while the caller waits for
it to end.

## Main definitions

* `Threads.MayStop`, `Threads.MayReturn` — the moments at which `stop` begins and ends.
* `Loop.call` — a call of a caller that has the loop to itself.
* `Threads.IsQuiet` — what the threads are between two such calls.

## Main results

* `Threads.jobs_in_order` — **every job runs once and in order**, and none is left by `stop`.
* `Threads.exists_exec_isQuiet` — **the calls of one caller are turns of threads.**
* `Loop.calls_in_order` — jobs in order, for one caller.
-/

namespace FileSharing.EventLoop

namespace Threads

variable {T : Type} [DecidableEq T] {m : Threads T} {t : T}

/-! ### Stopping -/

/-- A thread may call `stop` and wait for the worker. -/
def MayStop (m : Threads T) (t : T) : Prop :=
  m.isFree t = true ∧ m.loop.running = true ∧ m.stopper = none

/-- A thread that waits for the worker may return. -/
def MayReturn (m : Threads T) (t : T) : Prop := m.stopper = some t ∧ m.alive = false

theorem exec_append (m : Threads T) (turns turns' : List (Turn T)) :
    m.exec (turns ++ turns') = (m.exec turns).exec turns' := List.foldl_append

theorem act_stop (h : m.MayStop t) :
    m.act (.call t .stop) = { m with stopRequested := true, stopper := some t } := by
  rw [act, if_pos h.1, called, if_pos h.2]

theorem act_return (hs : m.IsSound) (h : m.MayReturn t) :
    m.act (.go (some t))
      = { m with loop := { m.loop with running := false }, stopper := none } := by
  rw [act_go_idle (hs.waits t h.1).2]
  exact if_pos h

variable [Fintype T]

/-- The jobs that are begun and those that wait are the jobs posted. -/
theorem begun_append_queue (turns : List (Turn T)) :
    (fresh.exec turns).loop.begun ++ (fresh.exec turns).loop.queue
      = (jobs ((fresh : Threads T).posted turns)).reduceOption := by
  obtain ⟨begins, hmoves⟩ := exists_moves_exec (isSound_fresh (T := T)) turns
  rw [hmoves.begun]
  exact hmoves.queue

/-- The jobs that are begun have ended or are on a stack. -/
theorem length_begun (turns : List (Turn T)) :
    (fresh.exec turns).loop.begun.length
      = (fresh : Threads T).ended turns + (fresh.exec turns).inProgress := by
  obtain ⟨begins, hmoves⟩ := exists_moves_exec (isSound_fresh (T := T)) turns
  have hnone : (fresh : Threads T).inProgress = 0 := Finset.sum_eq_zero fun _ _ => rfl
  have hprogress := hmoves.progress
  have hbegun : (fresh.exec turns).loop.begun = begins := hmoves.begun
  rw [hbegun]
  omega

/-- A worker that has been asked to stop leaves an empty queue. -/
theorem isDrained_of_stop (hs : m.IsSound) (h : m.MayStop t) {during : List (Turn T)}
    (hposts : ∀ p ∈ (m.act (.call t .stop)).posted during, p.1 = none) :
    ((m.act (.call t .stop)).exec during).IsDrained := by
  have halive := (hs.works h.2.1 h.2.2).1
  refine IsDrained.exec (fun hdead => ?_) (hs.acts (m.acts_act _)) hposts
  rw [act_stop h] at hdead
  exact absurd hdead (by simp [halive])

/-- **Every job runs once and in order**, whatever the threads do: the jobs begun, with the queue
after them, are the jobs posted; those begun have ended or are on a stack; and a job that throws
changes nothing for the others.  A thread returns from `stop` with an empty queue, unless another
one has posted meanwhile. -/
theorem jobs_in_order (turns : List (Turn T)) :
    let m := (fresh : Threads T).exec turns
    let posted := (jobs ((fresh : Threads T).posted turns)).reduceOption
    m.loop.begun ++ m.loop.queue = posted ∧
      m.loop.begun.length = (fresh : Threads T).ended turns + m.inProgress ∧
      fresh.exec (turns.map Turn.calm) = m.calm ∧
      ∀ before t during, turns = before ++ .call t .stop :: during →
        let asked := (fresh : Threads T).exec before
        asked.MayStop t → (∀ p ∈ (asked.act (.call t .stop)).posted during, p.1 = none) →
        m.MayReturn t →
        let m' := m.act (.go (some t))
        m'.isFree t = true ∧ m'.loop.running = false ∧ m'.loop.queue = [] ∧
          m'.loop.begun = posted ∧ m'.stack none = [] ∧
          ((∀ u, m'.stack (some u) = []) →
            (fresh : Threads T).ended turns = posted.length) := by
  have hsound : (fresh.exec turns : Threads T).IsSound := isSound_fresh.exec turns
  have horder := begun_append_queue turns
  have hcount := length_begun turns
  refine ⟨horder, hcount, exec_calm isSound_fresh turns, ?_⟩
  intro before t during hturns asked hstop hposts hreturn m'
  have hexec : fresh.exec turns = (asked.act (.call t .stop)).exec during := by
    rw [hturns, exec_append]
    rfl
  have hqueue : (fresh.exec turns).loop.queue = [] := by
    have hdrained := isDrained_of_stop (isSound_fresh.exec before) hstop hposts
    rw [← hexec] at hdrained
    exact hdrained hreturn.2
  have hm' : m' = { fresh.exec turns with
      loop := { (fresh.exec turns).loop with running := false }, stopper := none } :=
    act_return hsound hreturn
  have hbegun : (fresh.exec turns).loop.begun
      = (jobs ((fresh : Threads T).posted turns)).reduceOption := by
    rw [hqueue, List.append_nil] at horder
    exact horder
  have hworker : (fresh.exec turns).stack none = [] := hsound.idles hreturn.2
  have hstopper : (fresh.exec turns).stack (some t) = [] := (hsound.waits t hreturn.1).2
  rw [hm']
  refine ⟨isFree_iff.mpr ⟨hstopper, nofun⟩, rfl, hqueue, hbegun, hworker, fun hothers => ?_⟩
  have hall : (fresh.exec turns).inProgress = 0 := by
    refine Finset.sum_eq_zero fun who _ => ?_
    cases who with
    | none => rw [hworker, inProgress_nil]
    | some u => exact congrArg EventLoop.inProgress (hothers u)
  rw [← hbegun, hcount, hall, Nat.add_zero]

/-- A job that posts another one and throws. -/
def faultyJob : Job := ⟨"a", .post "b" .done (.throw "x")⟩

/-- Two threads post a job and nothing at all; a worker begins it. -/
def begunTurns : List (Turn (Fin 2)) :=
  [.call 0 (.post (some faultyJob)), .call 1 (.post none), .call 0 .start, .go none]

/-- The worker runs the job, and the one that it posts, and ends. -/
def stoppedTurns : List (Turn (Fin 2)) := List.replicate 5 (.go none)

theorem jobs_in_order_faultyJob :
    let turns := begunTurns ++ .call 0 .stop :: stoppedTurns
    let m := ((fresh : Threads (Fin 2)).exec turns).act (.go (some 0))
    m.isFree 0 = true ∧ m.loop.queue = [] ∧ m.loop.begun = [faultyJob, ⟨"b", .done⟩] ∧
      (fresh : Threads (Fin 2)).ended turns = 2 := by
  intro turns m
  have hstop : ((fresh : Threads (Fin 2)).exec begunTurns).MayStop 0 := ⟨rfl, rfl, rfl⟩
  have hposts : ∀ p ∈ (((fresh : Threads (Fin 2)).exec begunTurns).act (.call 0 .stop)).posted
      stoppedTurns, p.1 = none := by decide
  have hreturn : ((fresh : Threads (Fin 2)).exec turns).MayReturn 0 := ⟨rfl, rfl⟩
  obtain ⟨hfree, -, hqueue, hbegun, -, hended⟩ :=
    (jobs_in_order turns).2.2.2 begunTurns 0 stoppedTurns rfl hstop hposts hreturn
  exact ⟨hfree, hqueue, hbegun, hended (by decide)⟩

end Threads

/-! ### One caller -/

namespace Loop

/-- A call of a caller that has the loop to itself. -/
def call (l : Loop) : Call → Loop
  | .post job => l.post job
  | .processOne => l.processOne.2
  | .processAll => l.processAll
  | .start => l.start
  | .stop => l.stop

theorem run_nil (l : Loop) : l.run [] = l := by rw [run]

theorem run_cons (l : Loop) (frame : Frame) (stack : List Frame) :
    l.run (frame :: stack) = (l.step (frame :: stack)).1.run (l.step (frame :: stack)).2 := by
  rw [run]

/-- What is below the top frame of a stack stays there in a step. -/
theorem step_append (l : Loop) (frame : Frame) (stack below : List Frame) :
    l.step (frame :: stack ++ below)
      = ((l.step (frame :: stack)).1, (l.step (frame :: stack)).2 ++ below) := by
  cases frame with
  | report h => rfl
  | draining =>
    cases hbegin : l.begin? with
    | none => simp [step, hbegin]
    | some p => simp [step, hbegin]
  | job work =>
    cases work with
    | processOne rest =>
      cases hbegin : l.begin? with
      | none => simp [step, hbegin]
      | some p => simp [step, hbegin]
    | _ => rfl

end Loop

namespace Threads

variable {T : Type} [DecidableEq T] {m : Threads T} {l : Loop} {t : T}

/-- A thread that runs a job takes the next step of its stack. -/
theorem act_go_put (m : Threads T) (who : Option T) (l : Loop) (frame : Frame)
    (stack : List Frame) :
    (m.put who l (frame :: stack)).act (.go who)
      = m.put who (l.step (frame :: stack)).1 (l.step (frame :: stack)).2 := by
  rw [act_go (by simp), advance, put_stack_self, put_loop, put_put]

/-- A thread that goes on and on comes to the end of its stack. -/
theorem exists_exec_run (m : Threads T) (who : Option T) (l : Loop) (stack : List Frame) :
    ∃ turns, (m.put who l stack).exec turns = m.put who (l.run stack) [] := by
  induction l, stack using Loop.run.induct with
  | case1 l => exact ⟨[], by rw [Loop.run_nil]; rfl⟩
  | case2 l frame stack _ ih =>
    obtain ⟨turns, hturns⟩ := ih
    refine ⟨.go who :: turns, ?_⟩
    rw [Loop.run_cons, ← hturns, ← act_go_put]
    rfl

/-- A worker that goes on and on runs all jobs, and finds the queue empty. -/
theorem exists_exec_drain (halive : m.alive = true) (l : Loop) (stack : List Frame) :
    (∃ turns, (m.put none l stack).exec turns = m.put none (l.run (stack ++ [.draining])) []) ∧
      (l.run (stack ++ [.draining])).begin? = none := by
  -- the induction follows `run`, where the stack is above the call that drains the queue
  generalize hstack : stack ++ [.draining] = below
  induction l, below using Loop.run.induct generalizing stack with
  | case1 l => simp at hstack
  | case2 l frame below _ ih =>
    rw [Loop.run_cons]
    cases stack with
    | nil =>
      -- the worker is between two jobs, and begins the next one if there is one
      obtain ⟨rfl, rfl⟩ := List.cons.inj hstack
      cases hbegin : l.begin? with
      | none =>
        have hstep : l.step [.draining] = (l, []) := by simp [Loop.step, hbegin]
        rw [hstep, Loop.run_nil]
        exact ⟨⟨[], rfl⟩, hbegin⟩
      | some p =>
        have hstep : l.step [.draining] = (p.2, [.job p.1, .draining]) := by
          simp [Loop.step, hbegin]
        obtain ⟨⟨turns, hturns⟩, hempty⟩ := ih [.job p.1] (by rw [hstep]; rfl)
        rw [hstep] at hturns hempty ⊢
        refine ⟨⟨.go none :: turns, ?_⟩, hempty⟩
        have hact : (m.put none l []).act (.go none) = m.put none p.2 [.job p.1] := by
          rw [act_go_idle (by simp)]
          simp [wake, take?, halive, hbegin]
        rw [← hturns, ← hact]
        rfl
    | cons top rest =>
      rw [List.cons_append] at hstack
      obtain ⟨rfl, rfl⟩ := List.cons.inj hstack
      have hstep := l.step_append top rest [.draining]
      rw [List.cons_append] at hstep
      obtain ⟨⟨turns, hturns⟩, hempty⟩ := ih (l.step (top :: rest)).2 (by rw [hstep])
      rw [hstep] at hturns hempty ⊢
      refine ⟨⟨.go none :: turns, ?_⟩, hempty⟩
      rw [← hturns, ← act_go_put]
      rfl

/-- Between two calls of a caller that has the loop to itself, nobody does anything. -/
structure IsQuiet (m : Threads T) (l : Loop) : Prop where
  loop : m.loop = l
  idle : ∀ who, m.stack who = []
  stopper : m.stopper = none

theorem IsQuiet.isFree (h : m.IsQuiet l) (t : T) : m.isFree t = true :=
  isFree_iff.mpr ⟨h.idle _, by simp [h.stopper]⟩

/-- A thread that has come to the end of its stack is quiet again. -/
theorem IsQuiet.put (h : m.IsQuiet l) (who : Option T) (l' : Loop) :
    (m.put who l' []).IsQuiet l' where
  loop := rfl
  idle := fun who' => by
    by_cases heq : who' = who
    · rw [heq, put_stack_self]
    · rw [put_stack_of_ne heq, h.idle]
  stopper := h.stopper

theorem put_eq_self {who : Option T} (hloop : m.loop = l) (hidle : m.stack who = []) :
    m.put who l [] = m := by
  have hstack : Function.update m.stack who [] = m.stack := by
    rw [← hidle, Function.update_eq_self]
  rw [put, hstack, ← hloop]

/-- A caller that stops the worker waits until all jobs have been run. -/
theorem IsQuiet.stop (h : m.IsQuiet l) (hs : m.IsSound) (hrunning : l.running = true) (t : T) :
    ∃ turns, (m.exec turns).IsQuiet { l.processAll with running := false } := by
  have hstop : m.MayStop t := ⟨h.isFree t, by rw [h.loop, hrunning], h.stopper⟩
  have halive : m.alive = true := (hs.works hstop.2.1 hstop.2.2).1
  let asked : Threads T := { m with stopRequested := true, stopper := some t }
  obtain ⟨⟨turns, hturns⟩, hempty⟩ := exists_exec_drain (m := asked) halive l []
  rw [put_eq_self (m := asked) h.loop (h.idle none)] at hturns
  let drained : Threads T := asked.put none l.processAll []
  let ended : Threads T := { drained with alive := false }
  have hidle : ∀ who, drained.stack who = [] := fun who => by
    by_cases hworker : who = none
    · rw [hworker]
      exact asked.put_stack_self none l.processAll []
    · exact (put_stack_of_ne (m := asked) hworker _ _).trans (h.idle who)
  have hend : drained.act (.go none) = ended := by
    have hnone : drained.take? none = none := by
      rw [take?, show drained.loop.begin? = none from hempty, Option.map_none]
    rw [act_go_idle (hidle none)]
    change drained.wake = ended
    rw [wake, if_pos (show drained.alive = true from halive), hnone]
    rfl
  have hexec : m.exec (.call t .stop :: (turns ++ [.go none])) = ended := by
    change (m.act (.call t .stop)).exec (turns ++ [.go none]) = ended
    rw [act_stop hstop, exec_append, hturns]
    exact hend
  have hsound : ended.IsSound := by
    rw [← hexec]
    exact hs.exec _
  refine ⟨.call t .stop :: (turns ++ [.go none]) ++ [.go (some t)], ?_⟩
  rw [exec_append, hexec]
  change (ended.act (.go (some t))).IsQuiet _
  rw [act_return hsound ⟨rfl, rfl⟩]
  exact ⟨rfl, hidle, rfl⟩

/-- **A call of one caller is a sequence of turns.** -/
theorem IsQuiet.call (h : m.IsQuiet l) (hs : m.IsSound) (t : T) (c : Call) :
    ∃ turns, (m.exec turns).IsQuiet (l.call c) := by
  have hcall : ∀ c, m.act (.call t c) = m.called t c := fun c => if_pos (h.isFree t)
  cases c with
  | post job =>
    refine ⟨[.call t (.post job)], ?_⟩
    change (m.act (.call t (.post job))).IsQuiet _
    rw [hcall]
    exact ⟨congrArg (Loop.post · job) h.loop, h.idle, h.stopper⟩
  | processOne =>
    cases hbegin : l.begin? with
    | none => exact ⟨[], by simpa [Loop.call, Loop.processOne, hbegin, exec] using h⟩
    | some p =>
      obtain ⟨turns, hturns⟩ := m.exists_exec_run (some t) p.2 [.job p.1]
      refine ⟨.call t .processOne :: turns, ?_⟩
      have hact : m.act (.call t .processOne) = m.put (some t) p.2 [.job p.1] := by
        rw [hcall]
        simp [called, take?, h.loop, hbegin]
      have hone : l.call .processOne = p.2.run [.job p.1] := by
        simp [Loop.call, Loop.processOne, hbegin]
      change ((m.act (.call t .processOne)).exec turns).IsQuiet _
      rw [hact, hturns, hone]
      exact h.put _ _
  | processAll =>
    obtain ⟨turns, hturns⟩ := m.exists_exec_run (some t) l [.draining]
    refine ⟨.call t .processAll :: turns, ?_⟩
    change ((m.act (.call t .processAll)).exec turns).IsQuiet _
    rw [hcall, called, h.loop, hturns]
    exact h.put _ _
  | start =>
    refine ⟨[.call t .start], ?_⟩
    change (m.act (.call t .start)).IsQuiet l.start
    rw [hcall, called, h.loop]
    split
    · next hrunning =>
      have hstart : l.start = l := by rw [Loop.start, ← hrunning]
      rwa [hstart]
    · exact ⟨rfl, h.idle, h.stopper⟩
  | stop =>
    by_cases hrunning : l.running = true
    · have hstop : l.call .stop = { l.processAll with running := false } := if_pos hrunning
      rw [hstop]
      exact h.stop hs hrunning t
    · have hstop : l.call .stop = l := if_neg hrunning
      exact ⟨[], by rwa [hstop]⟩

/-- **The calls of one caller are turns of threads.** -/
theorem exists_exec_isQuiet (t : T) (calls : List Call) :
    ∃ turns, ((fresh : Threads T).exec turns).IsQuiet (calls.foldl Loop.call .empty) := by
  induction calls using List.reverseRecOn with
  | nil => exact ⟨[], rfl, fun _ => rfl, rfl⟩
  | append_singleton calls c ih =>
    obtain ⟨turns, hquiet⟩ := ih
    obtain ⟨turns', hcall⟩ := hquiet.call (isSound_fresh.exec turns) t c
    refine ⟨turns ++ turns', ?_⟩
    rw [exec_append, List.foldl_append]
    exact hcall

end Threads

/-- **Jobs in order, for one caller**: the jobs begun and those that wait are those that have
entered the queue, and no job is lost or overtaken. -/
theorem Loop.calls_in_order (calls : List Call) :
    let l := calls.foldl Loop.call .empty
    l.begun ++ l.queue = l.posted := by
  intro l
  obtain ⟨turns, hquiet⟩ := Threads.exists_exec_isQuiet () calls
  obtain ⟨begins, hmoves⟩ := Threads.exists_moves_exec (Threads.isSound_fresh (T := Unit)) turns
  have hposted : l.posted = _ := hquiet.loop ▸ hmoves.posted
  have hbegun : l.begun = _ := hquiet.loop ▸ hmoves.begun
  have hqueue := hquiet.loop ▸ hmoves.queue
  rw [hposted, hbegun]
  exact hqueue

end FileSharing.EventLoop
