import FileSharing.EventLoop.Threads
import Mathlib.Algebra.BigOperators.Group.Finset.Basic
import Mathlib.Data.Fintype.Option
import Mathlib.Data.List.ReduceOption

/-!
# Jobs begin in the order in which they were posted

A job leaves the queue when it begins, and it leaves it at the front; only a post call puts a job
into the queue, and puts it at the back.  So the jobs begun, with the queue after them, are the
jobs posted, whichever threads post and run them.  A job that has begun has a frame on one stack
until it comes to its end.

A worker ends only when it finds the queue empty, and from then on the queue stays empty unless
another thread posts.

## Main definitions

* `Loop.begun`, `Loop.posted` — the jobs begun so far, and those posted so far, in order.
* `Loop.Moves`, `Threads.Moves` — the queue between two moments, and the jobs on stacks.
* `Threads.Acts` — **what a turn can do**, case by case.
* `Threads.IsSound` — the worker, its flags and the thread that waits for it agree.
* `Threads.IsDrained` — a worker that has ended has left nothing in the queue.

## Main results

* `Threads.exists_moves_exec` — **jobs begin in the order in which they were posted**, and end.
* `Threads.IsDrained.exec` — the queue of a worker that has ended stays empty.
-/

namespace FileSharing.EventLoop

/-! ### The jobs begun -/

/-- The job that begins. -/
def Happening.begun? : Happening → Option Job
  | .begun job => some job
  | _ => none

/-- The job that enters the queue. -/
def Happening.posted? : Happening → Option Job
  | .posted job => some job
  | _ => none

/-- The jobs begun so far, in order. -/
def Loop.begun (l : Loop) : List Job := l.history.filterMap Happening.begun?

/-- The jobs that have entered the queue so far, in order. -/
def Loop.posted (l : Loop) : List Job := l.history.filterMap Happening.posted?

/-- Whether a happening is the return of a processing call. -/
def Happening.isReturn : Happening → Bool
  | .processed _ => true
  | .drained => true
  | _ => false

/-- Nothing begins with a return, and nothing is posted. -/
theorem Happening.isReturn_spec {h : Happening} (hreturn : h.isReturn = true) :
    h.begun? = none ∧ h.posted? = none := by
  cases h with
  | processed => exact ⟨rfl, rfl⟩
  | drained => exact ⟨rfl, rfl⟩
  | _ => cases hreturn

/-- The frames of a stack report nothing but returns. -/
def IsPlain : List Frame → Prop
  | [] => True
  | .report h :: stack => h.isReturn = true ∧ IsPlain stack
  | _ :: stack => IsPlain stack

@[simp] theorem isPlain_nil : IsPlain [] := trivial

@[simp] theorem isPlain_job (work : Work) (stack : List Frame) :
    IsPlain (.job work :: stack) ↔ IsPlain stack := Iff.rfl

@[simp] theorem isPlain_draining (stack : List Frame) :
    IsPlain (.draining :: stack) ↔ IsPlain stack := Iff.rfl

@[simp] theorem isPlain_report (h : Happening) (stack : List Frame) :
    IsPlain (.report h :: stack) ↔ h.isReturn = true ∧ IsPlain stack := Iff.rfl

/-- The jobs on a stack. -/
def inProgress : List Frame → Nat
  | [] => 0
  | .job _ :: stack => 1 + inProgress stack
  | _ :: stack => inProgress stack

@[simp] theorem inProgress_nil : inProgress [] = 0 := rfl

@[simp] theorem inProgress_job (work : Work) (stack : List Frame) :
    inProgress (.job work :: stack) = 1 + inProgress stack := rfl

@[simp] theorem inProgress_draining (stack : List Frame) :
    inProgress (.draining :: stack) = inProgress stack := rfl

@[simp] theorem inProgress_report (h : Happening) (stack : List Frame) :
    inProgress (.report h :: stack) = inProgress stack := rfl

namespace Loop

variable {l l' l'' : Loop} {posts posts' : List (Option Job)} {begins begins' : List Job}

/-- Between two moments, post calls are made and jobs begin. -/
structure Moves (l l' : Loop) (posts : List (Option Job)) (begins : List Job) : Prop where
  begun : l'.begun = l.begun ++ begins
  posted : l'.posted = l.posted ++ posts.reduceOption
  queue : begins ++ l'.queue = l.queue ++ posts.reduceOption

theorem Moves.of_eq (hhistory : l'.history = l.history) (hqueue : l'.queue = l.queue) :
    l.Moves l' [] [] :=
  ⟨by simp [Loop.begun, hhistory], by simp [Loop.posted, hhistory, List.reduceOption],
    by simp [hqueue, List.reduceOption]⟩

theorem Moves.trans (h : l.Moves l' posts begins) (h' : l'.Moves l'' posts' begins') :
    l.Moves l'' (posts ++ posts') (begins ++ begins') := by
  refine ⟨by rw [h'.begun, h.begun, List.append_assoc], by
    rw [h'.posted, h.posted, List.append_assoc, List.reduceOption_append], ?_⟩
  calc begins ++ begins' ++ l''.queue
      = begins ++ (l'.queue ++ posts'.reduceOption) := by rw [List.append_assoc, h'.queue]
    _ = l.queue ++ (posts ++ posts').reduceOption := by
      rw [← List.append_assoc, h.queue, List.append_assoc, List.reduceOption_append]

/-- Nothing begins where nothing waits and nothing is posted. -/
theorem Moves.queue_eq_nil (h : l.Moves l' [] begins) (hqueue : l.queue = []) : l'.queue = [] := by
  have hall := h.queue
  rw [hqueue] at hall
  exact (List.append_eq_nil_iff.mp hall).2

theorem moves_note {h : Happening} (hh : h.begun? = none ∧ h.posted? = none) :
    l.Moves (l.note h) [] [] :=
  ⟨by simp [Loop.begun, note, hh.1], by simp [Loop.posted, note, hh.2, List.reduceOption],
    by simp [note, List.reduceOption]⟩

theorem moves_post (l : Loop) (job : Option Job) : l.Moves (l.post job) [job] [] := by
  cases job with
  | none => exact ⟨by simp [post], by simp [post, List.reduceOption],
      by simp [post, List.reduceOption]⟩
  | some job => exact ⟨by simp [Loop.begun, post, push, note, Happening.begun?],
      by simp [Loop.posted, post, push, note, Happening.posted?], rfl⟩

/-- The job that begins is the first one of the queue. -/
theorem moves_begin {work : Work} (h : l.begin? = some (work, l')) :
    ∃ job : Job, job.work = work ∧ l.Moves l' [] [job] := by
  unfold begin? at h
  cases hqueue : l.queue with
  | nil => simp [hqueue] at h
  | cons job queue =>
    simp only [hqueue, Option.some.injEq, Prod.mk.injEq] at h
    obtain ⟨rfl, rfl⟩ := h
    exact ⟨job, rfl, by simp [Loop.begun, note, Happening.begun?],
      by simp [Loop.posted, note, Happening.posted?, List.reduceOption],
      by simp [hqueue, List.reduceOption]⟩

theorem queue_eq_nil_of_begin (h : l.begin? = none) : l.queue = [] := by
  unfold begin? at h
  cases hqueue : l.queue with
  | nil => rfl
  | cons job queue => simp [hqueue] at h

theorem running_begin {work : Work} (h : l.begin? = some (work, l')) : l'.running = l.running := by
  unfold begin? at h
  cases hqueue : l.queue with
  | nil => simp [hqueue] at h
  | cons job queue =>
    simp only [hqueue, Option.some.injEq, Prod.mk.injEq] at h
    rw [← h.2]
    rfl

/-- **A step of a stack**: jobs are posted, or one begins, or one ends. -/
theorem exists_moves_step (l : Loop) {stack : List Frame} (hplain : IsPlain stack) :
    ∃ begins, l.Moves (l.step stack).1 (stackPosts stack) begins ∧
      begins.length + inProgress stack = inProgress (l.step stack).2 + stackEnds stack := by
  match stack with
  | [] => exact ⟨[], .of_eq rfl rfl, rfl⟩
  | .report h :: stack =>
    have hreturn := Happening.isReturn_spec hplain.1
    exact ⟨[], moves_note hreturn, by simp [step, stackEnds]⟩
  | .draining :: stack =>
    cases hbegin : l.begin? with
    | none => exact ⟨[], by simp [step, hbegin, stackPosts, Moves.of_eq], by
        simp [step, hbegin, stackEnds]⟩
    | some p =>
      obtain ⟨work, l'⟩ := p
      obtain ⟨job, -, hmoves⟩ := moves_begin hbegin
      exact ⟨[job], by simpa [step, hbegin, stackPosts] using hmoves, by
        simp [step, hbegin, stackEnds]⟩
  | .job work :: stack =>
    cases work with
    | done => exact ⟨[], .of_eq rfl rfl, by simp [step, stackEnds, Nat.add_comm]⟩
    | throw message =>
      exact ⟨[], moves_note ⟨rfl, rfl⟩, by simp [step, stackEnds, Nat.add_comm]⟩
    | post name work rest =>
      exact ⟨[], l.moves_post (some ⟨name, work⟩), by
        simp [step, stackEnds]⟩
    | postNothing rest =>
      exact ⟨[], l.moves_post none, by simp [step, stackEnds]⟩
    | processOne rest =>
      cases hbegin : l.begin? with
      | none => exact ⟨[], by simpa [step, hbegin, stackPosts] using moves_note ⟨rfl, rfl⟩, by
          simp [step, hbegin, stackEnds]⟩
      | some p =>
        obtain ⟨work, l'⟩ := p
        obtain ⟨job, -, hmoves⟩ := moves_begin hbegin
        exact ⟨[job], by simpa [step, hbegin, stackPosts] using hmoves, by
          simp [step, hbegin, stackEnds]⟩
    | processAll rest =>
      exact ⟨[], .of_eq rfl rfl, by simp [step, stackEnds]⟩

/-- What a stack reports stays plain. -/
theorem isPlain_step (l : Loop) {stack : List Frame} (hplain : IsPlain stack) :
    IsPlain (l.step stack).2 := by
  fun_cases step l stack <;> simp_all [Happening.isReturn]

theorem running_step (l : Loop) (stack : List Frame) : (l.step stack).1.running = l.running := by
  fun_cases step l stack with
  | case3 stack work l' hbegin => exact running_begin hbegin
  | case9 stack rest work l' hbegin => exact running_begin hbegin
  | _ => rfl

end Loop

/-! ### Turns -/

namespace Threads

variable {T : Type} [DecidableEq T] {m m' m'' : Threads T} {turn : Turn T} {t : T}

/-- **What a turn can do.** -/
inductive Acts (m : Threads T) : Turn T → Threads T → Prop where
  /-- The thread cannot take its turn, or finds nothing to do. -/
  | nothing (turn : Turn T) (hposts : m.posts turn = []) (hends : m.ends turn = 0) : Acts m turn m
  | post (t : T) (job : Option Job) (hfree : m.isFree t = true) :
    Acts m (.call t (.post job)) { m with loop := m.loop.post job }
  /-- A thread begins a job, for a call of `processOne`. -/
  | processOne (t : T) (hfree : m.isFree t = true) {work : Work} {l : Loop}
      (hbegin : m.loop.begin? = some (work, l)) :
    Acts m (.call t .processOne) (m.put (some t) l [.job work])
  | processAll (t : T) (hfree : m.isFree t = true) :
    Acts m (.call t .processAll) (m.put (some t) m.loop [.draining])
  | start (t : T) (hstopped : m.loop.running = false) :
    Acts m (.call t .start) { m with loop := m.loop.start, stopRequested := false, alive := true }
  | stop (t : T) (hfree : m.isFree t = true) (hrunning : m.loop.running = true)
      (hnone : m.stopper = none) :
    Acts m (.call t .stop) { m with stopRequested := true, stopper := some t }
  | advance (who : Option T) (hne : m.stack who ≠ []) :
    Acts m (.go who) (m.advance who (m.stack who))
  /-- The worker begins a job. -/
  | work (hidle : m.stack none = []) (halive : m.alive = true) {work : Work} {l : Loop}
      (hbegin : m.loop.begin? = some (work, l)) :
    Acts m (.go none) (m.put none l [.job work])
  /-- The worker ends. -/
  | finish (hidle : m.stack none = []) (halive : m.alive = true)
      (hbegin : m.loop.begin? = none) (hasked : m.stopRequested = true) :
    Acts m (.go none) { m with alive := false }
  /-- A thread returns from `stop`. -/
  | returnFromStop (t : T) (hidle : m.stack (some t) = []) (hwaits : m.stopper = some t)
      (hended : m.alive = false) :
    Acts m (.go (some t)) { m with loop := { m.loop with running := false }, stopper := none }

theorem acts_called (hfree : m.isFree t = true) (c : Call) : m.Acts (.call t c) (m.called t c) := by
  cases c with
  | post job => exact .post t job hfree
  | processOne =>
    change m.Acts _ ((m.take? (some t)).getD m)
    unfold take?
    cases hbegin : m.loop.begin? with
    | none => exact .nothing _ rfl rfl
    | some p => exact .processOne t hfree hbegin
  | processAll => exact .processAll t hfree
  | start =>
    by_cases hrunning : m.loop.running = true
    · rw [called, if_pos hrunning]
      exact .nothing _ rfl rfl
    · rw [called, if_neg hrunning]
      exact .start t (Bool.eq_false_iff.mpr hrunning)
  | stop =>
    by_cases h : m.loop.running = true ∧ m.stopper = none
    · rw [called, if_pos h]
      exact .stop t hfree h.1 h.2
    · rw [called, if_neg h]
      exact .nothing _ rfl rfl

/-- The worker, or a thread that waits for it, goes on. -/
theorem acts_idle {who : Option T} (hidle : m.stack who = []) :
    m.Acts (.go who) (match who with | none => m.wake | some t => m.returnFromStop t) := by
  have hnothing : m.Acts (.go who) m :=
    .nothing _ (by simp [posts, hidle, stackPosts]) (by simp [ends, hidle, stackEnds])
  cases who with
  | none =>
    change m.Acts _ m.wake
    unfold wake take?
    split
    · next halive =>
      cases hbegin : m.loop.begin? with
      | some p => exact .work hidle halive hbegin
      | none =>
        dsimp only [Option.map_none]
        split
        · next hasked => exact .finish hidle halive hbegin hasked
        · exact hnothing
    · exact hnothing
  | some t =>
    change m.Acts _ (m.returnFromStop t)
    unfold returnFromStop
    split
    · next h => exact .returnFromStop t hidle h.1 h.2
    · exact hnothing

/-- A thread that runs no job goes on. -/
theorem act_go_idle {who : Option T} (hidle : m.stack who = []) :
    m.act (.go who) = match who with | none => m.wake | some t => m.returnFromStop t := by
  unfold act
  cases who with
  | none => simp only [hidle]
  | some t => simp only [hidle]

/-- A thread that runs a job goes on with it. -/
theorem act_go {who : Option T} (hne : m.stack who ≠ []) :
    m.act (.go who) = m.advance who (m.stack who) := by
  unfold act
  cases hstack : m.stack who with
  | nil => exact absurd hstack hne
  | cons frame stack => simp only [hstack]

theorem acts_act (m : Threads T) (turn : Turn T) : m.Acts turn (m.act turn) := by
  cases turn with
  | call t c =>
    by_cases hfree : m.isFree t = true
    · rw [act, if_pos hfree]
      exact acts_called hfree c
    · rw [act, if_neg hfree]
      refine .nothing _ ?_ rfl
      cases c with
      | post job => exact if_neg hfree
      | _ => rfl
  | go who =>
    by_cases hidle : m.stack who = []
    · rw [act_go_idle hidle]
      exact acts_idle hidle
    · rw [act_go hidle]
      exact .advance who hidle

/-! ### The worker, and the thread that stops it -/

/-- The worker, its flags and the thread that waits for it agree. -/
structure IsSound (m : Threads T) : Prop where
  /-- Only a loop that runs is stopped, and the thread that waits runs no job. -/
  waits : ∀ t, m.stopper = some t → m.loop.running = true ∧ m.stack (some t) = []
  /-- A loop that runs has a worker, which has not been asked to stop, unless a thread waits. -/
  works : m.loop.running = true → m.stopper = none → m.alive = true ∧ m.stopRequested = false
  /-- There is no second worker. -/
  rests : m.loop.running = false → m.alive = false
  /-- A worker ends between jobs. -/
  idles : m.alive = false → m.stack none = []
  plain : ∀ who, IsPlain (m.stack who)

omit [DecidableEq T] in
theorem isSound_fresh : (fresh : Threads T).IsSound where
  waits := fun _ h => nomatch h
  works := fun h => nomatch h
  rests := fun _ => rfl
  idles := fun _ => rfl
  plain := fun _ => trivial

theorem isFree_iff : m.isFree t = true ↔ m.stack (some t) = [] ∧ m.stopper ≠ some t := by
  simp [isFree]

/-- Where one stack changes, and the loop runs on. -/
theorem IsSound.put (h : m.IsSound) {who : Option T} {l : Loop} {stack : List Frame}
    (hrunning : l.running = m.loop.running) (hplain : IsPlain stack)
    (hwho : ∀ t, who = some t → m.stopper ≠ some t) (hworker : who = none → m.alive = true) :
    (m.put who l stack).IsSound where
  waits := fun t ht => by
    have hne : some t ≠ who := fun heq => hwho t heq.symm ht
    simpa [hrunning, put_stack_of_ne hne] using h.waits t ht
  works := fun hr hnone => h.works (hrunning.symm.trans hr) hnone
  rests := fun hr => h.rests (hrunning.symm.trans hr)
  idles := fun hdead => by
    have hne : none ≠ who := fun heq => by
      rw [put_alive, hworker heq.symm] at hdead
      cases hdead
    simpa [put_stack_of_ne hne] using h.idles hdead
  plain := fun who' => by
    by_cases heq : who' = who
    · simpa [heq] using hplain
    · simpa [put_stack_of_ne heq] using h.plain who'

theorem IsSound.acts (h : m.IsSound) (ha : m.Acts turn m') : m'.IsSound := by
  cases ha with
  | nothing => exact h
  | post t job hfree =>
    have hrunning : (m.loop.post job).running = m.loop.running := by cases job <;> rfl
    exact ⟨by simpa [hrunning] using h.waits, by simpa [hrunning] using h.works,
      by simpa [hrunning] using h.rests, h.idles, h.plain⟩
  | processOne t hfree hbegin =>
    exact h.put (Loop.running_begin hbegin) trivial
      (fun t' ht => by cases ht; exact (isFree_iff.mp hfree).2) (fun heq => nomatch heq)
  | processAll t hfree =>
    exact h.put rfl trivial
      (fun t' ht => by cases ht; exact (isFree_iff.mp hfree).2) (fun heq => nomatch heq)
  | start t hstopped =>
    -- a thread waits only while the loop runs
    have hnone : ∀ t, m.stopper ≠ some t := fun t ht => by
      rw [(h.waits t ht).1] at hstopped
      cases hstopped
    exact ⟨fun t ht => absurd ht (hnone t), fun _ _ => ⟨rfl, rfl⟩,
      fun hrunning => (nomatch hrunning),
      fun hdead => (nomatch hdead), h.plain⟩
  | stop t hfree hrunning hnone =>
    exact ⟨fun t' ht => by cases ht; exact ⟨hrunning, (isFree_iff.mp hfree).1⟩,
      fun _ heq => (nomatch heq), h.rests, h.idles, h.plain⟩
  | advance who hne =>
    -- whoever has a job on its stack neither waits nor has ended
    refine h.put (Loop.running_step _ _) (Loop.isPlain_step _ (h.plain who)) ?_ ?_
    · rintro t rfl ht
      exact hne (h.waits t ht).2
    · rintro rfl
      by_contra hdead
      exact hne (h.idles (Bool.eq_false_iff.mpr hdead))
  | work hidle halive hbegin =>
    exact h.put (Loop.running_begin hbegin) trivial (fun t ht => nomatch ht) fun _ => halive
  | finish hidle halive hbegin hasked =>
    refine ⟨h.waits, fun hrunning hnone => ?_, fun _ => rfl, fun _ => hidle, h.plain⟩
    exact absurd hasked (by simp [(h.works hrunning hnone).2])
  | returnFromStop t hidle hwaits hended =>
    exact ⟨fun t ht => (nomatch ht), fun hrunning => (nomatch hrunning), fun _ => hended, h.idles,
      h.plain⟩

theorem IsSound.exec (h : m.IsSound) (turns : List (Turn T)) : (m.exec turns).IsSound := by
  induction turns generalizing m with
  | nil => exact h
  | cons turn turns ih => exact ih (h.acts (m.acts_act turn))

/-! ### The jobs of all threads -/

/-- The post calls of turns, whoever makes them. -/
def jobs (posts : List (Option T × Option Job)) : List (Option Job) := posts.map Prod.snd

variable [Fintype T]

/-- The jobs on all stacks. -/
def inProgress (m : Threads T) : Nat := ∑ who, EventLoop.inProgress (m.stack who)

/-- Between two moments, post calls are made, and jobs begin and end. -/
structure Moves (m m' : Threads T) (posts : List (Option Job)) (begins : List Job) (ends : Nat) :
    Prop extends m.loop.Moves m'.loop posts begins where
  progress : begins.length + m.inProgress = m'.inProgress + ends

omit [DecidableEq T] in
theorem Moves.refl (m : Threads T) : m.Moves m [] [] 0 := ⟨.of_eq rfl rfl, by simp⟩

omit [DecidableEq T] in
theorem Moves.trans {posts posts' : List (Option Job)} {begins begins' : List Job}
    {ends ends' : Nat} (h : m.Moves m' posts begins ends)
    (h' : m'.Moves m'' posts' begins' ends') :
    m.Moves m'' (posts ++ posts') (begins ++ begins') (ends + ends') := by
  refine ⟨h.toMoves.trans h'.toMoves, ?_⟩
  have hfirst := h.progress
  have hsecond := h'.progress
  rw [List.length_append]
  omega

/-- Where one stack changes, the jobs on the others stay. -/
theorem inProgress_put (m : Threads T) (who : Option T) (l : Loop) (stack : List Frame) :
    (m.put who l stack).inProgress + EventLoop.inProgress (m.stack who)
      = EventLoop.inProgress stack + m.inProgress := by
  have hothers : ∑ who' ∈ Finset.univ.erase who,
        EventLoop.inProgress ((m.put who l stack).stack who')
      = ∑ who' ∈ Finset.univ.erase who, EventLoop.inProgress (m.stack who') :=
    Finset.sum_congr rfl fun who' hne => by
      rw [put_stack_of_ne (Finset.ne_of_mem_erase hne)]
  unfold inProgress
  rw [← Finset.add_sum_erase _ _ (Finset.mem_univ who), hothers,
    ← Finset.add_sum_erase _ (fun who' => EventLoop.inProgress (m.stack who'))
      (Finset.mem_univ who), put_stack_self]
  omega

theorem Moves.put {l : Loop} {posts : List (Option Job)} {begins : List Job} {ends : Nat}
    {who : Option T} {stack : List Frame} (hloop : m.loop.Moves l posts begins)
    (hcount : begins.length + EventLoop.inProgress (m.stack who)
      = EventLoop.inProgress stack + ends) :
    m.Moves (m.put who l stack) posts begins ends := by
  refine ⟨hloop, ?_⟩
  have hput := m.inProgress_put who l stack
  omega

theorem exists_moves_acts (h : m.IsSound) (ha : m.Acts turn m') :
    ∃ begins, m.Moves m' (jobs (m.posts turn)) begins (m.ends turn) := by
  cases ha with
  | nothing turn hposts hends =>
    rw [hposts, hends]
    exact ⟨[], Moves.refl m⟩
  | post t job hfree =>
    refine ⟨[], ?_, by simp [ends, inProgress]⟩
    simpa [posts, hfree, jobs] using m.loop.moves_post job
  | processOne t hfree hbegin =>
    obtain ⟨job, -, hmoves⟩ := Loop.moves_begin hbegin
    exact ⟨[job], .put hmoves (by simp [(isFree_iff.mp hfree).1, ends])⟩
  | processAll t hfree =>
    exact ⟨[], .put (.of_eq rfl rfl) (by simp [(isFree_iff.mp hfree).1, ends])⟩
  | start => exact ⟨[], .of_eq rfl rfl, by simp [ends, inProgress]⟩
  | stop => exact ⟨[], .of_eq rfl rfl, by simp [ends, inProgress]⟩
  | advance who hne =>
    obtain ⟨begins, hmoves, hcount⟩ := m.loop.exists_moves_step (h.plain who)
    have hposts : jobs (m.posts (.go who)) = stackPosts (m.stack who) := by
      simp [jobs, posts, Function.comp_def]
    rw [hposts]
    exact ⟨begins, .put hmoves hcount⟩
  | work hidle halive hbegin =>
    obtain ⟨job, -, hmoves⟩ := Loop.moves_begin hbegin
    rw [posts, ends, hidle]
    exact ⟨[job], .put hmoves (by simp [hidle, stackEnds])⟩
  | finish hidle halive hbegin hasked =>
    rw [posts, ends, hidle]
    exact ⟨[], .of_eq rfl rfl, by simp [inProgress, stackEnds]⟩
  | returnFromStop t hidle hwaits hended =>
    rw [posts, ends, hidle]
    exact ⟨[], .of_eq rfl rfl, by simp [inProgress, stackEnds]⟩

/-- **Jobs begin in the order in which they were posted**, and those that have not ended are on the
stacks. -/
theorem exists_moves_exec (h : m.IsSound) (turns : List (Turn T)) :
    ∃ begins, m.Moves (m.exec turns) (jobs (m.posted turns)) begins (m.ended turns) := by
  induction turns generalizing m with
  | nil => exact ⟨[], Moves.refl m⟩
  | cons turn turns ih =>
    obtain ⟨begins, hturn⟩ := exists_moves_acts h (m.acts_act turn)
    obtain ⟨begins', hturns⟩ := ih (h.acts (m.acts_act turn))
    have hjobs : jobs (m.posted (turn :: turns))
        = jobs (m.posts turn) ++ jobs ((m.act turn).posted turns) := List.map_append
    rw [hjobs]
    exact ⟨begins ++ begins', hturn.trans hturns⟩

/-! ### The queue that a worker leaves -/

/-- A worker that has ended has left nothing in the queue. -/
def IsDrained (m : Threads T) : Prop := m.alive = false → m.loop.queue = []

omit [Fintype T] in
/-- A worker that has ended posts nothing. -/
theorem posts_eq_nil (h : m.IsSound) (hdead : m.alive = false)
    (hposts : ∀ p ∈ m.posts turn, p.1 = none) : m.posts turn = [] := by
  refine List.eq_nil_iff_forall_not_mem.mpr fun p hp => ?_
  have hworker := hposts p hp
  cases turn with
  | call t c =>
    cases c with
    | post job =>
      rw [posts] at hp
      split at hp
      · rw [List.mem_singleton.mp hp] at hworker
        cases hworker
      · cases hp
    | _ => cases hp
  | go who =>
    obtain ⟨job, hjob, rfl⟩ := List.mem_map.mp hp
    obtain rfl : who = none := hworker
    rw [h.idles hdead] at hjob
    cases hjob

/-- A worker ends only when the queue is empty, and only another thread fills it then. -/
theorem IsDrained.acts (hdrained : m.IsDrained) (h : m.IsSound) (ha : m.Acts turn m')
    (hposts : ∀ p ∈ m.posts turn, p.1 = none) : m'.IsDrained := by
  intro hdead'
  by_cases hdead : m.alive = false
  · -- nobody posts: not the worker, which has ended, and no other thread
    obtain ⟨begins, hmoves⟩ := exists_moves_acts h ha
    rw [posts_eq_nil h hdead hposts] at hmoves
    exact hmoves.queue_eq_nil (hdrained hdead)
  · cases ha with
    | finish hidle halive hbegin => exact Loop.queue_eq_nil_of_begin hbegin
    | start => cases hdead'
    | _ => exact absurd hdead' hdead

theorem IsDrained.exec (hdrained : m.IsDrained) (h : m.IsSound) {turns : List (Turn T)}
    (hposts : ∀ p ∈ m.posted turns, p.1 = none) : (m.exec turns).IsDrained := by
  induction turns generalizing m with
  | nil => exact hdrained
  | cons turn turns ih =>
    have ha := m.acts_act turn
    exact ih (hdrained.acts h ha fun p hp => hposts p (List.mem_append_left _ hp)) (h.acts ha)
      fun p hp => hposts p (List.mem_append_right _ hp)

end Threads

end FileSharing.EventLoop
