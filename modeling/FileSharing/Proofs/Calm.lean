import FileSharing.Proofs.Begins

/-!
# A job that throws affects no other job

Where no job throws, a job that would have thrown just comes to its end there.  Everything else
goes on as it does where jobs throw: the same turns are possible, the same jobs are posted and
begun, and the same frames are on the stacks.  Only the lines that are logged are missing.

## Main definitions

* `Work.calm`, `Job.calm`, `Turn.calm` — what a job does but for throwing.
* `Loop.calm`, `Threads.calm` — a loop, and its threads, where no job throws or has thrown.

## Main results

* `Loop.step_calm` — the steps of calm stacks.
* `Threads.exec_calm` — **a job that throws affects no other job.**
-/

namespace FileSharing.EventLoop

/-- The same work, which ends where it would throw. -/
def Work.calm : Work → Work
  | .done => .done
  | .throw _ => .done
  | .post name work rest => .post name work.calm rest.calm
  | .postNothing rest => .postNothing rest.calm
  | .processOne rest => .processOne rest.calm
  | .processAll rest => .processAll rest.calm

/-- The same job, which ends where it would throw. -/
def Job.calm (job : Job) : Job := ⟨job.name, job.work.calm⟩

/-- The same frame, of such a job. -/
def Frame.calm : Frame → Frame
  | .job work => .job work.calm
  | .draining => .draining
  | .report h => .report h

/-- What happens to calm jobs: everything but a failure. -/
def Happening.calm? : Happening → Option Happening
  | .posted job => some (.posted job.calm)
  | .begun job => some (.begun job.calm)
  | .failed _ => none
  | .processed found => some (.processed found)
  | .drained => some .drained

theorem Happening.calm?_of_isReturn {h : Happening} (hreturn : h.isReturn = true) :
    h.calm? = some h := by
  cases h with
  | processed => rfl
  | drained => rfl
  | _ => cases hreturn

namespace Loop

variable {l l' : Loop}

/-- The same loop, in which no job throws or has thrown. -/
def calm (l : Loop) : Loop :=
  ⟨l.queue.map Job.calm, l.history.filterMap Happening.calm?, l.running⟩

theorem calm_note {h h' : Happening} (hcalm : h.calm? = some h') :
    (l.note h).calm = l.calm.note h' := by
  simp [calm, note, hcalm]

theorem calm_note_failed (l : Loop) (message : Text) :
    (l.note (.failed message)).calm = l.calm := by
  simp [calm, note, Happening.calm?]

theorem calm_post (l : Loop) (job : Option Job) :
    (l.post job).calm = l.calm.post (job.map Job.calm) := by
  cases job with
  | none => rfl
  | some job => simp [post, push, calm, note, Happening.calm?]

theorem begin_calm (l : Loop) :
    l.calm.begin? = l.begin?.map fun p => (p.1.calm, p.2.calm) := by
  cases hqueue : l.queue with
  | nil => simp [begin?, calm, hqueue]
  | cons job queue => simp [begin?, calm, hqueue, note, Happening.calm?, Job.calm]

/-- **The steps of calm stacks** are those of the stacks. -/
theorem step_calm (l : Loop) {stack : List Frame} (hplain : IsPlain stack) :
    l.calm.step (stack.map Frame.calm)
      = ((l.step stack).1.calm, (l.step stack).2.map Frame.calm) := by
  match stack with
  | [] => rfl
  | .report h :: stack =>
    have hcalm := Happening.calm?_of_isReturn hplain.1
    simp [Frame.calm, step, calm_note hcalm]
  | .draining :: stack =>
    cases hbegin : l.begin? with
    | none => simp [Frame.calm, step, begin_calm, hbegin]
    | some p => simp [Frame.calm, step, begin_calm, hbegin]
  | .job work :: stack =>
    cases work with
    | done => rfl
    | throw message => simp [Frame.calm, Work.calm, step, calm_note_failed]
    | post name work rest =>
      have hpost := l.calm_post (some ⟨name, work⟩)
      simp only [post] at hpost
      simp [Frame.calm, Work.calm, step, hpost, Job.calm]
    | postNothing rest => rfl
    | processOne rest =>
      cases hbegin : l.begin? with
      | none =>
        have hcalm : (Happening.processed false).calm? = some (.processed false) := rfl
        simp [Frame.calm, Work.calm, step, begin_calm, hbegin, calm_note hcalm]
      | some p => simp [Frame.calm, Work.calm, step, begin_calm, hbegin]
    | processAll rest => rfl

end Loop

/-- The same call, which posts a calm job. -/
def Call.calm : Call → Call
  | .post job => .post (job.map Job.calm)
  | .processOne => .processOne
  | .processAll => .processAll
  | .start => .start
  | .stop => .stop

/-- The same turn, which posts a calm job. -/
def Turn.calm {T : Type} : Turn T → Turn T
  | .call t c => .call t c.calm
  | .go who => .go who

namespace Threads

variable {T : Type} [DecidableEq T]

/-- The same threads, in which no job throws or has thrown. -/
def calm (m : Threads T) : Threads T :=
  { m with loop := m.loop.calm, stack := fun who => (m.stack who).map Frame.calm }

theorem calm_put (m : Threads T) (who : Option T) (l : Loop) (stack : List Frame) :
    (m.put who l stack).calm = m.calm.put who l.calm (stack.map Frame.calm) := by
  have hstack : (fun who' => (Function.update m.stack who stack who').map Frame.calm)
      = Function.update m.calm.stack who (stack.map Frame.calm) := by
    funext who'
    by_cases heq : who' = who
    · simp [heq]
    · simp [Function.update_of_ne heq, calm]
  unfold put
  rw [← hstack]
  rfl

theorem isFree_calm (m : Threads T) (t : T) : m.calm.isFree t = m.isFree t := by
  simp [isFree, calm]

theorem take_calm (m : Threads T) (who : Option T) :
    m.calm.take? who = (m.take? who).map calm := by
  have hbegin := m.loop.begin_calm
  unfold take?
  cases h : m.loop.begin? with
  | none =>
    rw [h] at hbegin
    simp only [Option.map_none] at hbegin ⊢
    change m.loop.calm.begin?.map _ = none
    rw [hbegin]
    rfl
  | some p =>
    rw [h] at hbegin
    change m.loop.calm.begin?.map _ = _
    rw [hbegin]
    simp [calm_put, Frame.calm]

theorem called_calm (m : Threads T) (t : T) (c : Call) :
    m.calm.called t c.calm = (m.called t c).calm := by
  have hrunning : m.calm.loop.running = m.loop.running := rfl
  have hstopper : m.calm.stopper = m.stopper := rfl
  cases c with
  | post job =>
    change { m.calm with loop := m.loop.calm.post (job.map Job.calm) } = _
    rw [← Loop.calm_post]
    rfl
  | processOne =>
    change (m.calm.take? (some t)).getD m.calm = ((m.take? (some t)).getD m).calm
    rw [take_calm]
    cases m.take? (some t) <;> rfl
  | processAll => exact (m.calm_put (some t) m.loop [.draining]).symm
  | start =>
    change called m.calm t .start = _
    rw [called, called, hrunning]
    split <;> rfl
  | stop =>
    change called m.calm t .stop = _
    rw [called, called, hrunning, hstopper]
    split <;> rfl

theorem wake_calm (m : Threads T) : m.calm.wake = m.wake.calm := by
  have halive : m.calm.alive = m.alive := rfl
  have hasked : m.calm.stopRequested = m.stopRequested := rfl
  unfold wake
  rw [halive, hasked, take_calm]
  cases m.take? none with
  | some m' => split <;> rfl
  | none =>
    dsimp only [Option.map_none]
    split
    · split <;> rfl
    · rfl

theorem returnFromStop_calm (m : Threads T) (t : T) :
    m.calm.returnFromStop t = (m.returnFromStop t).calm := by
  have halive : m.calm.alive = m.alive := rfl
  have hstopper : m.calm.stopper = m.stopper := rfl
  unfold returnFromStop
  rw [halive, hstopper]
  split <;> rfl

theorem advance_calm {m : Threads T} {who : Option T} (hplain : IsPlain (m.stack who)) :
    m.calm.advance who (m.calm.stack who) = (m.advance who (m.stack who)).calm := by
  have hstep : m.calm.loop.step (m.calm.stack who) = _ := m.loop.step_calm hplain
  rw [advance, hstep]
  exact (m.calm_put who _ _).symm

theorem act_calm {m : Threads T} (h : m.IsSound) (turn : Turn T) :
    m.calm.act turn.calm = (m.act turn).calm := by
  cases turn with
  | call t c =>
    change (if m.calm.isFree t then m.calm.called t c.calm else m.calm) = calm (ite _ _ _)
    rw [isFree_calm, called_calm]
    split <;> rfl
  | go who =>
    change m.calm.act (.go who) = _
    cases hstack : m.stack who with
    | nil =>
      have hcalm : m.calm.stack who = [] := by simp [calm, hstack]
      rw [act_go_idle hstack, act_go_idle hcalm]
      cases who with
      | none => exact m.wake_calm
      | some t => exact m.returnFromStop_calm t
    | cons frame stack =>
      have hne : m.stack who ≠ [] := by simp [hstack]
      have hcalm : m.calm.stack who ≠ [] := by simp [calm, hstack]
      rw [act_go hne, act_go hcalm]
      exact advance_calm (h.plain who)

/-- **A job that throws affects no other job**: the same turns lead to the same state, but for what
is logged of failures. -/
theorem exec_calm {m : Threads T} (h : m.IsSound) (turns : List (Turn T)) :
    m.calm.exec (turns.map Turn.calm) = (m.exec turns).calm := by
  induction turns generalizing m with
  | nil => rfl
  | cons turn turns ih =>
    change (m.calm.act turn.calm).exec (turns.map Turn.calm) = ((m.act turn).exec turns).calm
    rw [act_calm h]
    exact ih (h.acts (m.acts_act turn))

end Threads

end FileSharing.EventLoop
