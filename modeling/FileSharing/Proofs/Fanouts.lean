import FileSharing.ListenerSet
import Mathlib.Data.List.Nodup

/-!
# Fan-outs whose callbacks change the set

A fan-out goes over a list that was copied when it began, while the callbacks it
makes change the set it was copied from.  What happens meanwhile is a history of
small steps: a fan-out begins, a listener is called, a callback fails, a listener
is added or removed, the set is cleared.  Two things can be asked of a history,
and neither needs the other.  The callbacks must have made it, whatever answers
they got; and the set must bear it, whoever made it.  Every fan-out has a history
of which both are true, and leaves what the history leaves when its steps are
taken one after another.

## Main definitions

* `Fanout.Step`, `Fanout.replay` — what happens, and a history taken step by step.
* `Reaction.Makes`, `Fanout.Calls` — which histories callbacks make.
* `Fanout.Bears` — which answers and copies of the set are right.
* `ListenerSet.IsProper` — nobody is there twice, and answers tell of changes.
* `Fanout.Step.drops`, `Fanout.Step.entry?` — who leaves the set in a step, and who enters it.

## Main results

* `Fanout.members_replay` — **who enters comes last, and all others keep their order**.
* `Fanout.exists_perform` — **what a callback does is a history it makes, which the
  set bears**.
* `Fanout.each_isSnapshot` — **a fan-out calls exactly those who were there when it
  began, once each and in order, and leaves the set as the changes made meanwhile,
  in their order, leave it**.
-/

namespace FileSharing

variable {α : Type}

/-! ### The set -/

namespace ListenerSet

variable [DecidableEq α] {s : ListenerSet α}

/-- Who is added comes last, behind the others in their order. -/
theorem members_add (s : ListenerSet α) {l : α} (hl : l ∉ s.members) :
    (s.add (some l)).2.members = s.members ++ [l] := by
  rw [add, if_neg hl]

/-- Who is there keeps their place when added again. -/
theorem add_of_mem (s : ListenerSet α) {l : α} (hl : l ∈ s.members) :
    s.add (some l) = (false, s) := by
  rw [add, if_pos hl]

/-- Who is removed is not there any more, and the others keep their order. -/
theorem members_remove (h : s.members.Nodup) (l : Option α) :
    (s.remove l).2.members = s.members.filter fun l' => l ≠ some l' := by
  cases l with
  | none => exact (List.filter_eq_self.mpr fun l' _ => rfl).symm
  | some l =>
    have hfilter : (s.members.filter fun l' => some l ≠ some l') = s.members.erase l := by
      rw [h.erase_eq_filter]
      refine List.filter_congr fun l' _ => ?_
      rw [bne, Bool.beq_comm, beq_eq_decide]
      simp
    rw [hfilter, remove]
    split
    · rfl
    · next hl => exact (List.erase_of_not_mem hl).symm

/-- No listener is there twice after one was added. -/
theorem nodup_add (h : s.members.Nodup) (l : Option α) : (s.add l).2.members.Nodup := by
  cases l with
  | none => exact h
  | some l =>
    rw [add]
    split
    · exact h
    · next hl =>
      rw [← List.concat_eq_append]
      exact List.Nodup.concat hl h

theorem nodup_foldl_add (ls : List α) (h : s.members.Nodup) :
    (ls.foldl (fun s l => (s.add (some l)).2) s).members.Nodup := by
  induction ls generalizing s with
  | nil => exact h
  | cons l ls ih => exact ih (nodup_add h _)

/-- No listener is there twice after one was removed. -/
theorem nodup_remove (h : s.members.Nodup) (l : Option α) :
    (s.remove l).2.members.Nodup := by
  cases l with
  | none => exact h
  | some l =>
    rw [remove]
    split
    · exact h.erase l
    · exact h

/-- A listener that was added is not added again. -/
theorem add_add (s : ListenerSet α) (l : Option α) :
    ((s.add l).2.add l).2 = (s.add l).2 := by
  cases l with
  | none => rfl
  | some l =>
    have hmem : l ∈ (s.add (some l)).2.members := by
      rw [add]
      split
      · assumption
      · exact List.mem_append_right _ List.mem_cons_self
    rw [add, if_pos hmem]

/-- A listener that was removed is not there to be removed again. -/
theorem remove_remove (h : s.members.Nodup) (l : Option α) :
    ((s.remove l).2.remove l).2 = (s.remove l).2 := by
  cases l with
  | none => rfl
  | some l =>
    have hmem : l ∉ (s.remove (some l)).2.members := by
      rw [remove]
      split
      · exact h.not_mem_erase
      · assumption
    rw [remove, if_neg hmem]

/-- Adding a listener is answered with whether that changes the set. -/
theorem add_fst_iff (s : ListenerSet α) (l : Option α) :
    (s.add l).1 = true ↔ (s.add l).2 ≠ s := by
  cases l with
  | none => simp [add]
  | some l =>
    rw [add]
    split
    · simp
    · -- the set has grown by one
      have hne : (⟨s.members ++ [l]⟩ : ListenerSet α) ≠ s := fun h => by
        simpa using congrArg (fun t => t.members.length) h
      simp [hne]

/-- Removing a listener is answered with whether that changes the set. -/
theorem remove_fst_iff (s : ListenerSet α) (l : Option α) :
    (s.remove l).1 = true ↔ (s.remove l).2 ≠ s := by
  cases l with
  | none => simp [remove]
  | some l =>
    rw [remove]
    split
    · next hl =>
      -- the set has shrunk by one
      have hne : (⟨s.members.erase l⟩ : ListenerSet α) ≠ s := fun h => by
        have hlen := congrArg (fun t => t.members.length) h
        have hpos := List.length_pos_of_mem hl
        simp only [List.length_erase_of_mem hl] at hlen
        omega
      simp [hne]
    · simp

/-- Nobody is in the set twice, nobody is added who is nobody, and the answers to
adding and removing tell whether the set has changed. -/
structure IsProper (s : ListenerSet α) : Prop where
  /-- No listener is there twice. -/
  nodup : s.members.Nodup
  /-- There is no listener that is none. -/
  add_none : s.add none = (false, s)
  /-- What is answered to adding a listener. -/
  added : ∀ l, (s.add l).1 = true ↔ (s.add l).2 ≠ s
  /-- What is answered to removing a listener. -/
  removed : ∀ l, (s.remove l).1 = true ↔ (s.remove l).2 ≠ s

theorem isProper_of_nodup (h : s.members.Nodup) : s.IsProper :=
  ⟨h, rfl, s.add_fst_iff, s.remove_fst_iff⟩

end ListenerSet

/-! ### Histories -/

namespace Fanout

variable [DecidableEq α]

/-- Something that happens while fan-outs run.  A fan-out that a callback starts is
one level above the fan-out that called it. -/
inductive Step (α : Type) where
  /-- A fan-out begins, with these listeners to call. -/
  | began (level : Nat) (event : Text) (ls : List α)
  /-- A listener is called. -/
  | called (level : Nat) (event : Text) (l : α)
  /-- A callback has ended with an exception. -/
  | failed (event message : Text)
  /-- A listener is added, with this answer. -/
  | added (l : Option α) (answer : Bool)
  /-- A listener is removed, with this answer. -/
  | removed (l : Option α) (answer : Bool)
  /-- All listeners are removed. -/
  | cleared

namespace Step

/-- What a step leaves.  It does not ask who makes it. -/
def take : Step α → Fanout α → Fanout α
  | began _ _ _, f => f
  | called _ event l, f => { f with visits := f.visits ++ [(event, l)] }
  | failed event message, f =>
    { f with failures := f.failures ++ [listenerFailure event message] }
  | added l _, f => { f with set := (f.set.add l).2 }
  | removed l _, f => { f with set := (f.set.remove l).2 }
  | cleared, f => { f with set := f.set.clear }

/-- What a step says of the set it meets: the copy is a copy of it, and the answers
tell whether it changes. -/
def IsTrueOf : Step α → ListenerSet α → Prop
  | began _ _ ls, s => ls = s.members
  | added l answer, s => answer = true ↔ (s.add l).2 ≠ s
  | removed l answer, s => answer = true ↔ (s.remove l).2 ≠ s
  | _, _ => True

/-- Whether a step takes a listener out of the set. -/
def drops (l : α) : Step α → Bool
  | removed l' _ => l' = some l
  | cleared => true
  | _ => false

/-- The listener that enters the set in a step. -/
def entry? : Step α → Option α
  | added l true => l
  | _ => none

/-- The listener that a fan-out of some level calls in a step. -/
def callAt (n : Nat) : Step α → Option α
  | called m _ l => if m = n then some l else none
  | _ => none

end Step

/-- The steps of a history, taken one after another. -/
def replay (f : Fanout α) (H : List (Step α)) : Fanout α := H.foldl (fun f x => x.take f) f

/-- Whether each step of a history says the truth of the set as it then is. -/
def Bears : List (Step α) → Fanout α → Prop
  | [], _ => True
  | x :: H, f => x.IsTrueOf f.set ∧ Bears H (x.take f)

theorem replay_append (f : Fanout α) (H H' : List (Step α)) :
    f.replay (H ++ H') = (f.replay H).replay H' :=
  List.foldl_append

theorem bears_append {f : Fanout α} {H H' : List (Step α)} (h : Bears H f)
    (h' : Bears H' (f.replay H)) : Bears (H ++ H') f := by
  induction H generalizing f with
  | nil => exact h'
  | cons x H ih => exact ⟨h.1, ih h.2 h'⟩

/-- No step puts a listener twice into the set. -/
theorem nodup_take {f : Fanout α} (h : f.set.members.Nodup) (x : Step α) :
    (x.take f).set.members.Nodup := by
  cases x with
  | began _ _ _ => exact h
  | called _ _ _ => exact h
  | failed _ _ => exact h
  | added l _ => exact ListenerSet.nodup_add h l
  | removed l _ => exact ListenerSet.nodup_remove h l
  | cleared => exact List.nodup_nil

/-- Nobody is in the set twice after a history. -/
theorem nodup_replay {f : Fanout α} (h : f.set.members.Nodup) (H : List (Step α)) :
    (f.replay H).set.members.Nodup := by
  induction H generalizing f with
  | nil => exact h
  | cons x H ih => exact ih (nodup_take h x)

/-- **What a step leaves**: those it does not drop, in their order, and behind them the one that
enters. -/
theorem members_take {f : Fanout α} (h : f.set.members.Nodup) {x : Step α}
    (hx : x.IsTrueOf f.set) :
    (x.take f).set.members = (f.set.members.filter fun l => !x.drops l) ++ x.entry?.toList := by
  cases x with
  | began _ _ _ => simp [Step.take, Step.drops, Step.entry?]
  | called _ _ _ => simp [Step.take, Step.drops, Step.entry?]
  | failed _ _ => simp [Step.take, Step.drops, Step.entry?]
  | added l answer =>
    have hanswer : answer = (f.set.add l).1 := by
      rw [Bool.eq_iff_iff, f.set.add_fst_iff l]
      exact hx
    cases l with
    | none =>
      simp [Step.take, Step.drops, Step.entry?, hanswer, ListenerSet.add]
    | some l =>
      by_cases hl : l ∈ f.set.members
      · rw [ListenerSet.add_of_mem f.set hl] at hanswer
        simp [Step.take, Step.drops, Step.entry?, hanswer, ListenerSet.add_of_mem f.set hl]
      · have hadd : (f.set.add (some l)).1 = true := by rw [ListenerSet.add, if_neg hl]
        simp [Step.take, Step.drops, Step.entry?, hanswer, hadd, ListenerSet.members_add f.set hl]
  | removed l answer =>
    simp [Step.take, Step.drops, Step.entry?, ListenerSet.members_remove h l]
  | cleared => simp [Step.take, Step.drops, Step.entry?, ListenerSet.clear]

/-- **What a history leaves**: those it never drops, in their order, and behind them those who
have entered and have stayed, in the order in which they entered. -/
theorem members_replay {f : Fanout α} {H : List (Step α)} (h : f.set.members.Nodup)
    (hH : Bears H f) :
    ∃ new, new.Sublist (H.filterMap Step.entry?) ∧
      (f.replay H).set.members
        = (f.set.members.filter fun l => !H.any (·.drops l)) ++ new := by
  induction H generalizing f with
  | nil => exact ⟨[], List.Sublist.refl _, by simp [replay]⟩
  | cons x H ih =>
    obtain ⟨new, hnew, hmembers⟩ := ih (nodup_take h x) hH.2
    rw [members_take h hH.1, List.filter_append, List.filter_filter, List.append_assoc] at hmembers
    refine ⟨_, ?_, hmembers.trans (congrArg (· ++ _) (List.filter_congr fun l _ => ?_))⟩
    · have hentries : (x :: H).filterMap Step.entry?
          = x.entry?.toList ++ H.filterMap Step.entry? := by
        rw [List.filterMap_cons]
        cases x.entry? with
        | none => rfl
        | some l => rfl
      rw [hentries]
      exact List.filter_sublist.append hnew
    · rw [List.any_cons, Bool.not_or, Bool.and_comm]

/-- Who was there before another one entered is called before it. -/
theorem pair_sublist_replay {f : Fanout α} {H : List (Step α)} {l m : α}
    (h : f.set.members.Nodup) (hH : Bears H f) (hl : l ∈ f.set.members)
    (hm : m ∉ f.set.members) (hkept : ∀ x ∈ H, x.drops l = false)
    (hentered : m ∈ (f.replay H).set.members) :
    [l, m].Sublist (f.replay H).set.members := by
  obtain ⟨new, -, hmembers⟩ := members_replay h hH
  rw [hmembers] at hentered ⊢
  have hold : l ∈ f.set.members.filter fun l => !H.any (·.drops l) := by
    rw [List.mem_filter]
    refine ⟨hl, ?_⟩
    rw [Bool.not_eq_true', List.any_eq_false]
    intro x hx
    simp [hkept x hx]
  have hnew : m ∈ new := by
    rcases List.mem_append.mp hentered with hmem | hmem
    · exact absurd (List.mem_of_mem_filter hmem) hm
    · exact hmem
  exact (List.singleton_sublist.mpr hold).append (List.singleton_sublist.mpr hnew)

/-- A history that leads from one set to another, and says the truth on the way. -/
structure Tells (f : Fanout α) (H : List (Step α)) (f' : Fanout α) : Prop where
  /-- It says the truth. -/
  bears : Bears H f
  /-- Its steps lead there. -/
  after : f' = f.replay H

namespace Tells

variable {f f' f'' : Fanout α} {H H' : List (Step α)} {x : Step α}

theorem refl (f : Fanout α) : f.Tells [] f := ⟨trivial, rfl⟩

theorem cons (hx : x.IsTrueOf f.set) (h : (x.take f).Tells H f') : f.Tells (x :: H) f' :=
  ⟨⟨hx, h.bears⟩, h.after⟩

theorem append (h : f.Tells H f') (h' : f'.Tells H' f'') : f.Tells (H ++ H') f'' := by
  obtain ⟨hH, rfl⟩ := h
  exact ⟨bears_append hH h'.bears, h'.after.trans (replay_append f H H').symm⟩

end Tells

/-! ### Who makes a history -/

/-- The step with which an exception is logged. -/
def failure (event : Text) : Option Text → List (Step α)
  | none => []
  | some message => [.failed event message]

/-- The histories of calling these listeners one after another.  Of a callback it is
given which histories it makes, and how it ends. -/
def Calls (n : Nat) (event : Text) (makes : α → List (Step α) → Option Text → Prop) :
    List α → List (Step α) → Prop
  | [], H => H = []
  | l :: ls, H => ∃ Hl out H', H = .called n event l :: (Hl ++ failure event out ++ H') ∧
      makes l Hl out ∧ Calls n event makes ls H'

end Fanout

/-- The histories that a callback makes whose fan-outs have this level, and how it ends.
It is free to act on any answer, and a fan-out it starts may call any listeners. -/
def Reaction.Makes : Nat → Reaction α → List (Fanout.Step α) → Option Text → Prop
  | _, .done, H, out => H = [] ∧ out = none
  | _, .throw message, H, out => H = [] ∧ out = some message
  | n, .add l rest, H, out =>
    ∃ answer H', H = .added l answer :: H' ∧ Makes n (rest answer) H' out
  | n, .remove l rest, H, out =>
    ∃ answer H', H = .removed l answer :: H' ∧ Makes n (rest answer) H' out
  | n, .clear rest, H, out => ∃ H', H = .cleared :: H' ∧ Makes n rest H' out
  | n, .each event react rest, H, out =>
    ∃ ls Hc H', H = .began n event ls :: (Hc ++ H') ∧
      Fanout.Calls n event (fun l => Makes (n + 1) (react l)) ls Hc ∧ Makes n rest H' out

/-! ### Who is called -/

namespace Fanout

variable {n m : Nat} {event : Text}

theorem filterMap_failure (out : Option Text) :
    (failure event out : List (Step α)).filterMap (Step.callAt m) = [] := by
  cases out with
  | none => rfl
  | some message => rfl

/-- Where callbacks call nobody at some level, only the calls of the fan-out itself are
to be found there. -/
theorem filterMap_calls {makes : α → List (Step α) → Option Text → Prop}
    (hmakes : ∀ l H out, makes l H out → H.filterMap (Step.callAt m) = [])
    {ls : List α} {H : List (Step α)} (h : Calls n event makes ls H) :
    H.filterMap (Step.callAt m) = if n = m then ls else [] := by
  induction ls generalizing H with
  | nil =>
    obtain rfl : H = [] := h
    simp
  | cons l ls ih =>
    obtain ⟨Hl, out, H', rfl, hl, hls⟩ := h
    rw [List.filterMap_cons, List.filterMap_append, List.filterMap_append, hmakes l Hl out hl,
      filterMap_failure, ih hls]
    by_cases hnm : n = m
    · simp [Step.callAt, hnm]
    · simp [Step.callAt, hnm]

/-- A callback calls nobody below its own level. -/
theorem filterMap_makes {r : Reaction α} (hnm : m < n) {H : List (Step α)} {out : Option Text}
    (h : r.Makes n H out) : H.filterMap (Step.callAt m) = [] := by
  induction r generalizing n H out with
  | done =>
    obtain ⟨rfl, -⟩ := h
    rfl
  | throw message =>
    obtain ⟨rfl, -⟩ := h
    rfl
  | add l rest ih =>
    obtain ⟨answer, H, rfl, h⟩ := h
    exact (List.filterMap_cons_none rfl).trans (ih answer hnm h)
  | remove l rest ih =>
    obtain ⟨answer, H, rfl, h⟩ := h
    exact (List.filterMap_cons_none rfl).trans (ih answer hnm h)
  | clear rest ih =>
    obtain ⟨H, rfl, h⟩ := h
    exact (List.filterMap_cons_none rfl).trans (ih hnm h)
  | each event react rest ihreact ih =>
    obtain ⟨ls, Hc, H, rfl, hc, h⟩ := h
    have hcalls := filterMap_calls (fun l H out => ihreact l (Nat.lt_succ_of_lt hnm)) hc
    rw [if_neg (Nat.ne_of_gt hnm)] at hcalls
    rw [List.filterMap_cons, List.filterMap_append, hcalls, ih hnm h]
    rfl

/-- A fan-out calls the listeners it has copied, in order. -/
theorem calls_own {react : α → Reaction α} {ls : List α} {H : List (Step α)}
    (h : Calls n event (fun l => (react l).Makes (n + 1)) ls H) :
    H.filterMap (Step.callAt n) = ls := by
  have hcalls := filterMap_calls (fun l H out => filterMap_makes (Nat.lt_succ_self n)) h
  rw [hcalls, if_pos rfl]

/-! ### The history of a fan-out -/

variable [DecidableEq α]

/-- Of calling some listeners there is a history if there is one of each callback. -/
theorem exists_visit {n : Nat} {event : Text} {act : α → Fanout α → Option Text × Fanout α}
    {makes : α → List (Step α) → Option Text → Prop}
    (hact : ∀ l f, ∃ H, makes l H (act l f).1 ∧ f.Tells H (act l f).2)
    (ls : List α) (f : Fanout α) :
    ∃ H, Calls n event makes ls H ∧ f.Tells H (visit event act ls f) := by
  induction ls generalizing f with
  | nil => exact ⟨[], rfl, .refl f⟩
  | cons l ls ih =>
    obtain ⟨Hl, hmakes, htells⟩ := hact l ((Step.called n event l).take f)
    rw [visit]
    simp only [Step.take] at hmakes htells
    generalize act l { f with visits := f.visits ++ [(event, l)] } = p at hmakes htells
    obtain ⟨out, f₁⟩ := p
    cases out with
    | none =>
      obtain ⟨H', hcalls, hrest⟩ := ih f₁
      refine ⟨_, ⟨Hl, none, H', rfl, hmakes, hcalls⟩, .cons trivial ?_⟩
      exact (htells.append (.refl f₁)).append hrest
    | some message =>
      obtain ⟨H', hcalls, hrest⟩ := ih ((Step.failed event message).take f₁)
      have hfailed : f₁.Tells (failure event (some message)) _ := .cons trivial (.refl _)
      refine ⟨_, ⟨Hl, some message, H', rfl, hmakes, hcalls⟩, .cons trivial ?_⟩
      exact (htells.append hfailed).append hrest

/-- **What a callback does is a history it makes, which the set bears.** -/
theorem exists_perform (n : Nat) (r : Reaction α) (f : Fanout α) :
    ∃ H, r.Makes n H (perform r f).1 ∧ f.Tells H (perform r f).2 := by
  induction r generalizing n f with
  | done => exact ⟨[], ⟨rfl, rfl⟩, .refl f⟩
  | throw message => exact ⟨[], ⟨rfl, rfl⟩, .refl f⟩
  | add l rest ih =>
    obtain ⟨H, hmakes, htells⟩ := ih (f.set.add l).1 n { f with set := (f.set.add l).2 }
    exact ⟨_, ⟨_, H, rfl, hmakes⟩, .cons (f.set.add_fst_iff l) htells⟩
  | remove l rest ih =>
    obtain ⟨H, hmakes, htells⟩ := ih (f.set.remove l).1 n { f with set := (f.set.remove l).2 }
    exact ⟨_, ⟨_, H, rfl, hmakes⟩, .cons (f.set.remove_fst_iff l) htells⟩
  | clear rest ih =>
    obtain ⟨H, hmakes, htells⟩ := ih n { f with set := f.set.clear }
    exact ⟨_, ⟨H, rfl, hmakes⟩, .cons trivial htells⟩
  | each event react rest ihreact ih =>
    -- the copy is made of the set as it is here, before any of the calls
    obtain ⟨Hc, hcalls, hvisit⟩ : ∃ Hc,
        Calls n event (fun l => (react l).Makes (n + 1)) f.set.members Hc ∧
          f.Tells Hc (each event react f) :=
      exists_visit (fun l f => ihreact l (n + 1) f) f.set.members f
    obtain ⟨H, hmakes, htells⟩ := ih n (each event react f)
    exact ⟨_, ⟨_, Hc, H, rfl, hcalls, hmakes⟩, .cons rfl (hvisit.append htells)⟩

/-- Of any fan-out there is a history. -/
theorem exists_each (n : Nat) (event : Text) (react : α → Reaction α) (f : Fanout α) :
    ∃ H, Calls n event (fun l => (react l).Makes (n + 1)) f.set.members H ∧
      f.Tells H (each event react f) :=
  exists_visit (fun l f => exists_perform (n + 1) (react l) f) f.set.members f

/-- Whatever was done to a set that was empty, nobody is there twice. -/
theorem nodup_perform (before : Reaction α) :
    (perform before (start .empty)).2.set.members.Nodup := by
  obtain ⟨H, -, htells⟩ := exists_perform 0 before (start .empty)
  rw [htells.after]
  exact nodup_replay List.nodup_nil H

/-- **A fan-out over any set that can be reached**, by whatever was done to an empty one
before, has a history.  Its callbacks make it, called for those who were in the set
when it began; a fan-out among the steps calls those who were in the set when that one
began.  The calls of the fan-out itself are to exactly these listeners, in their order,
and none of them is there twice.  The answers on the way tell whether the set was
changed, the steps in their order leave what the fan-out leaves, and whatever part of
the history has passed, the set is proper. -/
theorem each_isSnapshot (before : Reaction α) (event : Text) (react : α → Reaction α) :
    let f := (perform before (start .empty)).2
    ∃ H, Calls 0 event (fun l => (react l).Makes 1) f.set.members H ∧
      H.filterMap (Step.callAt 0) = f.set.members ∧ f.Tells H (each event react f) ∧
      ∀ K, K <+: H → (f.replay K).set.IsProper := by
  intro f
  obtain ⟨H, hcalls, htells⟩ := exists_each 0 event react f
  refine ⟨H, hcalls, calls_own hcalls, htells, fun K _ => ?_⟩
  exact ListenerSet.isProper_of_nodup (nodup_replay (nodup_perform before) K)

/-- Who removes itself while it is called does not make the next one be passed over. -/
example : let f := (perform (.add (some 1) fun _ => .add (some 2) fun _ => .done)
      (start .empty)).2
    let f' := each [] (fun l => .remove (some l) fun _ => .done) f
    f'.visits = [([], 1), ([], 2)] ∧ f'.set = .empty := by
  decide

end Fanout

end FileSharing
