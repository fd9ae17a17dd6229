import FileSharing.Proofs.Loading
import FileSharing.Proofs.Rules

/-!
# Auto-accept in roaming

That invitations are accepted in roaming is meant to follow from their being accepted at all.  The
requests that change the settings see to it: auto-accept takes auto-accept in roaming with it
where it is turned off, and is asked for where the other is to be turned on.  Settings that are
loaded may say otherwise, and then they go on to say so until auto-accept is set, which is not
possible where it may not be changed.

## Main definitions

* `ServiceOp.IsSetting` — the requests that change the settings.
* `Settings.Grants` — what becomes of the settings where such a request is granted.
* `World.Answers` — **what can come of such a request.**
* `Settings.IsStray` — auto-accept is on in roaming, but off otherwise.

## Main results

* `Act.answers_serve` — a request that is refused changes nothing.
* `World.Strays.play` — requests lead out of stray settings, and never into them.
* `stray_iff` — **settings are stray exactly if they were loaded so, and auto-accept was not set
  since or may not be.**
-/

namespace FileSharing

open Config

/-- Whether a request changes one of the settings. -/
def ServiceOp.IsSetting : ServiceOp → Prop
  | .setAutoAccept _ => True
  | .setAutoAcceptInRoaming _ => True
  | .setResize _ => True
  | _ => False

/-- Whether an operation is such a request. -/
def Op.IsSetting : Op → Prop
  | .service op => op.IsSetting
  | _ => False

/-! ### Settings -/

/-- Whether auto-accept is on in roaming, but off otherwise. -/
def Settings.IsStray (s : Settings) : Prop := s.autoAcceptInRoaming = true ∧ s.autoAccept = false

/-- Whether a section says so. -/
def Config.Node.SaysStray (n : Config.Node) : Prop :=
  n.find? "autoAcceptInRoaming" = some (.bool true) ∧ n.find? "autoAccept" ≠ some (.bool true)

theorem Config.Node.written_asBool_eq_true_iff {n : Config.Node} {key : Text} :
    n.written Value.asBool? key false = true ↔ n.find? key = some (.bool true) := by
  unfold written
  cases n.find? key with
  | none => simp
  | some v => cases v <;> simp [Value.asBool?]

/-- What becomes of settings where a request is granted to change them. -/
inductive Settings.Grants (s : Settings) : ServiceOp → Settings → Prop where
  /-- Auto-accept in roaming is turned off with auto-accept. -/
  | autoAccept (on : Bool) (h : s.autoAcceptChangeable = true) :
    s.Grants (.setAutoAccept on)
      { s with autoAccept := on, autoAcceptInRoaming := on && s.autoAcceptInRoaming }
  /-- Auto-accept in roaming is set where auto-accept is on. -/
  | inRoaming (on : Bool) (h : s.autoAcceptChangeable = true) (hon : s.autoAccept = true) :
    s.Grants (.setAutoAcceptInRoaming on) { s with autoAcceptInRoaming := on }
  | resize {number : Int64} {option : ResizeOption} (h : ResizeOption.ofNumber number = .ok option) :
    s.Grants (.setResize number) { s with resize := option }

namespace Settings

variable {c : Config} {s s' : Settings} {op : ServiceOp}

theorem Grants.changeable_eq (h : s.Grants op s') :
    s'.autoAcceptChangeable = s.autoAcceptChangeable := by
  cases h <;> rfl

/-- **A request that is granted leads into stray settings only from such**, and out of them where
it sets auto-accept. -/
theorem Grants.isStray_iff (h : s.Grants op s') :
    s'.IsStray ↔ s.IsStray ∧ ∀ on, op ≠ .setAutoAccept on := by
  cases h with
  | autoAccept on h => cases on <;> simp [IsStray]
  | inRoaming on h hon => simp [IsStray, hon]
  | resize h => simp [IsStray]

/-- Settings that are loaded are stray where the section says so. -/
theorem isStray_of_load (h : load c = .ok s) :
    s.IsStray ↔ (c.sectionNode sectionKey).SaysStray := by
  obtain ⟨-, rfl⟩ := (ofNode_gives (c.sectionNode sectionKey)).of_ok h
  have hbound : ∀ key, (c.sectionNode sectionKey).written Value.asBool? key false = true ↔
      (c.sectionNode sectionKey).find? key = some (.bool true) :=
    fun _ => Config.Node.written_asBool_eq_true_iff
  rw [IsStray, Config.Node.SaysStray, ← Bool.not_eq_true]
  exact and_congr (hbound _) (hbound _).not

end Settings

/-! ### Requests -/

variable {E : Environment}

/-- What can come of a request to change the settings. -/
inductive World.Answers (w : World E) (op : ServiceOp) : Reply → World E → Prop where
  /-- The request is refused, and that is all. -/
  | refused (f : Failure) (h : ∀ s, ¬w.stack.settings.Grants op s) :
    w.Answers op (.outcome (.error f)) (w.emit (.log .debug f.logLine))
  /-- The request is granted. -/
  | granted {s : Settings} (h : w.stack.settings.Grants op s) (line : Text) :
    w.Answers op (.outcome (.ok ()))
      ((w.change fun stack => { stack with settings := s }).emit (.log .info line))

theorem World.Answers.spec {w w' : World E} {op : ServiceOp} {reply : Reply}
    (h : w.Answers op reply w') :
    (∃ f, reply = .outcome (.error f) ∧ w'.stack = w.stack) ∨
      ∃ s, w.stack.settings.Grants op s ∧ reply = .outcome (.ok ()) ∧
        w'.stack = { w.stack with settings := s } := by
  cases h with
  | refused f _ => exact .inl ⟨f, rfl, rfl⟩
  | granted h _ => exact .inr ⟨_, h, rfl, rfl⟩

namespace Act

variable {N : Handler E} {op : ServiceOp}

theorem answers_setAutoAccept (on : Bool) (w : World E) :
    w.Answers (.setAutoAccept on) (result N (serve (.setAutoAccept on)) w)
      (after N (serve (.setAutoAccept on)) w) := by
  rw [serve, result_bind, after_bind, setAutoAccept, result_bind, after_bind, after_stack,
    result_stack]
  by_cases hchangeable : w.stack.settings.autoAcceptChangeable = true
  · rw [if_neg (by simp [hchangeable])]
    exact .granted (.autoAccept on hchangeable) _
  · rw [if_pos (by simp [hchangeable])]
    exact .refused _ fun s h => by cases h; contradiction

theorem answers_setAutoAcceptInRoaming (on : Bool) (w : World E) :
    w.Answers (.setAutoAcceptInRoaming on) (result N (serve (.setAutoAcceptInRoaming on)) w)
      (after N (serve (.setAutoAcceptInRoaming on)) w) := by
  rw [serve, result_bind, after_bind, setAutoAcceptInRoaming, result_bind, after_bind, after_stack,
    result_stack]
  by_cases hchangeable : w.stack.settings.autoAcceptChangeable = true
  · by_cases hon : w.stack.settings.autoAccept = true
    · rw [if_neg (by simp [hchangeable]), if_neg (by simp [hon])]
      exact .granted (.inRoaming on hchangeable hon) _
    · rw [if_neg (by simp [hchangeable]), if_pos (by simp [hon])]
      exact .refused _ fun s h => by cases h; contradiction
  · rw [if_pos (by simp [hchangeable])]
    exact .refused _ fun s h => by cases h; contradiction

theorem answers_setResize (number : Int64) (w : World E) :
    w.Answers (.setResize number) (result N (serve (.setResize number)) w)
      (after N (serve (.setResize number)) w) := by
  rw [serve, result_bind, after_bind, setResize]
  cases hoption : ResizeOption.ofNumber number with
  | ok option => exact .granted (.resize hoption) _
  | error f => exact .refused ⟨f.code, f.message⟩ fun s h => by cases h; simp_all

/-- **A request to change the settings is granted, or it is refused and changes nothing.** -/
theorem answers_serve (hop : op.IsSetting) (w : World E) :
    w.Answers op (result N (serve op) w) (after N (serve op) w) := by
  cases op with
  | setAutoAccept on => exact answers_setAutoAccept on w
  | setAutoAcceptInRoaming on => exact answers_setAutoAcceptInRoaming on w
  | setResize number => exact answers_setResize number w
  | _ => exact hop.elim

end Act

/-! ### Runs -/

/-- Whether auto-accept is set by what is asked in a stretch of a trace. -/
def SetsAutoAccept {ν : Type} (new : List (Event ν)) : Prop :=
  ∃ on, .asked (.service (.setAutoAccept on)) ∈ new

/-- Between two worlds, settings stay stray as long as auto-accept is not set, or may not be. -/
structure World.Strays (w w' : World E) : Prop where
  changeable : w'.stack.settings.autoAcceptChangeable = w.stack.settings.autoAcceptChangeable
  stray : ∃ new, w'.trace = w.trace ++ new ∧ (w'.stack.settings.IsStray ↔
    w.stack.settings.IsStray ∧
      (w.stack.settings.autoAcceptChangeable = true → ¬SetsAutoAccept new))

namespace World.Strays

variable {w w' w₁ w₂ : World E} {op : ServiceOp} {reply : Reply}

theorem quiet {new : List (Event E.Note)} (hstack : w'.stack = w.stack)
    (htrace : w'.trace = w.trace ++ new) (hnew : ¬SetsAutoAccept new) : w.Strays w' :=
  ⟨by rw [hstack], new, htrace, by simp [hstack, hnew]⟩

theorem refl (w : World E) : w.Strays w :=
  quiet rfl (List.append_nil _).symm fun ⟨_, h⟩ => List.not_mem_nil h

theorem trans (h : w.Strays w₁) (h' : w₁.Strays w₂) : w.Strays w₂ := by
  obtain ⟨hchangeable, new, htrace, hstray⟩ := h
  obtain ⟨hchangeable', new', htrace', hstray'⟩ := h'
  refine ⟨hchangeable'.trans hchangeable, new ++ new', ?_, ?_⟩
  · rw [htrace', htrace, List.append_assoc]
  · have hsets : SetsAutoAccept (new ++ new') ↔ SetsAutoAccept new ∨ SetsAutoAccept new' := by
      simp [SetsAutoAccept, exists_or]
    rw [hstray', hstray, hchangeable, hsets, not_or]
    tauto

theorem emit {e : Event E.Note} (he : ∀ op, e ≠ .asked op) (w : World E) : w.Strays (w.emit e) :=
  quiet rfl rfl fun ⟨_, h⟩ => he _ (List.mem_singleton.mp h).symm

/-- A request to change the settings is asked, and answered. -/
theorem answers (h : (w.emit (.asked (.service op))).Answers op reply w') : w.Strays w' := by
  cases h with
  | refused f hnone =>
    refine ⟨rfl, [.asked (.service op), .log .debug f.logLine], by simp, ?_⟩
    -- only where auto-accept may not be changed is it asked for in vain
    refine (and_iff_left fun hchangeable ⟨on, hmem⟩ => ?_).symm
    obtain rfl : ServiceOp.setAutoAccept on = op := by simpa using hmem
    exact hnone _ (.autoAccept on hchangeable)
  | granted hgrants line =>
    refine ⟨hgrants.changeable_eq, [.asked (.service op), .log .info line], by simp, ?_⟩
    refine hgrants.isStray_iff.trans (and_congr_right fun _ => ⟨fun hother _ => ?_, ?_⟩)
    · rintro ⟨on, hmem⟩
      exact hother on (by simpa [eq_comm] using hmem)
    · intro hno on hop
      subst hop
      cases hgrants with
      | autoAccept _ hchangeable => exact hno hchangeable ⟨on, List.mem_cons_self⟩

/-- Settings that are changed only by requests stay stray until auto-accept is set. -/
theorem play (depth : Nat) {α : Type} {p : Program E.State E.Note α} (hp : p.Asks Op.IsSetting)
    (w : World E) : w.Strays ((run E depth p).run w).2 := by
  refine after_play_of_asks hp refl trans (fun w n => emit (fun _ => by simp) w)
    (fun w _ => quiet rfl (List.append_nil _).symm fun ⟨_, h⟩ => List.not_mem_nil h) ?_ w
  intro w op hop
  cases depth with
  | zero => exact refl w
  | succ depth =>
    cases op with
    | service op => exact answers (Act.answers_serve (N := exec E depth) hop (w.emit (.asked _)))
    | _ => exact hop.elim

end World.Strays

namespace Settings

variable {c : Config} {s : Settings}

/-- **Settings are stray exactly if they were loaded so, and auto-accept was not set since or may
not be**, whatever is asked of the service to change them.  Such a request is granted, or it fails
and changes nothing. -/
theorem stray_iff (hload : load c = .ok s) (client : E.State) (depth : Nat) {α : Type}
    {p : Program E.State E.Note α} (hp : p.Asks Op.IsSetting) :
    let w := ((run E depth p).run (.start s client)).2
    (w.stack.settings.IsStray ↔ (c.sectionNode sectionKey).SaysStray ∧
        (s.autoAcceptChangeable = true →
          ∀ on, .asked (.service (.setAutoAccept on)) ∉ w.trace)) ∧
      ∀ (op : ServiceOp) (levels : Nat), op.IsSetting →
        let answer := (exec E (levels + 1) (.service op)).run w
        (∃ f, answer.1 = .outcome (.error f) ∧ answer.2.stack = w.stack) ∨
          ∃ s', w.stack.settings.Grants op s' ∧ answer.1 = .outcome (.ok ()) ∧
            answer.2.stack = { w.stack with settings := s' } := by
  intro w
  obtain ⟨-, new, htrace, hstray⟩ := World.Strays.play depth hp (.start s client)
  obtain rfl : w.trace = new := htrace
  refine ⟨?_, fun op levels hop => ?_⟩
  · have hrun : w.stack.settings.IsStray ↔ s.IsStray ∧
        (s.autoAcceptChangeable = true → ¬SetsAutoAccept w.trace) := hstray
    rw [hrun, isStray_of_load hload]
    simp only [SetsAutoAccept, not_exists]
  · exact (Act.answers_serve (N := exec E levels) hop (w.emit (.asked (.service op)))).spec

/-- A configuration that turns auto-accept on in roaming, and nothing else. -/
def roamingOnly : Config :=
  ⟨⟨#[⟨[("ft", .node 1)]⟩, ⟨[("autoAcceptInRoaming", .bool true)]⟩]⟩, 0⟩

/-- The settings that are loaded of it. -/
def stray : Settings := { default with autoAcceptInRoaming := true }

/-- Collaborators that do all they are asked, and a client to which nobody listens. -/
def quiet : Environment := .obliging fun _ _ _ => .done none

/-- Auto-accept in roaming cannot be turned off as long as auto-accept is off, but auto-accept can
be turned on. -/
def turnedOn : Program quiet.State quiet.Note Unit :=
  .call (.service (.setAutoAcceptInRoaming false)) fun _ =>
  .call (.service (.setAutoAccept true)) fun _ => .done ()

theorem stray_iff_turnedOn :
    let w := ((run quiet 1 turnedOn).run (.start stray ())).2
    load roamingOnly = .ok stray ∧ turnedOn.Asks Op.IsSetting ∧ ¬w.stack.settings.IsStray ∧
      (ServiceOp.setResize 3).IsSetting ∧
      ((exec quiet 1 (.service (.setResize 3))).run w).2.stack.settings = w.stack.settings := by
  intro w
  have hload : load roamingOnly = .ok stray := rfl
  have hasks : turnedOn.Asks Op.IsSetting := ⟨trivial, fun _ => ⟨trivial, fun _ => trivial⟩⟩
  obtain ⟨hstray, hanswer⟩ := stray_iff hload () 1 hasks
  refine ⟨hload, hasks, fun h => ?_, trivial, ?_⟩
  · refine (hstray.mp h).2 rfl true ?_
    exact List.mem_of_getElem? (i := 2) rfl
  · rcases hanswer (.setResize 3) 0 trivial with ⟨f, -, hsame⟩ | ⟨s, hgrants, -⟩
    · exact congrArg Stack.settings hsame
    · cases hgrants
      contradiction

/-- Settings are loaded that are stray, and the service reports them as they are. -/
theorem not_never_stray_roamingOnly :
    load roamingOnly = .ok stray ∧
      ((run quiet 1 (.done () : Program Unit Unit Unit)).run
        (.start stray ())).2.stack.settings.IsStray :=
  ⟨rfl, rfl, rfl⟩

end Settings

end FileSharing
