import FileSharing.Proofs.Action
import Mathlib.Data.List.Basic

/-!
# What never changes back

Whatever happens, the trace only becomes longer, sessions are only added, and a
session keeps who it is with and what it is about: its marks are set and never
taken back.

## Main definitions

* `Terms` — what is fixed about a file from the start.
* `Session.Ages` — what a session keeps.
* `World.Grows` — what a world keeps.
-/

namespace FileSharing

/-! ### Changes of one session -/

/-- What is fixed about the file of a session from the start. -/
structure Terms where
  /-- The file. -/
  content : Content
  /-- When the file expires. -/
  fileExpiry : Int
  /-- When the icon expires. -/
  iconExpiry : Int
  /-- Whether the file is downloaded. -/
  isIncoming : Bool
  deriving DecidableEq, Repr

/-- Whether a part in a transfer is that of a download. -/
def Role.isIncoming : Role → Bool
  | incoming _ => true
  | _ => false

/-- What is fixed about a transfer. -/
def Transfer.terms (t : Transfer) : Terms :=
  ⟨t.content, t.fileExpiry, t.iconExpiry, t.role.isIncoming⟩

namespace Stack

variable {s : Stack} {r q : Ref}

theorem session_of_size_le (h : s.sessions.size ≤ r) : s.session r = default := by
  simp [session, h]

@[simp] theorem size_update (f : Session → Session) :
    (s.update r f).sessions.size = s.sessions.size := by
  simp [update]

theorem session_update_self (h : r < s.sessions.size) (f : Session → Session) :
    (s.update r f).session r = f (s.session r) := by
  simp [update, session, h, Array.getElem_modify_self]

theorem session_update_of_ne (h : q ≠ r) (f : Session → Session) :
    (s.update r f).session q = s.session q := by
  simp [update, session, Array.getElem?_modify, Ne.symm h]

/-- A change of sessions that keeps `g` keeps `g` of every session. -/
theorem apply_session_update {β : Type} (g : Session → β) {f : Session → Session}
    (h : ∀ x, g (f x) = g x) : g ((s.update r f).session q) = g (s.session q) := by
  by_cases hq : q = r
  · subst hq
    by_cases hs : q < s.sessions.size
    · rw [session_update_self hs, h]
    · rw [session_of_size_le (by simpa using hs), session_of_size_le (by simpa using hs)]
  · rw [session_update_of_ne hq]

theorem transfer_eq_of_mem {t : Transfer} (h : t ∈ (s.session r).transfer) : s.transfer r = t := by
  rw [transfer, Option.mem_def.mp h, Option.getD_some]

theorem isTransfer_eq : s.isTransfer r = (s.session r).transfer.isSome := by
  rcases hr : s.sessions[r]? with _ | x
  · simp only [isTransfer, session, hr]; rfl
  · simp [isTransfer, session, hr]

theorem lt_size_of_isTransfer (h : s.isTransfer r = true) : r < s.sessions.size := by
  by_contra hr
  rw [isTransfer_eq, session_of_size_le (Nat.not_lt.mp hr)] at h
  exact absurd h (by decide)

theorem updateTransfer_session_self (h : r < s.sessions.size) (f : Transfer → Transfer) :
    (s.updateTransfer r f).session r
      = { s.session r with transfer := (s.session r).transfer.map f } :=
  session_update_self h _

/-- A change of the file part that a session has. -/
theorem transfer_updateTransfer_self (h : s.isTransfer r = true) (f : Transfer → Transfer) :
    (s.updateTransfer r f).transfer r = f (s.transfer r) := by
  have hr := lt_size_of_isTransfer h
  rw [isTransfer_eq, Option.isSome_iff_exists] at h
  obtain ⟨t, ht⟩ := h
  rw [transfer, updateTransfer_session_self hr, transfer, ht]
  rfl

/-- A change of the file part keeps all else of every session. -/
theorem apply_session_updateTransfer {β : Type} (g : Session → β) (f : Transfer → Transfer)
    (h : ∀ (x : Session) t, g { x with transfer := t } = g x) :
    g ((s.updateTransfer r f).session q) = g (s.session q) :=
  apply_session_update g fun x => h x _

theorem interrupted_updateTransfer (f : Transfer → Transfer) :
    ((s.updateTransfer r f).session q).interrupted = (s.session q).interrupted :=
  apply_session_updateTransfer Session.interrupted f fun _ _ => rfl

/-- A change of file parts that keeps `g` keeps `g` of every file part. -/
theorem apply_transfer_updateTransfer {β : Type} (g : Transfer → β) {f : Transfer → Transfer}
    (h : ∀ t, g (f t) = g t) : g ((s.updateTransfer r f).transfer q) = g (s.transfer q) := by
  have hmap : ∀ x : Option Transfer, g ((x.map f).getD default) = g (x.getD default) := by
    intro x
    cases x with
    | none => rfl
    | some t => exact h t
  exact apply_session_update (fun x => g (x.transfer.getD default)) fun x => hmap x.transfer

end Stack

/-! ### What is kept -/

/-- What a session keeps while it lives: who it is with and what it is about, and
its marks once they are set. -/
structure Session.Ages (x y : Session) : Prop where
  id : y.id = x.id
  contact : y.contact = x.contact
  interrupted : x.interrupted = true → y.interrupted = true
  removed : x.removed = true → y.removed = true
  terms : y.transfer.map Transfer.terms = x.transfer.map Transfer.terms

namespace Session.Ages

theorem refl (x : Session) : x.Ages x := ⟨rfl, rfl, fun h => h, fun h => h, rfl⟩

theorem trans {x y z : Session} (h : x.Ages y) (h' : y.Ages z) : x.Ages z :=
  ⟨h'.id.trans h.id, h'.contact.trans h.contact, fun hx => h'.interrupted (h.interrupted hx),
    fun hx => h'.removed (h.removed hx), h'.terms.trans h.terms⟩

theorem interrupt (x : Session) : x.Ages { x with interrupted := true } :=
  ⟨rfl, rfl, fun _ => rfl, fun h => h, rfl⟩

theorem leave (x : Session) : x.Ages { x with removed := true } :=
  ⟨rfl, rfl, fun h => h, fun _ => rfl, rfl⟩

theorem dialog (x : Session) (d : Option Sip.Dialog) : x.Ages { x with dialog := d } :=
  ⟨rfl, rfl, fun h => h, fun h => h, rfl⟩

/-- A change of the file part that keeps what is fixed about it. -/
theorem ofTransfer (x : Session) {f : Transfer → Transfer}
    (h : ∀ t ∈ x.transfer, (f t).terms = t.terms) :
    x.Ages { x with transfer := x.transfer.map f } := by
  refine ⟨rfl, rfl, fun h => h, fun h => h, ?_⟩
  cases hx : x.transfer with
  | none => rfl
  | some t => exact congrArg some (h t hx)

theorem isSome {x y : Session} (h : x.Ages y) : y.transfer.isSome = x.transfer.isSome := by
  simpa using congrArg Option.isSome h.terms

end Session.Ages

/-- What a world keeps: its past, and what its sessions keep. -/
structure World.Grows {E : Environment} (w w' : World E) : Prop where
  /-- The trace goes on from where it was. -/
  trace : w.trace <+: w'.trace
  /-- Sessions are only added. -/
  size : w.stack.sessions.size ≤ w'.stack.sessions.size
  ages : ∀ r < w.stack.sessions.size, (w.stack.session r).Ages (w'.stack.session r)

namespace World.Grows

variable {E : Environment} {w w₁ w₂ : World E} {r : Ref}

theorem refl (w : World E) : w.Grows w := ⟨List.prefix_rfl, Nat.le_refl _, fun _ _ => .refl _⟩

theorem trans (h : w.Grows w₁) (h' : w₁.Grows w₂) : w.Grows w₂ :=
  ⟨h.trace.trans h'.trace, Nat.le_trans h.size h'.size,
    fun r hr => (h.ages r hr).trans (h'.ages r (Nat.lt_of_lt_of_le hr h.size))⟩

/-- A session that nobody has made is not interrupted. -/
theorem lt_size_of_interrupted (h : (w.stack.session r).interrupted = true) :
    r < w.stack.sessions.size := by
  by_contra hr
  rw [Stack.session_of_size_le (Nat.not_lt.mp hr)] at h
  exact absurd h (by decide)

theorem interrupted (h : w.Grows w₁) (hr : (w.stack.session r).interrupted = true) :
    (w₁.stack.session r).interrupted = true :=
  (h.ages r (lt_size_of_interrupted hr)).interrupted hr

/-- A session that nobody has made has not left. -/
theorem lt_size_of_removed (h : (w.stack.session r).removed = true) :
    r < w.stack.sessions.size := by
  by_contra hr
  rw [Stack.session_of_size_le (Nat.not_lt.mp hr)] at h
  exact absurd h (by decide)

theorem removed (h : w.Grows w₁) (hr : (w.stack.session r).removed = true) :
    (w₁.stack.session r).removed = true :=
  (h.ages r (lt_size_of_removed hr)).removed hr

theorem isTransfer (h : w.Grows w₁) (hr : w.stack.isTransfer r = true) :
    w₁.stack.isTransfer r = true := by
  have := (h.ages r (Stack.lt_size_of_isTransfer hr)).isSome
  rw [Stack.isTransfer_eq] at hr ⊢
  rw [this, hr]

theorem terms (h : w.Grows w₁) (hr : w.stack.isTransfer r = true) :
    (w₁.stack.transfer r).terms = (w.stack.transfer r).terms := by
  have hterms := (h.ages r (Stack.lt_size_of_isTransfer hr)).terms
  rw [Stack.isTransfer_eq, Option.isSome_iff_exists] at hr
  obtain ⟨t, ht⟩ := hr
  rw [ht, Option.map_some, Option.map_eq_some_iff] at hterms
  obtain ⟨t', ht', hterms⟩ := hterms
  simp [Stack.transfer, ht, ht', hterms]

/-- What is fixed about a file stays, also where there is no file. -/
theorem terms_of_lt (h : w.Grows w₁) (hr : r < w.stack.sessions.size) :
    (w₁.stack.transfer r).terms = (w.stack.transfer r).terms := by
  have hterms : ∀ x : Option Transfer,
      (x.getD default).terms = (x.map Transfer.terms).getD (default : Transfer).terms := by
    intro x
    cases x with
    | none => rfl
    | some t => rfl
  rw [Stack.transfer, Stack.transfer, hterms, hterms, (h.ages r hr).terms]

theorem emit (w : World E) (e : Event E.Note) : w.Grows (w.emit e) :=
  ⟨⟨[e], rfl⟩, Nat.le_refl _, fun _ _ => .refl _⟩

theorem emitted (h : w.Grows w₁) (e : Event E.Note) : w.Grows (w₁.emit e) := h.trans (emit w₁ e)

theorem withClient (w : World E) (c : E.State) : w.Grows (w.withClient c) :=
  ⟨List.prefix_rfl, Nat.le_refl _, fun _ _ => .refl _⟩

/-- A change of one session. -/
theorem update (w : World E) (r : Ref) {f : Session → Session}
    (h : (w.stack.session r).Ages (f (w.stack.session r))) :
    w.Grows (w.change (·.update r f)) := by
  refine ⟨List.prefix_rfl, by simp, ?_⟩
  intro q hq
  by_cases hqr : q = r
  · subst hqr
    rw [World.change_stack, Stack.session_update_self hq]
    exact h
  · rw [World.change_stack, Stack.session_update_of_ne hqr]
    exact .refl _

/-- A change of one session's file part. -/
theorem updateTransfer (w : World E) (r : Ref) {f : Transfer → Transfer}
    (h : ∀ t, (f t).terms = t.terms) : w.Grows (w.change (·.updateTransfer r f)) :=
  update w r (.ofTransfer _ fun t _ => h t)

/-- A change of anything but the sessions. -/
theorem change (w : World E) {f : Stack → Stack} (h : (f w.stack).sessions = w.stack.sessions) :
    w.Grows (w.change f) := by
  refine ⟨List.prefix_rfl, by simp [h], ?_⟩
  intro r _
  simp only [World.change_stack, Stack.session, h]
  exact .refl _

end World.Grows

end FileSharing
