import FileSharing.Proofs.Trimming

/-!
# Cutting texts at a word

A text is cut at the first occurrence of a word.  A byte that the word does not hold is a
barrier: no occurrence of the word reaches across it, so the first one is found on its near side
if there is one, and on its far side otherwise.

## Main definitions

* `IsCut` — the parts before and after the first occurrence of a word.

## Main results

* `cutAt?_eq_some_iff`, `cutAt?_eq_none_iff` — **a text is cut at the first occurrence, if there
  is one.**
* `cutAt?_append_cons` — a text with a barrier is cut on one of its sides,
  `cutAt?_append_head` — and so is one with a byte that only begins the word.
-/

namespace FileSharing.Text

variable {word s t before after : Text} {b : UInt8}

/-! ### Leading words -/

theorem stripLeading?_eq_some_iff : stripLeading? word s = some after ↔ s = word ++ after := by
  induction word generalizing s with
  | nil => simp [stripLeading?]
  | cons w word ih =>
    cases s with
    | nil => simp [stripLeading?]
    | cons b s =>
      by_cases hb : w = b
      · simp [stripLeading?, hb, ih]
      · simp [stripLeading?, hb, Ne.symm hb]

theorem stripLeading?_eq_none_iff : stripLeading? word s = none ↔ ¬word <+: s := by
  rw [Option.eq_none_iff_forall_ne_some, List.IsPrefix, not_exists]
  refine forall_congr' fun after => not_congr ?_
  rw [stripLeading?_eq_some_iff, eq_comm]

/-- A word does not reach across a byte that it does not hold. -/
theorem stripLeading?_append_cons (hb : b ∉ word) (s t : Text) :
    stripLeading? word (s ++ b :: t) = (stripLeading? word s).map (· ++ b :: t) := by
  induction word generalizing s with
  | nil => rfl
  | cons w word ih =>
    obtain ⟨hw, hword⟩ := not_or.mp (fun h => hb (List.mem_cons.mpr h))
    cases s with
    | nil => simp [stripLeading?, Ne.symm hw]
    | cons c s =>
      by_cases hc : w = c
      · simp [stripLeading?, hc, ih hword]
      · simp [stripLeading?, hc]

/-! ### First occurrences -/

/-- Whether a text consists of what stands before the first occurrence of a word, the word, and
what stands after it. -/
structure IsCut (word s before after : Text) : Prop where
  eq : s = before ++ word ++ after
  first : ∀ b a, s = b ++ word ++ a → before.length ≤ b.length

/-- There is one first occurrence at most. -/
theorem IsCut.unique {before' after' : Text} (h : IsCut word s before after)
    (h' : IsCut word s before' after') : before = before' ∧ after = after' := by
  have hlength : before.length = before'.length :=
    Nat.le_antisymm (h.first _ _ h'.eq) (h'.first _ _ h.eq)
  have heq := h.eq.symm.trans h'.eq
  rw [List.append_assoc, List.append_assoc] at heq
  obtain ⟨hbefore, hrest⟩ := List.append_inj heq hlength
  exact ⟨hbefore, List.append_cancel_left hrest⟩

theorem cutAt?_cons (word : Text) (b : UInt8) (s : Text) :
    cutAt? word (b :: s) = match stripLeading? word (b :: s) with
      | some after => some ([], after)
      | none => (cutAt? word s).map fun p => (b :: p.1, p.2) := rfl

theorem isCut_of_cutAt? (h : cutAt? word s = some (before, after)) :
    IsCut word s before after := by
  induction s generalizing before with
  | nil =>
    obtain ⟨rest, hrest, heq⟩ := Option.map_eq_some_iff.mp h
    obtain ⟨rfl, rfl⟩ := Prod.mk.inj heq
    exact ⟨stripLeading?_eq_some_iff.mp hrest, fun _ _ _ => Nat.zero_le _⟩
  | cons c s ih =>
    rw [cutAt?_cons] at h
    cases hstrip : stripLeading? word (c :: s) with
    | some rest =>
      rw [hstrip] at h
      obtain ⟨rfl, rfl⟩ := Prod.mk.inj (Option.some.inj h)
      exact ⟨stripLeading?_eq_some_iff.mp hstrip, fun _ _ _ => Nat.zero_le _⟩
    | none =>
      rw [hstrip] at h
      obtain ⟨⟨before', after'⟩, hcut, heq⟩ := Option.map_eq_some_iff.mp h
      obtain ⟨rfl, rfl⟩ := Prod.mk.inj heq
      have hlater := ih hcut
      refine ⟨by rw [hlater.eq]; rfl, fun l a hl => ?_⟩
      cases l with
      | nil =>
        -- the word does not lead the text
        have hleads := stripLeading?_eq_some_iff.mpr hl
        exact absurd hleads (by simp [hstrip])
      | cons d l =>
        have htail : s = l ++ word ++ a := (List.cons.inj hl).2
        exact Nat.succ_le_succ (hlater.first l a htail)

/-- Where there is no cut, the word does not occur. -/
theorem cutAt?_eq_none_iff : cutAt? word s = none ↔ ¬word <:+: s := by
  constructor
  · rintro hnone ⟨l, a, hl⟩
    induction l generalizing s with
    | nil =>
      have hleads : stripLeading? word s = some a := stripLeading?_eq_some_iff.mpr hl.symm
      cases s with
      | nil => exact absurd hnone (by simp [cutAt?, hleads])
      | cons c s => exact absurd hnone (by simp [cutAt?_cons, hleads])
    | cons d l ih =>
      cases s with
      | nil => exact absurd hl (by simp)
      | cons c s =>
        obtain ⟨rfl, htail⟩ := List.cons.inj hl
        rw [cutAt?_cons] at hnone
        split at hnone
        · exact absurd hnone (by simp)
        · exact ih (Option.map_eq_none_iff.mp hnone) htail
  · intro hno
    cases hcut : cutAt? word s with
    | none => rfl
    | some p =>
      obtain ⟨before, after⟩ := p
      exact absurd ⟨before, after, (isCut_of_cutAt? hcut).eq.symm⟩ hno

/-- **A text is cut at the first occurrence of the word.** -/
theorem cutAt?_eq_some_iff : cutAt? word s = some (before, after) ↔ IsCut word s before after := by
  refine ⟨isCut_of_cutAt?, fun h => ?_⟩
  cases hcut : cutAt? word s with
  | none => exact absurd ⟨before, after, h.eq.symm⟩ (cutAt?_eq_none_iff.mp hcut)
  | some p =>
    obtain ⟨before', after'⟩ := p
    obtain ⟨rfl, rfl⟩ := (isCut_of_cutAt? hcut).unique h
    rfl

/-! ### Barriers -/

/-- **A text with a barrier is cut on the near side of it** if the word occurs there, and on the
far side otherwise. -/
theorem cutAt?_append_cons (hb : b ∉ word) (s t : Text) :
    cutAt? word (s ++ b :: t) = match cutAt? word s with
      | some (before, after) => some (before, after ++ b :: t)
      | none => (cutAt? word t).map fun p => (s ++ b :: p.1, p.2) := by
  induction s with
  | nil =>
    have hstrip := stripLeading?_append_cons hb [] t
    rw [List.nil_append] at hstrip ⊢
    rw [cutAt?_cons, hstrip, cutAt?]
    cases stripLeading? word [] with
    | none => rfl
    | some rest => rfl
  | cons c s ih =>
    rw [List.cons_append, cutAt?_cons, cutAt?_cons, ← List.cons_append,
      stripLeading?_append_cons hb (c :: s) t]
    cases stripLeading? word (c :: s) with
    | some rest => rfl
    | none =>
      simp only [Option.map_none, ih]
      cases cutAt? word s with
      | some p => rfl
      | none => simp [Function.comp_def]

/-- A byte that begins the word, and that the word holds nowhere else, is a barrier to all
occurrences that begin before it. -/
theorem cutAt?_append_head (hb : b ∉ word) (s t : Text) :
    cutAt? (b :: word) (s ++ b :: t) = match cutAt? (b :: word) s with
      | some (before, after) => some (before, after ++ b :: t)
      | none => (cutAt? (b :: word) (b :: t)).map fun p => (s ++ p.1, p.2) := by
  induction s with
  | nil => simp [cutAt?, stripLeading?]
  | cons c s ih =>
    have hstrip : stripLeading? (b :: word) (c :: (s ++ b :: t))
        = (stripLeading? (b :: word) (c :: s)).map (· ++ b :: t) := by
      by_cases hc : b = c
      · simp [stripLeading?, hc, stripLeading?_append_cons (hc ▸ hb)]
      · simp [stripLeading?, hc]
    rw [List.cons_append, cutAt?_cons, cutAt?_cons, hstrip]
    cases stripLeading? (b :: word) (c :: s) with
    | some rest => rfl
    | none =>
      simp only [Option.map_none, ih]
      cases cutAt? (b :: word) s with
      | some p => rfl
      | none => simp [Function.comp_def]

/-- What stands before a byte ends where the byte stands for the first time. -/
theorem before_append_cons (b : UInt8) (s t : Text) :
    Text.before b (s ++ b :: t) = Text.before b s := by
  unfold Text.before
  induction s with
  | nil => simp
  | cons c s ih =>
    rw [List.cons_append, List.takeWhile_cons, List.takeWhile_cons, ih]

/-- A text that is cut at a byte is cut there as well where it goes on. -/
theorem cutAtByte?_append_of_cut (h : cutAtByte? b s = some (before, after)) (t : Text) :
    cutAtByte? b (s ++ t) = some (before, after ++ t) := by
  obtain ⟨rfl, hb⟩ := eq_of_cutAtByte? h
  rw [List.append_assoc, List.cons_append]
  exact cutAtByte?_append hb _

end FileSharing.Text
