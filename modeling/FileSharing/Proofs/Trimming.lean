import FileSharing.Text
import Mathlib.Data.List.DropRight

/-!
# Trimming and cutting texts

A text is trimmed at both ends, and not by the same rule: blanks are dropped at its
start, blanks and carriage returns at its end.  Where blanks lead a text that holds
nothing else but line ends, the line ends are kept, so that trimming twice is not
always trimming once.

## Main definitions

* `IsTrimmed` — a text that trimming leaves as it is.
* `IsResidue` — line ends, the first of them a carriage return.

## Main results

* `isTrimmed_or_isResidue_trim` — **what is trimmed is trimmed, or a residue.**
* `trim_residue` — a residue does not survive being trimmed again,
  `trim_blank_trim` — **unless a blank is put before it.**
* `line?_append`, `word_append` — the first line and the first word of a text that is
  put together.
-/

namespace FileSharing.Text

variable {s l w rest : Text} {b : UInt8}

/-! ### Dropping from the end -/

theorem dropEnd_eq_rdropWhile (p : UInt8 → Bool) (s : Text) : dropEnd p s = s.rdropWhile p := rfl

/-- A carriage return ends a line, and is no blank. -/
theorem isLineEnd_cr : isLineEnd cr = true := by decide

theorem eq_cr_of_isLineEnd (h : isLineEnd b = true) (hb : isBlank b = false) : b = cr := by
  simpa [isLineEnd, hb] using h

/-- The end of a text ends as the text does. -/
theorem mem_getLast?_of_suffix (h : w <:+ s) (hb : b ∈ w.getLast?) : b ∈ s.getLast? := by
  obtain ⟨l, rfl⟩ := h
  have hne := List.ne_nil_of_mem (List.mem_of_mem_getLast? hb)
  rwa [List.getLast?_append_of_ne_nil _ hne]

/-- The first byte that is not dropped does not satisfy the predicate. -/
theorem not_of_mem_head?_dropWhile {p : UInt8 → Bool} (h : b ∈ (s.dropWhile p).head?) :
    p b = false := by
  have hhead := List.head?_dropWhile_not p s
  rwa [Option.mem_def.mp h] at hhead

/-- Where the first byte is kept, all are. -/
theorem dropWhile_eq_self {p : UInt8 → Bool} (h : ∀ b ∈ s.head?, p b = false) :
    s.dropWhile p = s := by
  cases s with
  | nil => rfl
  | cons a s => exact List.dropWhile_cons_of_neg (by simpa using h a (by simp))

/-- A stretch of bytes ends where another one follows. -/
theorem takeWhile_append_eq {p : UInt8 → Bool} (hl : ∀ b ∈ l, p b = true)
    (hrest : ∀ b ∈ rest.head?, p b = false) : (l ++ rest).takeWhile p = l := by
  have hstop : rest.takeWhile p = [] := by
    cases rest with
    | nil => rfl
    | cons a rest => exact List.takeWhile_cons_of_neg (by simp [hrest a rfl])
  rw [List.takeWhile_append_of_pos hl, hstop, List.append_nil]

theorem dropWhile_append_eq {p : UInt8 → Bool} (hl : ∀ b ∈ l, p b = true)
    (hrest : ∀ b ∈ rest.head?, p b = false) : (l ++ rest).dropWhile p = rest := by
  rw [List.dropWhile_append_of_pos hl, dropWhile_eq_self hrest]

/-- Dropping from the end stops at a byte that is kept. -/
theorem rdropWhile_append_cons {p : UInt8 → Bool} (hb : p b = false) (l rest : Text) :
    (l ++ b :: rest).rdropWhile p = l ++ b :: rest.rdropWhile p := by
  induction rest using List.reverseRecOn with
  | nil => exact List.rdropWhile_concat_neg _ _ _ (by simp [hb])
  | append_singleton rest a ih =>
    have hconcat : l ++ b :: (rest ++ [a]) = (l ++ b :: rest) ++ [a] := by simp
    rw [hconcat]
    by_cases ha : p a = true
    · rw [List.rdropWhile_concat_pos _ _ _ ha, List.rdropWhile_concat_pos _ _ _ ha, ih]
    · rw [List.rdropWhile_concat_neg _ _ _ ha, List.rdropWhile_concat_neg _ _ _ ha, ← hconcat]

/-! ### Trimmed texts -/

/-- Whether a text neither begins with a blank nor ends with a blank or a carriage
return. -/
structure IsTrimmed (s : Text) : Prop where
  head : ∀ b ∈ s.head?, isBlank b = false
  last : ∀ b ∈ s.getLast?, isLineEnd b = false

/-- Line ends, of which the first is a carriage return. -/
structure IsResidue (s : Text) : Prop where
  head : s.head? = some cr
  lineEnds : ∀ b ∈ s, isLineEnd b = true

theorem IsTrimmed.nil : IsTrimmed [] := ⟨by simp, by simp⟩

/-- Nothing is dropped from the end of a text that does not end with what is dropped. -/
theorem rdropWhile_eq_self {p : UInt8 → Bool} (h : ∀ b ∈ s.getLast?, p b = false) :
    s.rdropWhile p = s := by
  rw [List.rdropWhile_eq_self_iff]
  intro hs
  exact Bool.eq_false_iff.mp (h _ (List.getLast?_eq_some_getLast hs))

theorem getLast?_rdropWhile {p : UInt8 → Bool} (s : Text) :
    ∀ b ∈ (s.rdropWhile p).getLast?, p b = false := by
  intro b hb
  have hne := List.ne_nil_of_mem (List.mem_of_mem_getLast? hb)
  rw [List.getLast?_eq_some_getLast hne] at hb
  obtain rfl : _ = b := by simpa using hb
  exact Bool.eq_false_iff.mpr (List.rdropWhile_last_not _ _ hne)

/-- Dropping from the end keeps the first byte, as long as anything is kept. -/
theorem head?_rdropWhile {p : UInt8 → Bool} (h : s.rdropWhile p ≠ []) :
    (s.rdropWhile p).head? = s.head? := by
  obtain ⟨t, ht⟩ := List.rdropWhile_prefix p s
  cases hs : s.rdropWhile p with
  | nil => exact absurd hs h
  | cons a u =>
    rw [hs] at ht
    rw [← ht]
    rfl

/-- A text that does not begin with a blank is trimmed at its end. -/
theorem trim_of_head (h : ∀ b ∈ s.head?, isBlank b = false) :
    s.trim = s.rdropWhile isLineEnd := by
  simp only [trim, dropEnd_eq_rdropWhile, dropWhile_eq_self h]
  simp

/-- Where a blank leads, it matters whether anything but line ends follows. -/
theorem trim_cons_blank (hb : isBlank b = true) (s : Text) :
    trim (b :: s)
      = if (s.dropWhile isBlank).rdropWhile isLineEnd = [] then s.dropWhile isBlank
        else (s.dropWhile isBlank).rdropWhile isLineEnd := by
  have hlength : (s.dropWhile isBlank).length < s.length + 1 :=
    Nat.lt_succ_of_le (List.dropWhile_sublist _).length_le
  simp only [trim, dropEnd_eq_rdropWhile, List.dropWhile_cons_of_pos hb]
  simp [hlength]

/-- A trimmed text stays as it is. -/
theorem IsTrimmed.trim_eq (h : s.IsTrimmed) : s.trim = s := by
  rw [trim_of_head h.head, rdropWhile_eq_self h.last]

/-- The line ends after a text are dropped. -/
theorem trim_append_cr (h : s.IsTrimmed) : trim (s ++ [cr]) = s := by
  have hdrop : (s ++ [cr]).rdropWhile isLineEnd = s := by
    rw [List.rdropWhile_concat_pos _ _ _ isLineEnd_cr, rdropWhile_eq_self h.last]
  rw [trim_of_head, hdrop]
  intro b hb
  cases s with
  | nil =>
    obtain rfl : cr = b := by simpa using hb
    decide
  | cons a s => exact h.head b hb

/-- A text that is trimmed is trimmed, or a residue. -/
theorem isTrimmed_or_isResidue_trim (s : Text) : (trim s).IsTrimmed ∨ (trim s).IsResidue := by
  cases s with
  | nil => exact .inl .nil
  | cons a s =>
    by_cases ha : isBlank a = true
    · have hhead : ∀ b ∈ (s.dropWhile isBlank).head?, isBlank b = false :=
        fun b hb => not_of_mem_head?_dropWhile hb
      rw [trim_cons_blank ha]
      split
      · next hnone =>
        -- nothing but line ends follows the blanks
        cases hbody : s.dropWhile isBlank with
        | nil => exact .inl .nil
        | cons c u =>
          rw [hbody] at hhead hnone
          have hall := List.rdropWhile_eq_nil_iff.mp hnone
          refine .inr ⟨?_, hall⟩
          exact congrArg some (eq_cr_of_isLineEnd (hall c List.mem_cons_self) (hhead c rfl))
      · next hsome =>
        refine .inl ⟨fun b hb => hhead b ?_, getLast?_rdropWhile _⟩
        rwa [head?_rdropWhile hsome] at hb
    · have hhead : ∀ b ∈ (a :: s).head?, isBlank b = false := by
        intro b hb
        obtain rfl : a = b := by simpa using hb
        exact Bool.eq_false_iff.mpr ha
      rw [trim_of_head hhead]
      refine .inl ⟨fun b hb => ?_, getLast?_rdropWhile _⟩
      refine hhead b ?_
      rwa [head?_rdropWhile] at hb
      rintro hnil
      rw [hnil] at hb
      exact absurd hb (by simp)

namespace IsResidue

variable {s : Text}

theorem ne_nil (h : s.IsResidue) : s ≠ [] := by
  rintro rfl
  exact absurd h.head (by simp)

theorem head_not_blank (h : s.IsResidue) : ∀ b ∈ s.head?, isBlank b = false := by
  intro b hb
  rw [h.head] at hb
  obtain rfl : cr = b := by simpa using hb
  decide

theorem rdropWhile_eq (h : s.IsResidue) : s.rdropWhile isLineEnd = [] :=
  List.rdropWhile_eq_nil_iff.mpr h.lineEnds

end IsResidue

/-- A text that does not end with a line end is no residue. -/
theorem not_isResidue_of_last (h : ∀ b ∈ s.getLast?, isLineEnd b = false) : ¬s.IsResidue := by
  intro hres
  have hlast := List.getLast?_eq_some_getLast hres.ne_nil
  have hend := hres.lineEnds _ (List.getLast_mem hres.ne_nil)
  rw [h _ hlast] at hend
  exact Bool.noConfusion hend

/-- **A residue does not survive being trimmed again.** -/
theorem trim_residue (h : s.IsResidue) : s.trim = [] := by
  rw [trim_of_head h.head_not_blank, h.rdropWhile_eq]

/-- A text is trimmed by trimming it once if that leaves no residue. -/
theorem trim_trim_iff (s : Text) : (trim s).trim = trim s ↔ ¬(trim s).IsResidue := by
  constructor
  · intro htwice hresidue
    rw [trim_residue hresidue] at htwice
    exact hresidue.ne_nil htwice.symm
  · intro hno
    exact ((isTrimmed_or_isResidue_trim s).resolve_right hno).trim_eq

theorem IsTrimmed.trim_cons_blank (h : s.IsTrimmed) (hb : isBlank b = true) :
    trim (b :: s) = s := by
  rw [Text.trim_cons_blank hb, dropWhile_eq_self h.head, rdropWhile_eq_self h.last, ite_self]

/-- **What is trimmed is found again after a blank**, be it a residue or not. -/
theorem trim_blank_trim (hb : isBlank b = true) (s : Text) : trim (b :: trim s) = trim s := by
  rcases isTrimmed_or_isResidue_trim s with htrimmed | hresidue
  · exact htrimmed.trim_cons_blank hb
  · rw [trim_cons_blank hb, dropWhile_eq_self hresidue.head_not_blank,
      if_pos hresidue.rdropWhile_eq]

/-- A text that does not end with a line end is trimmed by dropping the blanks at its start. -/
theorem isTrimmed_trim_of_last (h : ∀ b ∈ s.getLast?, isLineEnd b = false) :
    (trim s).IsTrimmed := by
  refine (isTrimmed_or_isResidue_trim s).resolve_right fun hresidue => ?_
  have hbody : ∀ b ∈ (s.dropWhile isBlank).getLast?, isLineEnd b = false :=
    fun b hb => h b (mem_getLast?_of_suffix (List.dropWhile_suffix _) hb)
  have htrim : trim s = s.dropWhile isBlank := by
    simp only [trim, dropEnd_eq_rdropWhile, rdropWhile_eq_self hbody, ite_self]
  rw [htrim] at hresidue
  exact not_isResidue_of_last hbody hresidue

/-- Trimming only takes away. -/
theorem mem_of_mem_trim (h : b ∈ trim s) : b ∈ s := by
  unfold trim at h
  dsimp only at h
  split at h
  · exact (List.dropWhile_sublist _).subset h
  · exact (List.dropWhile_sublist _).subset ((List.rdropWhile_prefix _ _).subset h)

/-! ### Lines -/

theorem line?_eq (hs : s ≠ []) :
    line? s = some (s.takeWhile (· != lf), (s.dropWhile (· != lf)).drop 1) := by
  cases s with
  | nil => exact absurd rfl hs
  | cons a s => rfl

/-- The first line ends at the first line feed, or with the text. -/
theorem line?_append_tail (hl : lf ∉ l) (hrest : ∀ b ∈ rest.head?, b = lf)
    (hne : l ++ rest ≠ []) : line? (l ++ rest) = some (l, rest.drop 1) := by
  have hline : ∀ b ∈ l, (b != lf) = true := fun b hb => bne_iff_ne.mpr fun h => hl (h ▸ hb)
  have hstop : ∀ b ∈ rest.head?, (b != lf) = false := fun b hb => by simp [hrest b hb]
  rw [line?_eq hne, takeWhile_append_eq hline hstop, dropWhile_append_eq hline hstop]

theorem line?_append (hl : lf ∉ l) (rest : Text) : line? (l ++ lf :: rest) = some (l, rest) :=
  line?_append_tail hl (by simp) (by simp)

/-- A text without a line feed is one line. -/
theorem line?_of_lf_not_mem (hl : lf ∉ l) (hne : l ≠ []) : line? l = some (l, []) := by
  have h : line? (l ++ []) = some (l, _) :=
    line?_append_tail hl (by simp) (by simpa using hne)
  rwa [List.append_nil] at h

/-- A text is its first line, and behind its line feed the rest, if there is any. -/
theorem eq_of_line? (h : line? s = some (l, rest)) :
    lf ∉ l ∧ (s = l ++ lf :: rest ∨ s = l ∧ rest = []) := by
  cases s with
  | nil => exact absurd h (by simp [line?])
  | cons a s =>
    rw [line?_eq (List.cons_ne_nil a s)] at h
    obtain ⟨rfl, rfl⟩ := Prod.mk.inj (Option.some.inj h)
    refine ⟨fun hmem => absurd (List.mem_takeWhile_imp hmem) (by simp), ?_⟩
    generalize a :: s = s
    have hparts := List.takeWhile_append_dropWhile (p := (· != lf)) (l := s)
    cases hdrop : s.dropWhile (· != lf) with
    | nil =>
      right
      rw [hdrop, List.append_nil] at hparts
      exact ⟨hparts.symm, rfl⟩
    | cons c rest =>
      left
      have hhead : c ∈ (s.dropWhile (· != lf)).head? := by
        rw [hdrop]
        rfl
      have hc := not_of_mem_head?_dropWhile hhead
      obtain rfl : c = lf := by simpa using hc
      rw [hdrop] at hparts
      exact hparts.symm

/-- A line has no line feed. -/
theorem lf_not_mem_of_line? (h : line? s = some (l, rest)) : lf ∉ l := (eq_of_line? h).1

theorem dropCr_nil : dropCr [] = [] := rfl

theorem dropCr_concat (l : Text) : dropCr (l ++ [cr]) = l := by simp [dropCr]

theorem mem_of_mem_dropCr (h : b ∈ dropCr l) : b ∈ l := by
  unfold dropCr at h
  split at h
  · exact (List.dropLast_sublist l).subset h
  · exact h

/-- Nothing but a carriage return is dropped. -/
theorem mem_dropCr_iff (hb : b ≠ cr) : b ∈ dropCr l ↔ b ∈ l := by
  refine ⟨mem_of_mem_dropCr, fun h => ?_⟩
  unfold dropCr
  split
  · next hcr =>
    obtain ⟨l, rfl⟩ := List.getLast?_eq_some_iff.mp hcr
    rw [List.mem_append, List.mem_singleton] at h
    rw [List.dropLast_concat]
    exact h.resolve_right hb
  · exact h

/-- An empty line may have a carriage return. -/
theorem dropCr_eq_nil_iff : dropCr l = [] ↔ l = [] ∨ l = [cr] := by
  constructor
  · intro h
    unfold dropCr at h
    split at h
    · next hcr =>
      obtain ⟨l, rfl⟩ := List.getLast?_eq_some_iff.mp hcr
      rw [List.dropLast_concat] at h
      right
      rw [h, List.nil_append]
    · exact .inl h
  · rintro (rfl | rfl)
    · rfl
    · rfl

/-! ### Words -/

theorem isSpace_of_isBlank (h : isBlank b = true) : isSpace b = true := by
  simp only [isBlank, isSpace, Bool.or_eq_true, beq_iff_eq] at h ⊢
  rcases h with rfl | rfl
  · decide
  · decide

/-- What is no white space is no blank. -/
theorem not_isBlank_of_not_isSpace (h : isSpace b = false) : isBlank b = false := by
  refine Bool.eq_false_iff.mpr fun hblank => ?_
  exact absurd (isSpace_of_isBlank hblank) (by simp [h])

/-- It ends no line, either. -/
theorem not_isLineEnd_of_not_isSpace (h : isSpace b = false) : isLineEnd b = false := by
  refine Bool.eq_false_iff.mpr fun hend => ?_
  obtain rfl := eq_cr_of_isLineEnd hend (not_isBlank_of_not_isSpace h)
  exact absurd h (by decide)

/-- The first word ends where white space begins. -/
theorem word_append (hne : w ≠ []) (hw : ∀ b ∈ w, isSpace b = false)
    (hrest : ∀ b ∈ rest.head?, isSpace b = true) : word (w ++ rest) = (w, rest) := by
  have hstart : (w ++ rest).dropWhile isSpace = w ++ rest := by
    refine dropWhile_eq_self fun b hb => ?_
    rw [List.head?_append_of_ne_nil _ hne] at hb
    exact hw b (List.mem_of_mem_head? hb)
  have hword : ∀ b ∈ w, (!isSpace b) = true := fun b hb => by simp [hw b hb]
  have hstop : ∀ b ∈ rest.head?, (!isSpace b) = false := fun b hb => by simp [hrest b hb]
  simp only [word]
  rw [hstart, takeWhile_append_eq hword hstop, dropWhile_append_eq hword hstop]

/-- White space before a word is skipped. -/
theorem word_cons_space (hb : isSpace b = true) (s : Text) : word (b :: s) = word s := by
  simp only [word]
  rw [List.dropWhile_cons_of_pos hb]

/-- A word holds no white space. -/
theorem not_isSpace_of_mem_word (h : b ∈ (word s).1) : isSpace b = false := by
  simpa using List.mem_takeWhile_imp h

/-- What follows a word is the end of the text. -/
theorem word_suffix (s : Text) : (word s).2 <:+ s :=
  (List.dropWhile_suffix _).trans (List.dropWhile_suffix _)

/-! ### Cuts -/

/-- A text is cut at the first byte of a kind. -/
theorem cutAtByte?_append (hb : b ∉ l) (rest : Text) :
    cutAtByte? b (l ++ b :: rest) = some (l, rest) := by
  have hbefore : ∀ a ∈ l, (a != b) = true := fun a ha => bne_iff_ne.mpr fun h => hb (h ▸ ha)
  have hstop : ∀ a ∈ (b :: rest).head?, (a != b) = false := by simp
  unfold cutAtByte?
  rw [takeWhile_append_eq hbefore hstop, dropWhile_append_eq hbefore hstop]

/-- There is a cut where there is such a byte. -/
theorem cutAtByte?_eq_none_iff : cutAtByte? b s = none ↔ b ∉ s := by
  unfold cutAtByte?
  constructor
  · intro h hmem
    split at h
    · next hdrop =>
      have hbefore := List.dropWhile_eq_nil_iff.mp hdrop b hmem
      exact absurd hbefore (by simp)
    · exact absurd h (by simp)
  · intro hno
    have hdrop : s.dropWhile (· != b) = [] :=
      List.dropWhile_eq_nil_iff.mpr fun a ha => bne_iff_ne.mpr fun h => hno (h ▸ ha)
    rw [hdrop]

/-- What comes of a cut, put together again, is the text. -/
theorem eq_of_cutAtByte? {before after : Text} (h : cutAtByte? b s = some (before, after)) :
    s = before ++ b :: after ∧ b ∉ before := by
  unfold cutAtByte? at h
  split at h
  · exact absurd h (by simp)
  · next a t hdrop =>
    obtain ⟨rfl, rfl⟩ := Prod.mk.inj (Option.some.inj h)
    obtain rfl : a = b := by
      have hmem : a ∈ (s.dropWhile (· != b)).head? := by rw [hdrop]; rfl
      simpa using not_of_mem_head?_dropWhile hmem
    refine ⟨?_, fun hmem => absurd (List.mem_takeWhile_imp hmem) (by simp)⟩
    conv_lhs => rw [← List.takeWhile_append_dropWhile (p := (· != a)) (l := s), hdrop]

end FileSharing.Text
