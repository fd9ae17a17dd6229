import FileSharing.Proofs.Editing

/-!
# What trimming takes away

A text is meant to be trimmed of the longest run of blanks at its start, and of the longest run
of blanks and carriage returns at the end of what is then left.  It is, with one exception: where
a blank leads a text that holds nothing but line ends from its first carriage return on, these
line ends are left.  What is left is then not trimmed, and is gone when it is trimmed again.  The
canonical spelling of a name, which is trimmed as well, has the same exception.

## Main definitions

* `IsLongestLead`, `IsLongestEnd` — the longest run of bytes of a kind at one end of a text.
* `IsStripped` — what is left of a text without these runs.
* `LeavesLineEnds` — the texts that are not trimmed as they should be.

## Main results

* `isStripped_iff` — a text is stripped in one way.
* `isStripped_trim_iff` — **trimming strips a text unless it leaves line ends.**
* `Sip.strips_iff` — whether it does so decides how the text ends, and whether trimming it again
  or spelling it again as a name changes it.
-/

namespace FileSharing.Text

variable {p : UInt8 → Bool} {s t lead tail rest : Text} {b : UInt8}

/-! ### Longest runs -/

/-- Whether a text is the longest run of bytes with `p` at the start of another. -/
structure IsLongestLead (p : UInt8 → Bool) (lead s : Text) : Prop where
  leads : lead <+: s
  all : ∀ b ∈ lead, p b = true
  longest : ∀ l, l <+: s → (∀ b ∈ l, p b = true) → l.length ≤ lead.length

/-- Whether a text is the longest run of bytes with `p` at the end of another. -/
structure IsLongestEnd (p : UInt8 → Bool) (tail s : Text) : Prop where
  ends : tail <:+ s
  all : ∀ b ∈ tail, p b = true
  longest : ∀ l, l <:+ s → (∀ b ∈ l, p b = true) → l.length ≤ tail.length

theorem isLongestLead_takeWhile (p : UInt8 → Bool) (s : Text) :
    IsLongestLead p (s.takeWhile p) s where
  leads := List.takeWhile_prefix p
  all := fun _ hb => List.mem_takeWhile_imp hb
  longest := by
    rintro l ⟨rest, rfl⟩ hl
    rw [List.takeWhile_append_of_pos hl, List.length_append]
    omega

theorem isLongestLead_iff : IsLongestLead p lead s ↔ lead = s.takeWhile p := by
  constructor
  · intro h
    have hrun := isLongestLead_takeWhile p s
    have hle := hrun.longest lead h.leads h.all
    have hge := h.longest _ hrun.leads hrun.all
    exact (List.prefix_of_prefix_length_le h.leads hrun.leads hle).eq_of_length (by omega)
  · rintro rfl
    exact isLongestLead_takeWhile p s

/-- A run at the end is one at the start of the text that is read backwards. -/
theorem isLongestEnd_iff_reverse :
    IsLongestEnd p tail s ↔ IsLongestLead p tail.reverse s.reverse := by
  constructor
  · intro h
    refine ⟨List.reverse_prefix.mpr h.ends, by simpa using h.all, fun l hl hall => ?_⟩
    have hends : l.reverse <:+ s := by simpa using List.reverse_suffix.mpr hl
    have hlength := h.longest l.reverse hends (by simpa using hall)
    simpa using hlength
  · intro h
    refine ⟨List.reverse_prefix.mp h.leads, by simpa using h.all, fun l hl hall => ?_⟩
    have hlength := h.longest l.reverse (List.reverse_prefix.mpr hl) (by simpa using hall)
    simpa using hlength

theorem isLongestEnd_iff : IsLongestEnd p tail s ↔ tail = s.rtakeWhile p := by
  rw [isLongestEnd_iff_reverse, isLongestLead_iff, List.rtakeWhile, List.reverse_eq_iff]

/-! ### Stripped texts -/

/-- Whether a text is what is left of another without the longest run of blanks at its start, and
then without the longest run of blanks and carriage returns at the end of the rest. -/
def IsStripped (s t : Text) : Prop :=
  ∃ lead tail, s = lead ++ (t ++ tail) ∧ IsLongestLead isBlank lead s ∧
    IsLongestEnd isLineEnd tail (t ++ tail)

/-- **A text is stripped in one way.** -/
theorem isStripped_iff : IsStripped s t ↔ t = (s.dropWhile isBlank).rdropWhile isLineEnd := by
  have hsplit := List.takeWhile_append_dropWhile (p := isBlank) (l := s)
  constructor
  · rintro ⟨lead, tail, hs, hlead, htail⟩
    have hrest : s.dropWhile isBlank = t ++ tail := by
      rw [isLongestLead_iff.mp hlead] at hs
      exact List.append_cancel_left (hsplit.trans hs)
    have hend := List.rdropWhile_append_rtakeWhile (p := isLineEnd) (l := t ++ tail)
    rw [← isLongestEnd_iff.mp htail] at hend
    rw [hrest]
    exact (List.append_cancel_right hend).symm
  · rintro rfl
    have hend := List.rdropWhile_append_rtakeWhile (p := isLineEnd) (l := s.dropWhile isBlank)
    refine ⟨s.takeWhile isBlank, (s.dropWhile isBlank).rtakeWhile isLineEnd, ?_, ?_, ?_⟩
    · rw [hend, hsplit]
    · exact isLongestLead_takeWhile isBlank s
    · rw [hend]
      exact isLongestEnd_iff.mpr rfl

/-! ### The exception -/

/-- Whether blanks lead a text that is otherwise a residue. -/
def LeavesLineEnds (s : Text) : Prop :=
  ∃ lead rest, s = lead ++ rest ∧ lead ≠ [] ∧ (∀ b ∈ lead, isBlank b = true) ∧ rest.IsResidue

/-- Blanks before a residue are all that is dropped of it. -/
theorem trim_append_residue (hne : lead ≠ []) (hlead : ∀ b ∈ lead, isBlank b = true)
    (hrest : rest.IsResidue) : trim (lead ++ rest) = rest := by
  obtain ⟨a, l, rfl⟩ := List.exists_cons_of_ne_nil hne
  obtain ⟨ha, hl⟩ := List.forall_mem_cons.mp hlead
  have hdrop : (l ++ rest).dropWhile isBlank = rest :=
    dropWhile_append_eq hl hrest.head_not_blank
  rw [List.cons_append, trim_cons_blank ha, hdrop, if_pos hrest.rdropWhile_eq]

/-- A text is trimmed at both ends, or at its start alone. -/
theorem trim_cases (s : Text) :
    s.trim = (s.dropWhile isBlank).rdropWhile isLineEnd ∨ s.trim = s.dropWhile isBlank := by
  unfold trim
  dsimp only
  split
  · exact .inr rfl
  · exact .inl rfl

/-- **Line ends are left of these texts alone.** -/
theorem isResidue_trim_iff : (trim s).IsResidue ↔ s.LeavesLineEnds := by
  constructor
  · intro hres
    rcases trim_cases s with hboth | hstart
    · rw [hboth] at hres
      exact absurd hres (not_isResidue_of_last (getLast?_rdropWhile _))
    · rw [hstart] at hres
      have hsplit := List.takeWhile_append_dropWhile (p := isBlank) (l := s)
      refine ⟨_, _, hsplit.symm, ?_, fun _ hb => List.mem_takeWhile_imp hb, hres⟩
      -- nothing is left of a residue that has no blank before it
      intro hnone
      rw [hnone, List.nil_append] at hsplit
      have hnil := trim_residue hres
      rw [hsplit, hstart] at hnil
      exact hres.ne_nil hnil
  · rintro ⟨lead, rest, rfl, hne, hlead, hrest⟩
    rwa [trim_append_residue hne hlead hrest]

/-- What is left of them has lost its blanks only. -/
theorem LeavesLineEnds.trim_eq (h : s.LeavesLineEnds) : s.trim = s.dropWhile isBlank := by
  obtain ⟨lead, rest, rfl, hne, hlead, hrest⟩ := h
  rw [trim_append_residue hne hlead hrest, dropWhile_append_eq hlead hrest.head_not_blank]

theorem not_isBlank_head?_trim (s : Text) : ∀ b ∈ (trim s).head?, isBlank b = false := by
  rcases isTrimmed_or_isResidue_trim s with htrimmed | hres
  · exact htrimmed.head
  · exact hres.head_not_blank

theorem isTrimmed_trim_iff : (trim s).IsTrimmed ↔ ¬s.LeavesLineEnds := by
  rw [← isResidue_trim_iff]
  constructor
  · intro htrimmed
    exact not_isResidue_of_last htrimmed.last
  · exact (isTrimmed_or_isResidue_trim s).resolve_right

/-- **Trimming strips a text unless it leaves line ends.** -/
theorem isStripped_trim_iff : IsStripped s (trim s) ↔ ¬s.LeavesLineEnds := by
  rw [isStripped_iff, ← isTrimmed_trim_iff]
  constructor
  · intro hstripped
    refine ⟨not_isBlank_head?_trim s, ?_⟩
    rw [hstripped]
    exact getLast?_rdropWhile _
  · intro htrimmed
    rcases trim_cases s with hboth | hstart
    · exact hboth
    · -- there is nothing to drop from the end
      rw [hstart] at htrimmed ⊢
      exact (rdropWhile_eq_self htrimmed.last).symm

end FileSharing.Text

namespace FileSharing.Sip

open Text

variable {s name name' : Text}

/-- A name is spelled by what is left of it when it is trimmed. -/
theorem canonicalName_congr (h : name.trim = name'.trim) :
    canonicalName name = canonicalName name' := by
  rw [canonicalName, canonicalName, h]

/-- Line ends are a spelling of their own. -/
theorem canonicalName_eq_trim (h : name.trim.IsResidue) : canonicalName name = name.trim := by
  have hagain : trim (32 :: name.trim) = name.trim := trim_blank_trim (by decide) name
  rw [← canonicalName_congr hagain, canonicalName_cons_residue h]

/-- Line ends are left of a name exactly where they are left by trimming it. -/
theorem isResidue_canonicalName_iff : (canonicalName name).IsResidue ↔ name.LeavesLineEnds := by
  rw [← isResidue_trim_iff]
  constructor
  · intro hres
    rcases canonicalName_cases name with ⟨e, he, hname⟩ | ⟨hname, -⟩
    · have hletters : ∀ e ∈ knownNames, e.2.2.head? ≠ some cr := by decide
      rw [hname] at hres
      exact absurd hres.head (hletters e he)
    · rwa [hname] at hres
  · intro hres
    rwa [canonicalName_eq_trim hres]

/-- **What trimming should do, it does of all texts but those that leave line ends**: it strips
them, so that they end as they should, and need no more trimming, and no more spelling if they are
names.  No text begins with a blank when it is trimmed.  Of those that leave line ends nothing but
the blanks before these is dropped, and nothing is left of them the second time. -/
theorem strips_iff (s : Text) :
    (IsStripped s s.trim ↔ ¬s.LeavesLineEnds) ∧
      (∀ b ∈ s.trim.head?, isBlank b = false) ∧
      ((∀ b ∈ s.trim.getLast?, isLineEnd b = false) ↔ ¬s.LeavesLineEnds) ∧
      (s.trim.trim = s.trim ↔ ¬s.LeavesLineEnds) ∧
      (canonicalName (canonicalName s) = canonicalName s ↔ ¬s.LeavesLineEnds) ∧
      (s.LeavesLineEnds → s.trim = s.dropWhile isBlank ∧ s.trim.trim = [] ∧
        canonicalName s = s.trim ∧ canonicalName (canonicalName s) = []) := by
  have hhead := not_isBlank_head?_trim s
  refine ⟨isStripped_trim_iff, hhead, ?_, ?_, ?_, ?_⟩
  · rw [← isTrimmed_trim_iff]
    exact ⟨fun hlast => ⟨hhead, hlast⟩, fun htrimmed => htrimmed.last⟩
  · rw [trim_trim_iff, isResidue_trim_iff]
  · rw [canonicalName_canonicalName_iff, isResidue_canonicalName_iff]
  · intro hleaves
    have htrim := isResidue_trim_iff.mpr hleaves
    have hname := isResidue_canonicalName_iff.mpr hleaves
    exact ⟨hleaves.trim_eq, trim_residue htrim, canonicalName_eq_trim htrim,
      canonicalName_residue hname⟩

/-- A carriage return after a space is left, and is lost the next time. -/
theorem not_strips_spacedReturn :
    let s : Text := " \r"
    ¬IsStripped s s.trim ∧ s.trim = "\r" ∧ s.trim.trim = [] ∧ canonicalName s = "\r" ∧
      canonicalName (canonicalName s) = [] := by
  intro s
  refine ⟨?_, by decide, by decide, by decide, by decide⟩
  rw [isStripped_iff]
  decide

end FileSharing.Sip
