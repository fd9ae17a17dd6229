import FileSharing.Contact
import FileSharing.Proofs.Cutting
import FileSharing.Proofs.Numerals

/-!
# Contacts that are created again

A contact is created of what a user wrote, and may be created again of what it is kept as.  The
same contact comes out exactly if it is kept in normal form, without a blank at either end and
without a `tel:` in front.  A number has that form always, since it has nothing but digits and a
plus sign.  An address has it unless it was written behind a `tel:`: the blanks are dropped before
the prefix is, and what stands behind the prefix stays as it is.

## Main definitions

* `Contact.IsNormal` — the normal form.
* `Contact.IsWrapped` — an address behind a `tel:`, and behind a blank or another `tel:`.

## Main results

* `Contact.bare_eq_self_iff` — what is in normal form stays as it is, and nothing else.
* `Contact.create_again_iff` — **a contact is created again as it is exactly if it was not written
  as a wrapped address.**
-/

namespace FileSharing.Contact

variable {v s : Text} {b : UInt8} {c : Contact}

/-- A text without the blanks around it. -/
def unblanked (v : Text) : Text := Text.dropEnd Text.isBlank (v.dropWhile Text.isBlank)

/-- What is left of it without the one `tel:` that may lead it. -/
def bare (v : Text) : Text := (Text.stripLeading? "tel:" (unblanked v)).getD (unblanked v)

/-- Whether a text has no blank at either end, and no `tel:` in front. -/
structure IsNormal (s : Text) : Prop where
  head : ∀ b ∈ s.head?, Text.isBlank b = false
  last : ∀ b ∈ s.getLast?, Text.isBlank b = false
  lead : ¬ascii "tel:" <+: s

/-- Whether a text is, up to the blanks around it, an address behind a `tel:` that begins with a
blank or with another `tel:`. -/
def IsWrapped (v : Text) : Prop :=
  ∃ address, unblanked v = ascii "tel:" ++ address ∧ atSign ∈ address ∧
    ((∃ b ∈ address.head?, Text.isBlank b = true) ∨ ascii "tel:" <+: address)

/-! ### Blanks -/

theorem unblanked_eq (v : Text) :
    unblanked v = (v.dropWhile Text.isBlank).rdropWhile Text.isBlank := rfl

theorem head?_unblanked (v : Text) : ∀ b ∈ (unblanked v).head?, Text.isBlank b = false := by
  intro b hb
  rw [unblanked_eq] at hb
  have hne := List.ne_nil_of_mem (List.mem_of_mem_head? hb)
  rw [Text.head?_rdropWhile hne] at hb
  exact Text.not_of_mem_head?_dropWhile hb

theorem getLast?_unblanked (v : Text) : ∀ b ∈ (unblanked v).getLast?, Text.isBlank b = false :=
  Text.getLast?_rdropWhile _

theorem length_unblanked_le (v : Text) : (unblanked v).length ≤ v.length :=
  (List.rdropWhile_prefix _ _).length_le.trans (List.dropWhile_sublist _).length_le

/-- Nothing is dropped where no blank is at either end. -/
theorem unblanked_eq_self (hhead : ∀ b ∈ s.head?, Text.isBlank b = false)
    (hlast : ∀ b ∈ s.getLast?, Text.isBlank b = false) : unblanked s = s := by
  rw [unblanked_eq, Text.dropWhile_eq_self hhead, Text.rdropWhile_eq_self hlast]

/-- Nothing but blanks is dropped. -/
theorem mem_unblanked (hb : Text.isBlank b = false) (h : b ∈ v) : b ∈ unblanked v := by
  have hfront : b ∈ v.dropWhile Text.isBlank := by
    rw [← List.takeWhile_append_dropWhile (p := Text.isBlank) (l := v), List.mem_append] at h
    rcases h with h | h
    · exact absurd (List.mem_takeWhile_imp h) (by simp [hb])
    · exact h
  obtain ⟨before, after, heq⟩ := List.append_of_mem hfront
  rw [unblanked_eq, heq, Text.rdropWhile_append_cons hb]
  exact List.mem_append_right _ List.mem_cons_self

/-! ### Prefixes -/

/-- Either there is a `tel:` in front, which is dropped, or there is none. -/
theorem bare_cases (v : Text) :
    unblanked v = ascii "tel:" ++ bare v ∨
      (¬ascii "tel:" <+: unblanked v ∧ bare v = unblanked v) := by
  unfold bare
  cases hstrip : Text.stripLeading? "tel:" (unblanked v) with
  | some rest => exact .inl (Text.stripLeading?_eq_some_iff.mp hstrip)
  | none => exact .inr ⟨Text.stripLeading?_eq_none_iff.mp hstrip, rfl⟩

theorem bare_of_lead {rest : Text} (h : unblanked v = ascii "tel:" ++ rest) : bare v = rest := by
  rw [bare, h, Text.stripLeading?_eq_some_iff.mpr rfl, Option.getD_some]

/-- **What is in normal form stays as it is, and nothing else.** -/
theorem bare_eq_self_iff : bare s = s ↔ IsNormal s := by
  constructor
  · intro h
    rcases bare_cases s with hlead | ⟨hno, heq⟩
    · -- a prefix was dropped, so that something is missing
      have hlength := length_unblanked_le s
      rw [hlead, h, List.length_append] at hlength
      have htel : (ascii "tel:").length = 4 := rfl
      omega
    · have hs : unblanked s = s := heq.symm.trans h
      refine ⟨?_, ?_, hs ▸ hno⟩
      · rw [← hs]
        exact head?_unblanked s
      · rw [← hs]
        exact getLast?_unblanked s
  · intro h
    have hs : unblanked s = s := unblanked_eq_self h.head h.last
    rcases bare_cases s with hlead | ⟨-, heq⟩
    · exact absurd ⟨bare s, (hs.symm.trans hlead).symm⟩ h.lead
    · exact heq.trans hs

/-- No blank is left at the end. -/
theorem getLast?_bare (v : Text) : ∀ b ∈ (bare v).getLast?, Text.isBlank b = false := by
  intro b hb
  apply getLast?_unblanked v b
  rcases bare_cases v with hlead | ⟨-, heq⟩
  · have hne := List.ne_nil_of_mem (List.mem_of_mem_getLast? hb)
    rw [hlead, List.getLast?_append_of_ne_nil _ hne]
    exact hb
  · rw [← heq]
    exact hb

theorem atSign_mem_bare (h : atSign ∈ v) : atSign ∈ bare v := by
  have hmem : atSign ∈ unblanked v := mem_unblanked (by decide) h
  rcases bare_cases v with hlead | ⟨-, heq⟩
  · rw [hlead, List.mem_append] at hmem
    exact hmem.resolve_left (by decide)
  · rwa [heq]

/-- An address is left in normal form unless it is wrapped. -/
theorem isNormal_bare_iff (h : atSign ∈ bare v) : IsNormal (bare v) ↔ ¬IsWrapped v := by
  constructor
  · rintro hnormal ⟨address, heq, -, hinside⟩
    have hbare : bare v = address := bare_of_lead heq
    rcases hinside with ⟨b, hb, hblank⟩ | hlead
    · rw [← hbare] at hb
      exact absurd hblank (by simp [hnormal.head b hb])
    · exact hnormal.lead (hbare ▸ hlead)
  · intro hno
    rcases bare_cases v with hlead | ⟨hlead, heq⟩
    · refine ⟨fun b hb => ?_, getLast?_bare v, fun hagain => hno ⟨bare v, hlead, h, .inr hagain⟩⟩
      refine Bool.eq_false_iff.mpr fun hblank => ?_
      exact hno ⟨bare v, hlead, h, .inl ⟨b, hb, hblank⟩⟩
    · refine ⟨?_, getLast?_bare v, heq ▸ hlead⟩
      rw [heq]
      exact head?_unblanked v

/-! ### Numbers -/

theorem byte_of_isNumber (h : isNumber s = true) (hb : b ∈ s) :
    (Text.isDigit b || b == plus) = true := by
  simp only [isNumber, Bool.and_eq_true, List.all_eq_true] at h
  exact h.1.2 b hb

/-- What a number consists of. -/
theorem spec_of_isNumber (h : isNumber s = true) (hb : b ∈ s) :
    Text.isBlank b = false ∧ isSeparator b = false ∧ b ≠ 116 := by
  have hbyte := byte_of_isNumber h hb
  rw [Bool.or_eq_true, beq_iff_eq] at hbyte
  rcases hbyte with hdigit | rfl
  · refine ⟨Text.not_isBlank_of_isDigit hdigit, ?_, ?_⟩
    · refine Bool.eq_false_iff.mpr fun hseparator => ?_
      simp only [isSeparator, Bool.or_eq_true, beq_iff_eq] at hseparator
      rcases hseparator with (rfl | rfl) | rfl
      · exact absurd hdigit (by decide)
      · exact absurd hdigit (by decide)
      · exact absurd hdigit (by decide)
    · rintro rfl
      exact absurd hdigit (by decide)
  · decide

/-- A number is in normal form. -/
theorem isNormal_of_isNumber (h : isNumber s = true) : IsNormal s := by
  refine ⟨fun b hb => ?_, fun b hb => ?_, ?_⟩
  · exact (spec_of_isNumber h (List.mem_of_mem_head? hb)).1
  · exact (spec_of_isNumber h (List.mem_of_mem_getLast? hb)).1
  · rintro ⟨rest, rfl⟩
    have ht : (116 : UInt8) ∈ ascii "tel:" ++ rest := List.mem_append_left rest (by decide)
    exact (spec_of_isNumber h ht).2.2 rfl

/-- It has no separators. -/
theorem filter_of_isNumber (h : isNumber s = true) : s.filter (!isSeparator ·) = s := by
  rw [List.filter_eq_self]
  intro b hb
  simp [(spec_of_isNumber h hb).2.1]

/-! ### Contacts -/

/-- What is created of a text: its address, or its number without separators. -/
theorem create_eq (v : Text) :
    create v = if (unblanked v).isEmpty then
        .error ⟨.invalidArgument, "Contact identifier is empty"⟩
      else if (bare v).contains atSign then .ok ⟨bare v⟩
      else if isNumber ((bare v).filter (!isSeparator ·)) then
        .ok ⟨(bare v).filter (!isSeparator ·)⟩
      else .error ⟨.invalidArgument, "Unsupported contact format: " ++ v⟩ := rfl

theorem create_eq_ok_iff : create v = .ok c ↔
    (atSign ∈ bare v ∧ c.value = bare v) ∨
      (atSign ∉ bare v ∧ isNumber c.value = true ∧
        c.value = (bare v).filter (!isSeparator ·)) := by
  obtain ⟨value⟩ := c
  rw [create_eq]
  by_cases hempty : unblanked v = []
  · -- neither an address nor a number is empty
    have hbare : bare v = [] := by
      rcases bare_cases v with hlead | ⟨-, heq⟩
      · rw [hempty] at hlead
        exact absurd hlead (by simp [ascii])
      · exact heq.trans hempty
    rw [if_pos (by simpa using hempty), hbare]
    constructor
    · intro h
      cases h
    · rintro (⟨hat, -⟩ | ⟨-, hnumber, rfl⟩)
      · exact absurd hat List.not_mem_nil
      · exact absurd hnumber (by decide)
  rw [if_neg (by simpa using hempty)]
  by_cases hat : atSign ∈ bare v
  · rw [if_pos (by simpa using hat)]
    constructor
    · intro h
      obtain rfl := Contact.mk.inj (Except.ok.inj h)
      exact .inl ⟨hat, rfl⟩
    · rintro (⟨-, rfl⟩ | ⟨hno, -⟩)
      · rfl
      · exact absurd hat hno
  · rw [if_neg (by simpa using hat)]
    constructor
    · intro h
      split at h
      · next hnumber =>
        obtain rfl := Contact.mk.inj (Except.ok.inj h)
        exact .inr ⟨hat, hnumber, rfl⟩
      · cases h
    · rintro (⟨hyes, -⟩ | ⟨-, hnumber, rfl⟩)
      · exact absurd hyes hat
      · exact if_pos hnumber

/-- A contact is in normal form unless it was written as a wrapped address. -/
theorem isNormal_value_iff (h : create v = .ok c) : IsNormal c.value ↔ ¬IsWrapped v := by
  rcases create_eq_ok_iff.mp h with ⟨hat, heq⟩ | ⟨hno, hnumber, -⟩
  · rw [heq]
    exact isNormal_bare_iff hat
  · refine iff_of_true (isNormal_of_isNumber hnumber) ?_
    rintro ⟨address, heq, hat, -⟩
    rw [bare_of_lead heq] at hno
    exact hno hat

/-- It is created again as it is exactly if it is in normal form. -/
theorem create_value_iff (h : create v = .ok c) :
    create c.value = .ok c ↔ IsNormal c.value := by
  rcases create_eq_ok_iff.mp h with ⟨hat, heq⟩ | ⟨hno, hnumber, heq⟩
  · have hagain : atSign ∈ bare c.value := atSign_mem_bare (heq ▸ hat)
    rw [create_eq_ok_iff, ← bare_eq_self_iff]
    constructor
    · rintro (⟨-, hsame⟩ | ⟨hmissing, -⟩)
      · exact hsame.symm
      · exact absurd hagain hmissing
    · intro hsame
      exact .inl ⟨hagain, hsame.symm⟩
  · have hnormal : IsNormal c.value := isNormal_of_isNumber hnumber
    have hsame : bare c.value = c.value := bare_eq_self_iff.mpr hnormal
    refine iff_of_true (create_eq_ok_iff.mpr (.inr ⟨?_, hnumber, ?_⟩)) hnormal
    · rw [hsame, heq]
      exact fun hmem => hno (List.mem_of_mem_filter hmem)
    · rw [hsame, filter_of_isNumber hnumber]

/-- In any case some contact is created again. -/
theorem exists_create_value (h : create v = .ok c) : ∃ again, create c.value = .ok again := by
  rcases create_eq_ok_iff.mp h with ⟨hat, heq⟩ | ⟨-, hnumber, -⟩
  · have hagain : atSign ∈ bare c.value := atSign_mem_bare (heq ▸ hat)
    exact ⟨⟨bare c.value⟩, create_eq_ok_iff.mpr (.inl ⟨hagain, rfl⟩)⟩
  · exact ⟨c, (create_value_iff h).mpr (isNormal_of_isNumber hnumber)⟩

/-- **A contact is created again as it is exactly if it was not written as a wrapped address**, and
exactly then it is in normal form.  A contact is created again in any case, and never ends with a
blank. -/
theorem create_again_iff (h : create v = .ok c) :
    (∃ again, create c.value = .ok again) ∧ (create c.value = .ok c ↔ ¬IsWrapped v) ∧
      (IsNormal c.value ↔ ¬IsWrapped v) ∧
      ∀ b ∈ c.value.getLast?, Text.isBlank b = false := by
  have hnormal := isNormal_value_iff h
  refine ⟨exists_create_value h, (create_value_iff h).trans hnormal, hnormal, ?_⟩
  rcases create_eq_ok_iff.mp h with ⟨-, heq⟩ | ⟨-, hnumber, -⟩
  · rw [heq]
    exact getLast?_bare v
  · exact (isNormal_of_isNumber hnumber).last

/-- An address behind a `tel:`, and a number with separators. -/
theorem create_again_iff_written :
    create "\ttel:alice@example.com " = .ok ⟨"alice@example.com"⟩ ∧
      create "alice@example.com" = .ok ⟨"alice@example.com"⟩ ∧
      create " tel:+33 6-12.34.56 " = .ok ⟨"+336123456"⟩ ∧
      create "+336123456" = .ok ⟨"+336123456"⟩ := by
  have haddress : create "\ttel:alice@example.com " = .ok ⟨"alice@example.com"⟩ := by
    decide +kernel
  have hnumber : create " tel:+33 6-12.34.56 " = .ok ⟨"+336123456"⟩ := by decide +kernel
  obtain ⟨-, hagain, hnormal, -⟩ := create_again_iff haddress
  obtain ⟨-, hagain', hnormal', -⟩ := create_again_iff hnumber
  refine ⟨haddress, hagain.mpr (hnormal.mp ?_), hnumber, hagain'.mpr (hnormal'.mp ?_)⟩
  · exact ⟨by decide +kernel, by decide +kernel, by decide +kernel⟩
  · exact isNormal_of_isNumber (by decide +kernel)

/-- What stands behind a `tel:` begins with a blank, or with another `tel:`. -/
theorem not_create_again_wrapped :
    create "tel: a@b" = .ok ⟨" a@b"⟩ ∧ create " a@b" = .ok ⟨"a@b"⟩ ∧
      create "tel:tel:a@b" = .ok ⟨"tel:a@b"⟩ ∧ create "tel:a@b" = .ok ⟨"a@b"⟩ ∧
      (⟨" a@b"⟩ : Contact) ≠ ⟨"a@b"⟩ ∧ (⟨"tel:a@b"⟩ : Contact) ≠ ⟨"a@b"⟩ := by
  decide +kernel

end FileSharing.Contact
