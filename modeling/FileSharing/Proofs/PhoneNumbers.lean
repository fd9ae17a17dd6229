import FileSharing.Proofs.Contacts

/-!
# Phone numbers

A text without an at sign is a contact if it spells a phone number: digits, which a plus sign may
lead.  Hyphens, spaces and full stops may stand anywhere between them, a `tel:` in front, and
blanks around all of it, and none of this is kept, so that all spellings of a number are one
contact.  That a number has digits is not asked for where it has a plus sign, and so a plus sign
alone is a contact, too.

## Main definitions

* `Contact.IsPhone` — phone numbers.
* `Contact.remainder` — what is left of a text that is read as one.
* `Contact.Spaced`, `Contact.IsSpelling` — a number with separators put in, and all that may be
  written for it.

## Main results

* `Contact.create_eq_ok_iff_isSpelling` — **the spellings of a number, and no other texts, are
  its contact.**
* `Contact.create_number_iff` — **the texts that are read as phone numbers are those that spell
  one, but for a plus sign alone.**
-/

namespace FileSharing.Contact

variable {v s w n : Text} {b : UInt8} {c : Contact}

/-- Whether a text is a phone number: digits, at least one, which one plus sign may lead. -/
def IsPhone (s : Text) : Prop :=
  ∃ sign digits, s = sign ++ digits ∧ (sign = [] ∨ sign = [plus]) ∧ digits ≠ [] ∧
    ∀ d ∈ digits, Text.isDigit d = true

/-- What is left of a text without the blanks around it, one leading `tel:` and all separators. -/
def remainder (v : Text) : Text := (bare v).filter (!isSeparator ·)

/-- Whether a text is another one with separators put in anywhere. -/
inductive Spaced : Text → Text → Prop where
  /-- Nothing is left. -/
  | nil : Spaced [] []
  /-- The next byte is the same. -/
  | keep (b : UInt8) {s w : Text} (h : Spaced s w) : Spaced (b :: s) (b :: w)
  /-- The next byte is a separator that is put in. -/
  | insert {b : UInt8} (hb : isSeparator b = true) {s w : Text} (h : Spaced s w) : Spaced s (b :: w)

/-- Whether a text is a number with separators, which may have a `tel:` in front and blanks around
it. -/
def IsSpelling (n v : Text) : Prop :=
  ∃ left lead w right, (∀ b ∈ left, Text.isBlank b = true) ∧ (lead = [] ∨ lead = ascii "tel:") ∧
    Spaced n w ∧ (∀ b ∈ right, Text.isBlank b = true) ∧ v = left ++ (lead ++ w ++ right)

/-! ### Numbers -/

theorem isNumber_cons_iff : isNumber (b :: s) = true ↔
    (Text.isDigit b = true ∨ b = plus) ∧ ∀ d ∈ s, Text.isDigit d = true := by
  have hplus : Text.isDigit plus = false := by decide
  have hrest : (∀ d ∈ s, Text.isDigit d = true ∨ d = plus) ∧ plus ∉ s ↔
      ∀ d ∈ s, Text.isDigit d = true := by
    constructor
    · rintro ⟨hbytes, hno⟩ d hd
      exact (hbytes d hd).resolve_right fun h => hno (h ▸ hd)
    · intro hdigits
      exact ⟨fun d hd => .inl (hdigits d hd), fun hmem => by simpa [hplus] using hdigits _ hmem⟩
  rw [← hrest, ← and_assoc]
  simp [isNumber]

/-- What is taken for a number is a phone number, or a plus sign alone. -/
theorem isNumber_iff : isNumber s = true ↔ IsPhone s ∨ s = [plus] := by
  cases s with
  | nil =>
    refine iff_of_false (by decide) ?_
    rintro (⟨sign, digits, heq, -, hne, -⟩ | h)
    · exact hne (List.append_eq_nil_iff.mp heq.symm).2
    · cases h
  | cons b rest =>
    rw [isNumber_cons_iff]
    constructor
    · rintro ⟨hdigit | rfl, hdigits⟩
      · exact .inl ⟨[], b :: rest, rfl, .inl rfl, by simp,
          List.forall_mem_cons.mpr ⟨hdigit, hdigits⟩⟩
      · by_cases hrest : rest = []
        · exact .inr (by rw [hrest])
        · exact .inl ⟨[plus], rest, rfl, .inr rfl, hrest, hdigits⟩
    · rintro (⟨sign, digits, heq, rfl | rfl, -, hdigits⟩ | h)
      · rw [List.nil_append] at heq
        subst heq
        obtain ⟨hdigit, hrest⟩ := List.forall_mem_cons.mp hdigits
        exact ⟨.inl hdigit, hrest⟩
      · obtain ⟨rfl, rfl⟩ := List.cons.inj heq
        exact ⟨.inr rfl, hdigits⟩
      · obtain ⟨rfl, rfl⟩ := List.cons.inj h
        exact ⟨.inr rfl, by simp⟩

/-- A plus sign alone is no phone number. -/
theorem not_isPhone_plus : ¬IsPhone [plus] := by
  rintro ⟨sign, digits, heq, rfl | rfl, hne, hdigits⟩
  · rw [List.nil_append] at heq
    subst heq
    exact absurd (hdigits plus List.mem_cons_self) (by decide)
  · exact hne (List.cons.inj heq).2.symm

/-! ### Separators -/

/-- A text with separators put in is the text again without all separators, if it has none of its
own. -/
theorem spaced_iff (hs : ∀ b ∈ s, isSeparator b = false) :
    Spaced s w ↔ w.filter (!isSeparator ·) = s := by
  constructor
  · intro h
    induction h with
    | nil => rfl
    | keep b h ih =>
      obtain ⟨hb, hrest⟩ := List.forall_mem_cons.mp hs
      rw [List.filter_cons_of_pos (by simp [hb]), ih hrest]
    | insert hb h ih => rw [List.filter_cons_of_neg (by simp [hb]), ih hs]
  · intro h
    induction w generalizing s with
    | nil => exact h ▸ .nil
    | cons b w ih =>
      by_cases hb : isSeparator b = true
      · rw [List.filter_cons_of_neg (by simp [hb])] at h
        exact .insert hb (ih hs h)
      · rw [List.filter_cons_of_pos (by simp [hb])] at h
        subst h
        exact .keep b (ih (List.forall_mem_cons.mp hs).2 rfl)

/-- Blanks that are separators are left out with the separators anyway. -/
theorem filter_dropWhile (h : ∀ b ∈ s, Text.isBlank b = true → isSeparator b = true) :
    (s.dropWhile Text.isBlank).filter (!isSeparator ·) = s.filter (!isSeparator ·) := by
  have hfront : (s.takeWhile Text.isBlank).filter (!isSeparator ·) = [] := by
    rw [List.filter_eq_nil_iff]
    intro b hb
    simp [h b (List.takeWhile_subset _ hb) (List.mem_takeWhile_imp hb)]
  conv_rhs => rw [← List.takeWhile_append_dropWhile (p := Text.isBlank) (l := s)]
  rw [List.filter_append, hfront, List.nil_append]

theorem filter_rdropWhile (h : ∀ b ∈ s, Text.isBlank b = true → isSeparator b = true) :
    (s.rdropWhile Text.isBlank).filter (!isSeparator ·) = s.filter (!isSeparator ·) := by
  have hreverse : ∀ b ∈ s.reverse, Text.isBlank b = true → isSeparator b = true :=
    fun b hb => h b (List.mem_reverse.mp hb)
  rw [List.rdropWhile, List.filter_reverse, filter_dropWhile hreverse, List.filter_reverse,
    List.reverse_reverse]

/-- Blanks around a text are dropped, whatever the text is. -/
theorem unblanked_append {left right : Text} (hleft : ∀ b ∈ left, Text.isBlank b = true)
    (hright : ∀ b ∈ right, Text.isBlank b = true) :
    unblanked (left ++ (s ++ right)) = unblanked s := by
  rw [unblanked_eq, unblanked_eq, List.dropWhile_append_of_pos hleft, List.dropWhile_append]
  split
  · next hempty =>
    have hnone : s.dropWhile Text.isBlank = [] := by simpa using hempty
    rw [hnone, List.dropWhile_eq_nil_iff.mpr hright]
  · rw [List.rdropWhile, List.reverse_append, List.dropWhile_append_of_pos (by simpa using hright),
      List.rdropWhile]

theorem exists_eq_append_unblanked (v : Text) :
    ∃ left right, (∀ b ∈ left, Text.isBlank b = true) ∧ (∀ b ∈ right, Text.isBlank b = true) ∧
      v = left ++ (unblanked v ++ right) := by
  refine ⟨v.takeWhile Text.isBlank, (v.dropWhile Text.isBlank).rtakeWhile Text.isBlank,
    fun b => List.mem_takeWhile_imp, fun b => List.mem_rtakeWhile_imp, ?_⟩
  rw [unblanked_eq, List.rdropWhile_append_rtakeWhile, List.takeWhile_append_dropWhile]

/-- Blanks that are separators are left out with the separators anyway. -/
theorem filter_unblanked (h : ∀ b ∈ s, Text.isBlank b = true → isSeparator b = true) :
    (unblanked s).filter (!isSeparator ·) = s.filter (!isSeparator ·) := by
  have hfront := filter_dropWhile h
  rw [unblanked_eq, filter_rdropWhile, hfront]
  exact fun b hb => h b ((List.dropWhile_sublist _).subset hb)

theorem mem_of_mem_unblanked (h : b ∈ unblanked v) : b ∈ v :=
  (List.dropWhile_sublist _).subset ((List.rdropWhile_prefix _ _).subset h)

/-! ### Spellings -/

/-- What stands in a number with separators. -/
theorem spec_of_spaced (hn : isNumber n = true) (h : Spaced n w) (hb : b ∈ w) :
    (Text.isBlank b = true → isSeparator b = true) ∧ b ≠ 116 ∧ b ≠ atSign := by
  by_cases hseparator : isSeparator b = true
  · refine ⟨fun _ => hseparator, ?_, ?_⟩
    · rintro rfl
      exact absurd hseparator (by decide)
    · rintro rfl
      exact absurd hseparator (by decide)
  · have hkept : b ∈ w.filter (!isSeparator ·) := List.mem_filter.mpr ⟨hb, by simp [hseparator]⟩
    rw [(spaced_iff fun d hd => (spec_of_isNumber hn hd).2.1).mp h] at hkept
    obtain ⟨hblank, -, ht⟩ := spec_of_isNumber hn hkept
    refine ⟨fun hyes => absurd hyes (by simp [hblank]), ht, ?_⟩
    rintro rfl
    exact absurd (byte_of_isNumber hn hkept) (by decide)

/-- What is left of a number with separators, and a `tel:` in front or not. -/
theorem filter_bare_append {lead : Text} (hn : isNumber n = true) (h : Spaced n w)
    (hlead : lead = [] ∨ lead = ascii "tel:") : (bare (lead ++ w)).filter (!isSeparator ·) = n := by
  have hfilter : w.filter (!isSeparator ·) = n :=
    (spaced_iff fun b hb => (spec_of_isNumber hn hb).2.1).mp h
  have hblanks : ∀ b ∈ w, Text.isBlank b = true → isSeparator b = true :=
    fun b hb => (spec_of_spaced hn h hb).1
  rcases hlead with rfl | rfl
  · -- no prefix is dropped, since there is no letter in the number
    rw [List.nil_append]
    rcases bare_cases w with htel | ⟨-, heq⟩
    · have ht : (116 : UInt8) ∈ unblanked w := htel ▸ List.mem_append_left _ (by decide)
      exact absurd rfl (spec_of_spaced hn h (mem_of_mem_unblanked ht)).2.1
    · rw [heq, filter_unblanked hblanks, hfilter]
  · have htel : unblanked (ascii "tel:" ++ w) = ascii "tel:" ++ w.rdropWhile Text.isBlank := by
      have hcolon : Text.isBlank 58 = false := by decide
      have hkept : (ascii "tel:" ++ w).dropWhile Text.isBlank = ascii "tel:" ++ w := rfl
      rw [unblanked_eq, hkept]
      exact Text.rdropWhile_append_cons hcolon (ascii "tel") w
    rw [bare_of_lead htel, filter_rdropWhile hblanks, hfilter]

/-- What is left of a spelling is the number. -/
theorem remainder_of_isSpelling (hn : isNumber n = true) (h : IsSpelling n v) :
    remainder v = n := by
  obtain ⟨left, lead, w, right, hleft, hlead, hspaced, hright, rfl⟩ := h
  rw [remainder, bare, unblanked_append hleft hright]
  exact filter_bare_append hn hspaced hlead

/-- A text is a spelling of what is left of it. -/
theorem isSpelling_remainder (v : Text) : IsSpelling (remainder v) v := by
  obtain ⟨left, right, hleft, hright, heq⟩ := exists_eq_append_unblanked v
  have hspaced : Spaced (remainder v) (bare v) := by
    refine (spaced_iff fun b hb => ?_).mpr rfl
    simpa using (List.mem_filter.mp hb).2
  rcases bare_cases v with hlead | ⟨-, hbare⟩
  · exact ⟨left, ascii "tel:", bare v, right, hleft, .inr rfl, hspaced, hright, hlead ▸ heq⟩
  · exact ⟨left, [], bare v, right, hleft, .inl rfl, hspaced, hright, hbare ▸ heq⟩

/-- No spelling of a number has an at sign. -/
theorem atSign_not_mem_of_isSpelling (hn : isNumber n = true) (h : IsSpelling n v) :
    atSign ∉ v := by
  obtain ⟨left, lead, w, right, hleft, hlead, hspaced, hright, rfl⟩ := h
  have hblank : Text.isBlank atSign = false := by decide
  have houtside : ∀ s : Text, (∀ b ∈ s, Text.isBlank b = true) → atSign ∉ s :=
    fun s hs hmem => by simpa [hblank] using hs _ hmem
  have hinside : atSign ∉ w := fun hmem => (spec_of_spaced hn hspaced hmem).2.2 rfl
  have hfront : atSign ∉ lead := by
    rcases hlead with rfl | rfl
    · exact List.not_mem_nil
    · decide
  simp [houtside left hleft, houtside right hright, hinside, hfront]

/-! ### Contacts -/

/-- What is created of a text without an at sign. -/
theorem create_eq_ok_iff_remainder (hv : atSign ∉ v) :
    create v = .ok c ↔ isNumber c.value = true ∧ c.value = remainder v := by
  have hbare : atSign ∉ bare v := by
    refine fun h => hv (mem_of_mem_unblanked ?_)
    rcases bare_cases v with hlead | ⟨-, heq⟩
    · exact hlead ▸ List.mem_append_right _ h
    · exact heq ▸ h
  rw [create_eq_ok_iff]
  constructor
  · rintro (⟨hat, -⟩ | ⟨-, h⟩)
    · exact absurd hat hbare
    · exact h
  · exact fun h => .inr ⟨hbare, h⟩

/-- **The spellings of a number, and no other texts, are its contact.** -/
theorem create_eq_ok_iff_isSpelling (hn : isNumber n = true) (hv : atSign ∉ v) :
    create v = .ok ⟨n⟩ ↔ IsSpelling n v := by
  rw [create_eq_ok_iff_remainder hv]
  constructor
  · rintro ⟨-, heq⟩
    have hself := isSpelling_remainder v
    rwa [← heq] at hself
  · exact fun h => ⟨hn, (remainder_of_isSpelling hn h).symm⟩

/-- **The texts that are read as phone numbers are those that spell one, but for a plus sign
alone.**  The contact is what is left of the text, and it is the same for every other spelling of
the number. -/
theorem create_number_iff (hv : atSign ∉ v) :
    (((∃ c, create v = .ok c) ↔ IsPhone (remainder v)) ↔ remainder v ≠ [plus]) ∧
      ((∃ c, create v = .ok c) ↔ IsPhone (remainder v) ∨ remainder v = [plus]) ∧
      ∀ c, create v = .ok c → c.value = remainder v ∧ IsSpelling c.value v ∧
        ∀ v', IsSpelling c.value v' → create v' = .ok c := by
  have haccepted : (∃ c, create v = .ok c) ↔ IsPhone (remainder v) ∨ remainder v = [plus] := by
    rw [← isNumber_iff]
    constructor
    · rintro ⟨c, hc⟩
      obtain ⟨hnumber, heq⟩ := (create_eq_ok_iff_remainder hv).mp hc
      rwa [← heq]
    · exact fun hnumber => ⟨⟨remainder v⟩, (create_eq_ok_iff_remainder hv).mpr ⟨hnumber, rfl⟩⟩
  refine ⟨?_, haccepted, fun c hc => ?_⟩
  · rw [haccepted]
    constructor
    · intro h hsign
      exact not_isPhone_plus (hsign ▸ h.mp (.inr hsign))
    · exact fun hsign => or_iff_left hsign
  · obtain ⟨hnumber, heq⟩ := (create_eq_ok_iff_remainder hv).mp hc
    have hself := isSpelling_remainder v
    rw [← heq] at hself
    refine ⟨heq, hself, fun v' hv' => ?_⟩
    exact (create_eq_ok_iff_isSpelling hnumber (atSign_not_mem_of_isSpelling hnumber hv')).mpr hv'

/-- A number with separators, blanks and a `tel:`, and the same number without them. -/
theorem create_number_iff_written :
    atSign ∉ ascii "\ttel: +33 6-12.34.56 " ∧ IsPhone (remainder "\ttel: +33 6-12.34.56 ") ∧
      create "\ttel: +33 6-12.34.56 " = .ok ⟨"+336123456"⟩ ∧
      create "+-336123456" = .ok ⟨"+336123456"⟩ := by
  have hno : atSign ∉ ascii "\ttel: +33 6-12.34.56 " := by decide +kernel
  have hcreate : create "\ttel: +33 6-12.34.56 " = .ok ⟨"+336123456"⟩ := by decide +kernel
  obtain ⟨hphone, -, hall⟩ := create_number_iff hno
  have hsign : remainder "\ttel: +33 6-12.34.56 " ≠ [plus] := by decide +kernel
  refine ⟨hno, (hphone.mpr hsign).mp ⟨_, hcreate⟩, hcreate, (hall _ hcreate).2.2 _ ?_⟩
  refine ⟨[], [], ascii "+-336123456", [], by simp, .inl rfl, ?_, by simp, rfl⟩
  exact (spaced_iff (by decide +kernel)).mpr (by decide +kernel)

/-- A plus sign without any digits is taken for a number. -/
theorem not_create_number_signAlone :
    atSign ∉ ascii "+" ∧ create "+" = .ok ⟨"+"⟩ ∧ remainder "+" = ascii "+" ∧
      ¬IsPhone (remainder "+") := by
  have hremainder : remainder "+" = [plus] := by decide +kernel
  refine ⟨by decide, by decide +kernel, hremainder, ?_⟩
  rw [hremainder]
  exact not_isPhone_plus

end FileSharing.Contact
