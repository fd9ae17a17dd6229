import FileSharing.Proofs.Cutting
import FileSharing.Proofs.Numerals
import FileSharing.Sip.Dialog

/-!
# The fields of parties

The field of a party holds its address in angle brackets, and parameters after it.  One of the
parameters may be the party's tag.  It is searched for in the whole field, so an address that
holds what a tag begins with is taken for a tag before the parameters are reached.

## Main definitions

* `Party` — an address in angle brackets, and what follows it.
* `IsTagOf` — the value of the first tag among parameters.
* `Party.IsUnambiguous` — an address does not stand in the way of the parameters' tag.

## Main results

* `isTagOf_iff` — **the tag that is found is that of the first tag parameter.**
* `tagOf_append_of_no_tag`, `tagOf_append_of_tag` — a tag that is appended is found where there was
  none, and only there.
* `Party.addressOf_field` — the address is found between the brackets.
* `Party.isTagOf_tagOf_field_iff` — **the tag of a party is found among its parameters exactly if
  its address does not stand in the way.**
-/

namespace FileSharing

/-! ### Hexadecimal digits -/

/-- An ASCII hexadecimal digit. -/
def Text.isHexDigit (b : UInt8) : Bool := isDigit b || (65 ≤ b && b ≤ 70) || (97 ≤ b && b ≤ 102)

/-- A hexadecimal digit is no white space and ends no parameter. -/
theorem Text.isHexDigit_spec {b : UInt8} (h : isHexDigit b = true) :
    isSpace b = false ∧ b ≠ Sip.semicolon := by
  have hletters : ∀ b : UInt8, (65 ≤ b && b ≤ 70 || 97 ≤ b && b ≤ 102) = true →
      isSpace b = false ∧ b ≠ Sip.semicolon := by
    intro b hb
    simp only [isSpace, Sip.semicolon, Bool.or_eq_true, Bool.and_eq_true, decide_eq_true_eq,
      UInt8.le_iff_toNat_le, Bool.or_eq_false_iff, beq_eq_false_iff_ne, Bool.and_eq_false_iff,
      decide_eq_false_iff_not, ne_eq, ← UInt8.toNat_inj] at hb ⊢
    change 65 ≤ b.toNat ∧ b.toNat ≤ 70 ∨ 97 ≤ b.toNat ∧ b.toNat ≤ 102 at hb
    change (¬b.toNat = 32 ∧ (¬9 ≤ b.toNat ∨ ¬b.toNat ≤ 13)) ∧ ¬b.toNat = 59
    omega
  rw [isHexDigit, Bool.or_assoc, Bool.or_eq_true] at h
  rcases h with hdigit | hletter
  · refine ⟨not_isSpace_of_isDigit hdigit, ?_⟩
    rintro rfl
    exact absurd hdigit (by decide)
  · exact hletters b hletter

namespace Sip

/-! ### Tags -/

/-- The value of the first tag among parameters, up to the next semicolon and trimmed; empty if
there is none. -/
inductive IsTagOf (params : Text) : Text → Prop where
  /-- There is a tag, and it is followed by another parameter or by nothing. -/
  | found {before value rest : Text} (hcut : Text.IsCut ";tag=" params before (value ++ rest))
    (hvalue : semicolon ∉ value) (hrest : ∀ b ∈ rest.head?, b = semicolon) :
    IsTagOf params value.trim
  /-- There is none. -/
  | missing (h : ¬ascii ";tag=" <:+: params) : IsTagOf params []

variable {params tag : Text}

/-- A parameter ends before the next semicolon. -/
theorem before_semicolon {value rest : Text} (hvalue : semicolon ∉ value)
    (hrest : ∀ b ∈ rest.head?, b = semicolon) : (value ++ rest).before semicolon = value :=
  Text.takeWhile_append_eq (fun b hb => bne_iff_ne.mpr fun h => hvalue (h ▸ hb))
    fun b hb => by simp [hrest b hb]

theorem isTagOf_tagOf (params : Text) : IsTagOf params (tagOf params) := by
  unfold tagOf
  cases hcut : Text.cutAt? ";tag=" params with
  | none => exact .missing (Text.cutAt?_eq_none_iff.mp hcut)
  | some p =>
    obtain ⟨before, after⟩ := p
    have hvalue : after = after.before semicolon ++ after.dropWhile (· != semicolon) :=
      List.takeWhile_append_dropWhile.symm
    have hfirst := Text.isCut_of_cutAt? hcut
    rw [hvalue] at hfirst
    refine .found hfirst (fun h => ?_) fun b hb => ?_
    · exact absurd (List.mem_takeWhile_imp h) (by simp)
    · simpa using Text.not_of_mem_head?_dropWhile hb

/-- **The tag that is found is that of the first tag parameter.** -/
theorem isTagOf_iff : IsTagOf params tag ↔ tagOf params = tag := by
  constructor
  · intro h
    unfold tagOf
    cases h with
    | found hcut hvalue hrest =>
      rw [Text.cutAt?_eq_some_iff.mpr hcut]
      dsimp only
      rw [before_semicolon hvalue hrest]
    | missing hno => rw [Text.cutAt?_eq_none_iff.mpr hno]
  · rintro rfl
    exact isTagOf_tagOf params

/-! ### Fields that a tag is appended to -/

section Append

variable {party : Text}

/-- The semicolon begins a tag, and stands nowhere else in what a tag begins with. -/
theorem tagStart_eq : ascii ";tag=" = semicolon :: ascii "tag=" ∧ semicolon ∉ ascii "tag=" := by
  decide

theorem append_tag_eq (party tag : Text) :
    party ++ ";tag=" ++ tag = party ++ semicolon :: (ascii "tag=" ++ tag) := by
  rw [tagStart_eq.1, List.append_assoc, List.cons_append]

/-- A tag that is appended is found where there was none. -/
theorem tagOf_append_of_no_tag (h : ¬ascii ";tag=" <:+: party) (tag : Text) :
    tagOf (party ++ ";tag=" ++ tag) = tagOf (ascii ";tag=" ++ tag) := by
  obtain ⟨hstart, honce⟩ := tagStart_eq
  have hcut := Text.cutAt?_append_head honce party (ascii "tag=" ++ tag)
  rw [← hstart, Text.cutAt?_eq_none_iff.mpr h] at hcut
  rw [append_tag_eq, tagOf, hcut, hstart, List.cons_append, tagOf]
  rw [← hstart]
  cases Text.cutAt? ";tag=" (semicolon :: (ascii "tag=" ++ tag)) with
  | none => rfl
  | some p => rfl

/-- Where there is one, be it empty, it hides the one that is appended. -/
theorem tagOf_append_of_tag (h : ascii ";tag=" <:+: party) (tag : Text) :
    tagOf (party ++ ";tag=" ++ tag) = tagOf party := by
  obtain ⟨hstart, honce⟩ := tagStart_eq
  have hcut := Text.cutAt?_append_head honce party (ascii "tag=" ++ tag)
  rw [append_tag_eq, tagOf, tagOf, hstart, hcut]
  cases hparty : Text.cutAt? (semicolon :: ascii "tag=") party with
  | none => exact absurd h (Text.cutAt?_eq_none_iff.mp (hstart ▸ hparty))
  | some p =>
    obtain ⟨before, after⟩ := p
    show (Text.before semicolon (after ++ semicolon :: (ascii "tag=" ++ tag))).trim = _
    rw [Text.before_append_cons]

/-- A parameter that is appended does not change the address, as long as it has no angle
bracket. -/
theorem addressOf_append {rest : Text} (hopen : 60 ∉ rest) (hclose : 62 ∉ rest) (party : Text) :
    addressOf (party ++ semicolon :: rest) = addressOf party := by
  have hbare : Text.before semicolon (party ++ semicolon :: rest) = Text.before semicolon party :=
    Text.before_append_cons semicolon party rest
  have hno : ∀ (bracket : UInt8) (inside : Text), bracket ≠ semicolon → bracket ∉ rest →
      Text.cutAtByte? bracket inside = none →
      Text.cutAtByte? bracket (inside ++ semicolon :: rest) = none := by
    intro bracket inside hne hrest hnone
    rw [Text.cutAtByte?_eq_none_iff] at hnone ⊢
    simp [hnone, hne, hrest]
  cases hfirst : Text.cutAtByte? 60 party with
  | none =>
    have hfirst' := hno 60 party (by decide) hopen hfirst
    simp only [addressOf, hbare, hfirst, hfirst']
  | some p =>
    obtain ⟨outside, inside⟩ := p
    have hfirst' := Text.cutAtByte?_append_of_cut hfirst (semicolon :: rest)
    cases hsecond : Text.cutAtByte? 62 inside with
    | none =>
      have hsecond' := hno 62 inside (by decide) hclose hsecond
      simp only [addressOf, hbare, hfirst, hfirst', hsecond, hsecond']
    | some q =>
      obtain ⟨address, outside'⟩ := q
      have hsecond' := Text.cutAtByte?_append_of_cut hsecond (semicolon :: rest)
      simp only [addressOf, hfirst, hfirst', hsecond, hsecond']

end Append

/-! ### Parties -/

/-- An address in angle brackets, and what follows it.  An address is a word without angle
brackets. -/
structure Party where
  /-- The address. -/
  address : Text
  /-- What follows it. -/
  params : Text
  ne_nil : address ≠ []
  word : ∀ b ∈ address, Text.isSpace b = false
  opening : 60 ∉ address
  closing : 62 ∉ address

namespace Party

variable {x : Party}

/-- The field of a party. -/
def field (x : Party) : Text := ascii "<" ++ x.address ++ ">" ++ x.params

/-- A party with other parameters. -/
def withParams (x : Party) (params : Text) : Party := { x with params := params }

/-- Whether an address that holds what a tag begins with gives the tag that the parameters
give. -/
def IsUnambiguous (x : Party) : Prop :=
  ascii ";tag=" <:+: x.address → ∀ tag, IsTagOf (x.address ++ 62 :: x.params) tag →
    IsTagOf x.params tag

theorem isUnambiguous_of_no_tag (h : ¬ascii ";tag=" <:+: x.address) : x.IsUnambiguous :=
  fun hheld => absurd hheld h

theorem field_eq (x : Party) : x.field = 60 :: (x.address ++ 62 :: x.params) := by
  simp [field, ascii]

/-- **The address is found between the brackets.** -/
theorem addressOf_field (x : Party) : addressOf x.field = x.address := by
  have hopen : Text.cutAtByte? 60 x.field = some ([], x.address ++ 62 :: x.params) := by
    rw [field_eq]
    exact Text.cutAtByte?_append (l := []) List.not_mem_nil _
  have hclose : Text.cutAtByte? 62 (x.address ++ 62 :: x.params) = some (x.address, x.params) :=
    Text.cutAtByte?_append x.closing _
  simp only [addressOf, hopen, hclose]

/-- The bracket before the address does not matter to a tag. -/
theorem tagOf_field (x : Party) : tagOf x.field = tagOf (x.address ++ 62 :: x.params) := by
  -- the opening bracket is a barrier, and nothing stands before it
  have hbarrier : 60 ∉ ascii ";tag=" := by decide
  have hcut := Text.cutAt?_append_cons hbarrier [] (x.address ++ 62 :: x.params)
  have hnone : Text.cutAt? ";tag=" [] = none := by decide
  rw [List.nil_append, hnone] at hcut
  rw [field_eq, tagOf, hcut, tagOf]
  cases Text.cutAt? ";tag=" (x.address ++ 62 :: x.params) with
  | none => rfl
  | some p => rfl

/-- Where the address does not hold what a tag begins with, the tag is that of the
parameters. -/
theorem tagOf_eq_of_no_tag (h : ¬ascii ";tag=" <:+: x.address) :
    tagOf (x.address ++ 62 :: x.params) = tagOf x.params := by
  -- the closing bracket is a barrier between the address and the parameters
  have hbarrier : 62 ∉ ascii ";tag=" := by decide
  have hcut := Text.cutAt?_append_cons hbarrier x.address x.params
  rw [Text.cutAt?_eq_none_iff.mpr h] at hcut
  rw [tagOf, hcut, tagOf]
  cases Text.cutAt? ";tag=" x.params with
  | none => rfl
  | some p => rfl

/-- **The tag of a party is found among its parameters exactly if its address does not stand in
the way.** -/
theorem isTagOf_tagOf_field_iff (x : Party) :
    IsTagOf x.params (tagOf x.field) ↔ x.IsUnambiguous := by
  rw [tagOf_field]
  constructor
  · intro h _ tag htag
    rwa [isTagOf_iff.mp htag] at h
  · intro h
    by_cases hheld : ascii ";tag=" <:+: x.address
    · exact h hheld _ (isTagOf_tagOf _)
    · rw [tagOf_eq_of_no_tag hheld]
      exact isTagOf_tagOf _

/-- What is left of a party's field after a blank when it is trimmed: its parameters lose the line
ends that they end with. -/
theorem trim_blank_field (x : Party) :
    Text.trim (32 :: x.field) = (x.withParams (x.params.rdropWhile Text.isLineEnd)).field := by
  have hbracket : Text.isLineEnd 62 = false := by decide
  have hdrop : x.field.rdropWhile Text.isLineEnd
      = (x.withParams (x.params.rdropWhile Text.isLineEnd)).field := by
    rw [field_eq, field_eq, ← List.cons_append, Text.rdropWhile_append_cons hbracket]
    rfl
  have hhead : x.field.dropWhile Text.isBlank = x.field := by
    rw [field_eq]
    exact List.dropWhile_cons_of_neg (by decide)
  rw [Text.trim_cons_blank (by decide), hhead, hdrop, if_neg (by simp [field_eq])]

end Party

end Sip

end FileSharing
