import FileSharing.Proofs.RoundTrip

/-!
# Messages that are relayed

A relay reads a message and writes it again.  What it has read is in a form that is read
as it was written, with one exception: a name that trimming has left as line ends, which
another trimming takes away.  So the second reading gives the first one but for such
names, and the third one gives the second.

## Main definitions

* `Field.IsFound` — what a field can be that was read.

## Main results

* `canonicalName_canonicalName_iff` — **spelling a name twice is spelling it once, unless
  line ends are left of it.**
* `Field.IsFound.reread_eq_iff` — what that means for a field.
* `Start.isPrintable_of_read` — a start line that was read can be printed.
* `Message.parse_relayed` — **the second reading is the first one if no name is line ends, and is
  not changed by a third.**
-/

namespace FileSharing.Sip

/-! ### Names -/

/-- A name is spelled as it is listed, or only trimmed. -/
theorem canonicalName_cases (name : Text) :
    (∃ e ∈ knownNames, canonicalName name = e.2.2) ∨
      (canonicalName name = name.trim ∧
        knownNames.find? (fun e => name.trim.lower = e.1 ∨ name.trim.lower = e.2.1) = none) := by
  unfold canonicalName
  dsimp only
  split
  · next e hknown => exact .inl ⟨_, List.mem_of_find?_eq_some hknown, rfl⟩
  · next hunknown => exact .inr ⟨rfl, hunknown⟩

/-- The listed spellings are spelled as they are. -/
theorem canonicalName_known {e : Text × Text × Text} (he : e ∈ knownNames) :
    canonicalName e.2.2 = e.2.2 := by
  have hall : ∀ e ∈ knownNames, canonicalName e.2.2 = e.2.2 := by decide
  exact hall e he

/-- Nothing is left of a name that is line ends. -/
theorem canonicalName_residue {name : Text} (h : name.IsResidue) : canonicalName name = [] := by
  have hnothing : ∀ name : Text, name.trim = [] → canonicalName name = [] := by
    intro name hname
    simp only [canonicalName, hname]
    decide
  exact hnothing name (Text.trim_residue h)

/-- **Spelling a name twice is spelling it once, unless line ends are left of it.** -/
theorem canonicalName_canonicalName_iff (name : Text) :
    canonicalName (canonicalName name) = canonicalName name
      ↔ ¬(canonicalName name).IsResidue := by
  constructor
  · intro htwice hresidue
    rw [canonicalName_residue hresidue] at htwice
    exact hresidue.ne_nil htwice.symm
  · intro hno
    rcases canonicalName_cases name with ⟨e, he, hname⟩ | ⟨hname, hunknown⟩
    · rw [hname]
      exact canonicalName_known he
    · rw [hname] at hno ⊢
      have htwice := (Text.trim_trim_iff name).mpr hno
      simp only [canonicalName, htwice, hunknown]

/-! ### Fields -/

namespace Field

variable {f : Field}

/-- What a field can be that was read: both parts of its line are there, the name in its
spelling and the value trimmed. -/
def IsFound (f : Field) : Prop :=
  ∃ name value : Text, f = ⟨canonicalName name, value.trim⟩
    ∧ colon ∉ name ∧ Text.lf ∉ name ∧ Text.lf ∉ value

theorem IsFound.isOneLine (h : f.IsFound) : f.IsOneLine := by
  obtain ⟨name, value, rfl, hcolon, hname, hvalue⟩ := h
  have hlisted : ∀ e ∈ knownNames, colon ∉ e.2.2 ∧ Text.lf ∉ e.2.2 := by decide
  have hspelled : colon ∉ canonicalName name ∧ Text.lf ∉ canonicalName name := by
    rcases canonicalName_cases name with ⟨e, he, heq⟩ | ⟨heq, -⟩
    · rw [heq]
      exact hlisted e he
    · rw [heq]
      exact ⟨fun h => hcolon (Text.mem_of_mem_trim h), fun h => hname (Text.mem_of_mem_trim h)⟩
  exact ⟨hspelled.1, hspelled.2, fun h => hvalue (Text.mem_of_mem_trim h)⟩

/-- What is read of a field in its line was read. -/
theorem IsOneLine.isFound_reread (h : f.IsOneLine) : f.reread.IsFound := by
  have hspace : Text.lf ≠ 32 := by decide
  exact ⟨f.name, 32 :: f.value, rfl, h.colon, h.name, by simp [hspace, h.value]⟩

/-- Of a field that was read the value is found again. -/
theorem IsFound.reread_eq (h : f.IsFound) : f.reread = ⟨canonicalName f.name, f.value⟩ := by
  obtain ⟨name, value, rfl, -⟩ := h
  rw [reread, Text.trim_blank_trim (by decide)]

/-- **A field that was read is found again as it is, unless its name is line ends.** -/
theorem IsFound.reread_eq_iff (h : f.IsFound) : f.reread = f ↔ ¬f.name.IsResidue := by
  rw [h.reread_eq]
  obtain ⟨name, value, rfl, -⟩ := h
  rw [Field.mk.injEq, and_iff_left rfl]
  exact canonicalName_canonicalName_iff name

/-- The third reading gives the second. -/
theorem IsFound.reread_reread (h : f.IsFound) : f.reread.reread = f.reread := by
  by_cases hname : f.name.IsResidue
  · have hagain := h.isOneLine.isFound_reread
    rw [hagain.reread_eq_iff, h.reread_eq, canonicalName_residue hname]
    exact fun hnil => hnil.ne_nil rfl
  · rw [h.reread_eq_iff.mpr hname, h.reread_eq_iff.mpr hname]

/-- A field with a name that is line ends gets shorter. -/
theorem IsFound.length_reread (h : f.IsFound) : f.reread.toText.length ≤ f.toText.length
    ∧ (f.reread.toText.length = f.toText.length → f.reread = f) := by
  by_cases hname : f.name.IsResidue
  · have hlength : 0 < f.name.length := List.length_pos_of_ne_nil hname.ne_nil
    rw [h.reread_eq, canonicalName_residue hname]
    simp only [toText, List.length_append, List.length_nil]
    exact ⟨by omega, by omega⟩
  · rw [h.reread_eq_iff.mpr hname]
    exact ⟨le_refl _, fun _ => rfl⟩

/-- The length of a body can be found under its name. -/
theorem not_isResidue_of_hasKey (h : f.hasKey (nameKey contentLength) = true) :
    ¬f.name.IsResidue := by
  intro hresidue
  have hfirst : f.name.lower.head? = some 99 := by
    rw [hasKey_iff.mp h]
    decide
  rw [Text.lower, List.head?_map, hresidue.head] at hfirst
  exact absurd hfirst (by decide)

theorem length_flatMap_reread {fs : List Field} (h : ∀ f ∈ fs, f.IsFound) :
    ((fs.map reread).flatMap toText).length ≤ (fs.flatMap toText).length := by
  induction fs with
  | nil => exact le_refl _
  | cons f fs ih =>
    obtain ⟨hf, hfs⟩ := List.forall_mem_cons.mp h
    have hhead := hf.length_reread.1
    have htail := ih hfs
    simp only [List.map_cons, List.flatMap_cons, List.length_append]
    omega

/-- Fields that are written alike are alike. -/
theorem reread_eq_of_flatMap {fs : List Field} (h : ∀ f ∈ fs, f.IsFound)
    (heq : (fs.map reread).flatMap toText = fs.flatMap toText) : ∀ f ∈ fs, f.reread = f := by
  induction fs with
  | nil => exact fun f hf => absurd hf List.not_mem_nil
  | cons f fs ih =>
    obtain ⟨hf, hfs⟩ := List.forall_mem_cons.mp h
    have hlength := congrArg List.length heq
    simp only [List.map_cons, List.flatMap_cons, List.length_append] at heq hlength
    have hshort := hf.length_reread.1
    have htails := length_flatMap_reread hfs
    have hfirst : f.reread = f := hf.length_reread.2 (by omega)
    rw [hfirst] at heq
    exact List.forall_mem_cons.mpr ⟨hfirst, ih hfs (List.append_cancel_left heq)⟩

end Field

/-- The fields that are read were found in their lines. -/
theorem Rest.isFound_read (s : Text) : ∀ f ∈ (Rest.read s).fields, f.IsFound := by
  fun_induction Rest.read s with
  | case1 s hs => exact fun f hf => absurd hf List.not_mem_nil
  | case2 s line rest hs line' hempty => exact fun f hf => absurd hf List.not_mem_nil
  | case3 s line rest hs line' hempty hlt tail name value hcut ih =>
    obtain ⟨hline, hcolon⟩ := Text.eq_of_cutAtByte? hcut
    have hlf : Text.lf ∉ name ++ colon :: value := by
      rw [← hline]
      exact fun h => Text.lf_not_mem_of_line? hs (Text.mem_of_mem_dropCr h)
    rw [List.mem_append, List.mem_cons, not_or, not_or] at hlf
    exact List.forall_mem_cons.mpr ⟨⟨name, value, rfl, hcolon, hlf.1, hlf.2.2⟩, ih⟩
  | case4 s line rest hs line' hempty hlt tail hcut ih => exact ih

/-! ### Start lines -/

/-- A line that begins with the version is trimmed by dropping what ends it. -/
theorem isTrimmed_of_startsWith {line : Text} (h : Text.startsWith line.trim version = true) :
    line.trim.IsTrimmed := by
  refine (Text.isTrimmed_or_isResidue_trim line).resolve_right fun hresidue => ?_
  obtain ⟨b, s, hline⟩ := List.exists_cons_of_ne_nil hresidue.ne_nil
  obtain rfl : b = Text.cr := by simpa [hline] using hresidue.head
  rw [hline] at h
  exact absurd h (by simp [Text.startsWith, version, ascii, Text.stripLeading?, Text.cr])

/-- A start line that was read can be printed. -/
theorem Start.isPrintable_of_read {line : Text} (hlf : Text.lf ∉ line) {s : Start}
    (h : Start.read line.trim = .ok s) : s.IsPrintable := by
  unfold Start.read at h
  dsimp only at h
  split at h
  · cases h
  split at h
  · next hstarts =>
    split at h
    · cases h
    · next hrange =>
      obtain rfl := Except.ok.inj h
      -- the reason is the end of the line
      have hend := (Text.readInt_suffix (Text.word line.trim).2).trans (Text.word_suffix line.trim)
      have htrimmed := isTrimmed_of_startsWith hstarts
      refine ⟨by omega, fun hmem => ?_, ?_⟩
      · exact hlf (Text.mem_of_mem_trim (hend.subset (Text.mem_of_mem_trim hmem)))
      · refine Text.isTrimmed_trim_of_last fun b hb => ?_
        exact htrimmed.last b (Text.mem_getLast?_of_suffix hend hb)
  · split at h
    · cases h
    · next hwords =>
      obtain rfl := Except.ok.inj h
      rw [not_or] at hwords
      refine ⟨by simpa using hwords.1, fun b hb => Text.not_isSpace_of_mem_word hb⟩

/-! ### Messages -/

namespace Message

variable {m : Message}

theorem isFound_withLength (h : ∀ f ∈ m.headers.fields, f.IsFound) :
    ∀ f ∈ m.withLength.headers.fields, f.IsFound := by
  have hlength := isPrintable_length m.body.length
  refine forall_fields_withLength h ?_
  rw [← hlength.reread]
  exact hlength.toIsOneLine.isFound_reread

theorem has_iff (h : Headers) (name : Text) :
    h.has name = true ↔ ∃ f ∈ h.fields, f.hasKey (nameKey name) = true := by
  rw [Headers.has, Headers.find?, List.find?_isSome]

/-- The length is there, and it is found again. -/
theorem has_contentLength_withLength (m : Message) :
    ∃ f ∈ m.withLength.headers.fields, f.hasKey (nameKey contentLength) = true := by
  rw [fields_withLength]
  split
  · next hhas =>
    rw [List.append_nil]
    exact (has_iff _ _).mp hhas
  · refine ⟨⟨contentLength, Text.decimal m.body.length⟩, by simp, ?_⟩
    have hname : contentLength.lower = nameKey contentLength := by decide
    exact Field.hasKey_iff.mpr hname

theorem withLength_of_has (h : m.headers.has contentLength = true) : m.withLength = m :=
  if_pos h

theorem withLength_withLength (m : Message) : m.withLength.withLength = m.withLength :=
  withLength_of_has ((has_iff _ _).mpr m.has_contentLength_withLength)

/-- What is read again has its length. -/
theorem withLength_reread (h : ∀ f ∈ m.headers.fields, f.IsFound) :
    m.reread.withLength = m.reread := by
  obtain ⟨f, hf, hkey⟩ := m.has_contentLength_withLength
  have hsame : f.reread = f :=
    ((isFound_withLength h f hf).reread_eq_iff).mpr (Field.not_isResidue_of_hasKey hkey)
  refine withLength_of_has ((has_iff _ _).mpr ⟨f, ?_, hkey⟩)
  exact List.mem_map.mpr ⟨f, hf, hsame⟩

/-- The third reading gives the second. -/
theorem reread_reread (h : ∀ f ∈ m.headers.fields, f.IsFound) : m.reread.reread = m.reread := by
  have hfields : ∀ f ∈ m.withLength.headers.fields, f.reread.reread = f.reread :=
    fun f hf => (isFound_withLength h f hf).reread_reread
  rw [reread, withLength_reread h]
  simp only [reread, List.map_map, Function.comp_def]
  rw [List.map_congr_left hfields]

theorem toText_withLength (m : Message) : m.withLength.toText = m.toText := by
  rw [toText_eq, withLength_withLength, start_withLength, body_withLength, ← toText_eq]

/-- **The second reading is the first one, and is written like it, exactly if no name is
line ends.** -/
theorem reread_eq_iff (h : ∀ f ∈ m.headers.fields, f.IsFound) :
    m.reread = m.withLength ↔ ∀ f ∈ m.headers.fields, ¬f.name.IsResidue := by
  constructor
  · intro heq f hf
    have hfields : m.withLength.headers.fields.map Field.reread
        = m.withLength.headers.fields.map id := by
      rw [List.map_id]
      exact congrArg (fun m => m.headers.fields) heq
    have hmem : f ∈ m.withLength.headers.fields := by
      rw [fields_withLength]
      exact List.mem_append_left _ hf
    exact (h f hf).reread_eq_iff.mp (List.map_inj_left.mp hfields f hmem)
  · intro hnames
    exact reread_eq fun f hf => (h f hf).reread_eq_iff.mpr (hnames f hf)

theorem toText_reread_iff (h : ∀ f ∈ m.headers.fields, f.IsFound) :
    m.reread.toText = m.toText ↔ m.reread = m.withLength := by
  constructor
  · intro heq
    rw [toText_eq, withLength_reread h, toText_eq] at heq
    have hfields := List.append_cancel_right (List.cons.inj (List.append_cancel_left heq)).2
    have hsame := Field.reread_eq_of_flatMap (isFound_withLength h) hfields
    exact reread_eq fun f hf => hsame f (by
      rw [fields_withLength]
      exact List.mem_append_left _ hf)
  · intro heq
    rw [heq, toText_withLength]

/-- What is known of a message that was read. -/
theorem of_parse {t : Text} (h : parse t = .ok m) :
    m.start.IsPrintable ∧ ∀ f ∈ m.headers.fields, f.IsFound := by
  have hline : Text.lf ∉ (splitStart t).1 := by
    unfold splitStart
    cases ht : t.line? with
    | none => exact List.not_mem_nil
    | some parts =>
      obtain ⟨line, rest⟩ := parts
      exact Text.lf_not_mem_of_line? ht
  unfold parse at h
  split at h
  next line rest hsplit =>
  rw [hsplit] at hline
  split at h
  · cases h
  · next start hstart =>
    obtain rfl := Except.ok.inj h
    exact ⟨Start.isPrintable_of_read hline hstart, Rest.isFound_read rest⟩

/-- **What was read and is written is read again**: as the same message, with the length of
its body, and written alike, exactly if no name in it is line ends; and as a message that no
further reading and writing changes, in any case. -/
theorem parse_relayed {t : Text} {m : Message} (h : parse t = .ok m) :
    parse m.toText = .ok m.reread
      ∧ (m.reread = m.withLength ↔ ∀ f ∈ m.headers.fields, ¬f.name.IsResidue)
      ∧ (m.reread.toText = m.toText ↔ ∀ f ∈ m.headers.fields, ¬f.name.IsResidue)
      ∧ parse m.reread.toText = .ok m.reread := by
  obtain ⟨hstart, hfields⟩ := of_parse h
  have hagain : ∀ f ∈ m.reread.headers.fields, f.IsOneLine := by
    intro f hf
    obtain ⟨g, hg, rfl⟩ := List.mem_map.mp hf
    exact (isFound_withLength hfields g hg).isOneLine.isFound_reread.isOneLine
  refine ⟨?_, reread_eq_iff hfields, ?_, ?_⟩
  · exact parse_toText_eq_reread hstart fun f hf => (hfields f hf).isOneLine
  · rw [toText_reread_iff hfields, reread_eq_iff hfields]
  · rw [parse_toText_eq_reread (m := m.reread) hstart hagain, reread_reread hfields]

/-- The name is a carriage return after a space, and so is none when it is read again. -/
def carriageReturnNamed : Text := "BYE sip:a SIP/2.0\n \r: v\n\nbody"

theorem parse_carriageReturnNamed : parse carriageReturnNamed
    = .ok ⟨.request .bye "sip:a", ⟨[⟨[Text.cr], "v"⟩]⟩, "body"⟩ := by decide +kernel

theorem parse_relayed_carriageReturnNamed : ∃ m, parse carriageReturnNamed = .ok m
    ∧ parse m.toText = .ok m.reread ∧ m.headers.fields = [⟨[Text.cr], "v"⟩] :=
  ⟨_, parse_carriageReturnNamed, (parse_relayed parse_carriageReturnNamed).1, rfl⟩

/-- What is read of it is not read again. -/
theorem not_parse_relayed_carriageReturnNamed : ¬∀ m, parse carriageReturnNamed = .ok m →
    parse m.toText = .ok m.withLength := by
  intro hall
  have hagain := hall _ parse_carriageReturnNamed
  exact absurd hagain (by decide +kernel)

end Message

end FileSharing.Sip
