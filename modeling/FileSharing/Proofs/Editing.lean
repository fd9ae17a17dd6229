import FileSharing.Proofs.Relaying

/-!
# Headers that are edited

The fields of a message are an ordered multimap.  A field is found by any name that is spelled
like the one it was put in with: names that differ only in their case are alike, and so are a
compact form and its long name.  What is kept of a name is its canonical spelling, and that is
alike to the name itself, with one exception: where trimming has left nothing but line ends of
a name, the spelling is a name of its own, under which the field is not found.

## Main definitions

* `Headers.Edit`, `Headers.edited` — changes of the fields, one after another.
* `alike` — whether two names are alike.
* `Headers.IsMultimap` — the laws of an ordered multimap.

## Main results

* `nameKey_congr` — **names that differ only in their case are alike.**
* `Headers.isMultimap_hasKey` — the laws hold of the names that fields were put in with.
* `Headers.edited_isMultimap_iff` — **they hold of the names that are kept exactly if none of
  these is line ends.**
-/

namespace FileSharing.Text

variable {b : UInt8} {s : Text}

/-! ### Case -/

theorem isBlank_lowerByte (b : UInt8) : isBlank (lowerByte b) = isBlank b := by
  unfold lowerByte isBlank
  split
  · next h => grind
  · rfl

theorem isLineEnd_lowerByte (b : UInt8) : isLineEnd (lowerByte b) = isLineEnd b := by
  unfold isLineEnd
  rw [isBlank_lowerByte]
  unfold lowerByte cr
  split
  · next h => grind
  · rfl

theorem lowerByte_eq_cr_iff : lowerByte b = cr ↔ b = cr := by
  unfold lowerByte cr
  split
  · next h => grind
  · rfl

/-- Line ends have no case. -/
theorem isResidue_lower_iff : s.lower.IsResidue ↔ s.IsResidue := by
  have hhead : s.lower.head? = some cr ↔ s.head? = some cr := by
    simp [lower, lowerByte_eq_cr_iff]
  have hall : (∀ b ∈ s.lower, isLineEnd b = true) ↔ ∀ b ∈ s, isLineEnd b = true := by
    simp [lower, isLineEnd_lowerByte]
  exact ⟨fun h => ⟨hhead.mp h.head, hall.mp h.lineEnds⟩,
    fun h => ⟨hhead.mpr h.head, hall.mpr h.lineEnds⟩⟩

/-- What is trimmed of a text does not depend on its case. -/
theorem trim_lower (s : Text) : s.lower.trim = s.trim.lower := by
  have hblank : isBlank ∘ lowerByte = isBlank := funext isBlank_lowerByte
  have hend : isLineEnd ∘ lowerByte = isLineEnd := funext isLineEnd_lowerByte
  have hdrop : ∀ s : Text, dropEnd isLineEnd (s.map lowerByte)
      = (dropEnd isLineEnd s).map lowerByte := by
    intro s
    simp only [dropEnd, ← List.map_reverse, List.dropWhile_map, hend]
  unfold trim lower
  simp only [List.dropWhile_map, hblank, hdrop, List.isEmpty_map, List.length_map]
  split <;> rfl

end FileSharing.Text

namespace FileSharing.Sip

/-! ### Names that are alike -/

/-- Whether two names are alike: their canonical spellings differ in nothing but their case. -/
def alike (name name' : Text) : Bool := nameKey name == nameKey name'

theorem alike_iff {name name' : Text} : alike name name' = true ↔ nameKey name = nameKey name' :=
  beq_iff_eq

/-- The key of a name is found by its letters alone. -/
theorem nameKey_eq (name : Text) :
    nameKey name = match knownNames.find? fun (compact, long, _) =>
        name.trim.lower = compact ∨ name.trim.lower = long with
      | some (_, _, canonical) => canonical.lower
      | none => name.trim.lower := by
  unfold nameKey canonicalName
  dsimp only
  generalize knownNames.find? _ = known
  cases known with
  | none => rfl
  | some spelling => rfl

/-- **Names that differ only in their case are alike.** -/
theorem nameKey_congr {name name' : Text} (h : name.lower = name'.lower) :
    nameKey name = nameKey name' := by
  have htrim : name.trim.lower = name'.trim.lower := by
    rw [← Text.trim_lower, h, Text.trim_lower]
  rw [nameKey_eq, nameKey_eq, htrim]

/-- The compact forms, each with its long name. -/
def compactForms : List (Text × Text) :=
  [("i", "Call-ID"), ("f", "From"), ("t", "To"), ("m", "Contact"), ("l", "Content-Length"),
    ("c", "Content-Type"), ("v", "Via")]

/-- A compact form and its long name are alike, in any case. -/
theorem nameKey_compact {e : Text × Text} (he : e ∈ compactForms) {name name' : Text}
    (h : name.lower = e.1.lower) (h' : name'.lower = e.2.lower) :
    nameKey name = nameKey name' := by
  have hforms : ∀ e ∈ compactForms, nameKey e.1 = nameKey e.2 := by decide
  rw [nameKey_congr h, nameKey_congr h', hforms e he]

/-- A field is found under the names that are alike to its own, unless that is line ends. -/
theorem Field.alike_eq_hasKey {f : Field} {name : Text} (hf : f.name = canonicalName name)
    (hno : ¬f.name.IsResidue) (key : Text) : alike f.name key = f.hasKey (nameKey key) := by
  rw [hf] at hno
  rw [alike, Field.hasKey, nameKey, hf, (canonicalName_canonicalName_iff name).mpr hno]

/-- After a blank, line ends are a name of their own. -/
theorem canonicalName_cons_residue {name : Text} (h : name.IsResidue) :
    canonicalName (32 :: name) = name := by
  have htrim : Text.trim (32 :: name) = name := by
    rw [Text.trim_cons_blank (by decide), Text.dropWhile_eq_self h.head_not_blank,
      if_pos h.rdropWhile_eq]
  have hletters : ∀ e ∈ knownNames, e.1.head? ≠ some Text.cr ∧ e.2.1.head? ≠ some Text.cr := by
    decide
  have hhead := (Text.isResidue_lower_iff.mpr h).head
  have hunknown : knownNames.find? (fun e => name.lower = e.1 ∨ name.lower = e.2.1) = none := by
    refine List.find?_eq_none.mpr fun e he hname => ?_
    rcases of_decide_eq_true hname with heq | heq
    · exact (hletters e he).1 (heq ▸ hhead)
    · exact (hletters e he).2 (heq ▸ hhead)
  simp only [canonicalName, htrim, hunknown]

/-- No canonical spelling is alike to it, not even the same line ends. -/
theorem not_alike_residue {name : Text} (h : name.IsResidue) (name' : Text) :
    alike (canonicalName name') (32 :: name) = false := by
  refine Bool.eq_false_iff.mpr fun halike => ?_
  have hlower : (canonicalName (canonicalName name')).lower = name.lower := by
    have hkey := alike_iff.mp halike
    rwa [nameKey, nameKey, canonicalName_cons_residue h] at hkey
  have hagain : (canonicalName (canonicalName name')).IsResidue := by
    rw [← Text.isResidue_lower_iff, hlower]
    exact Text.isResidue_lower_iff.mpr h
  -- a spelling that is line ends is spelled as nothing, and any other one as it is
  by_cases hres : (canonicalName name').IsResidue
  · rw [canonicalName_residue hres] at hagain
    exact hagain.ne_nil rfl
  · rw [(canonicalName_canonicalName_iff name').mpr hres] at hagain
    exact hres hagain

namespace Headers

variable {h : Headers}

/-! ### The laws -/

/-- A change of the fields. -/
inductive Edit where
  /-- Give the first field of a name a value, or append one. -/
  | set (name value : Text)
  /-- Append a field. -/
  | add (name value : Text)
  /-- Drop all fields of a name. -/
  | remove (name : Text)

/-- The fields after a change. -/
def edit (h : Headers) : Edit → Headers
  | .set name value => h.set name value
  | .add name value => h.add name value
  | .remove name => h.remove name

/-- The fields after some changes, one after another, where there were none. -/
def edited (es : List Edit) : Headers := es.foldl edit .empty

/-- The laws of an ordered multimap, where `isOf name f` says whether `f` is a field of a name. -/
structure IsMultimap (isOf : Text → Field → Bool) (h : Headers) : Prop where
  /-- There is a field of a name if one of the fields is. -/
  has_eq : ∀ name, h.has name = h.fields.any (isOf name)
  /-- The value of a name is that of its first field, and empty where it has none. -/
  get_eq : ∀ name, h.get name = ((h.fields.find? (isOf name)).map Field.value).getD []
  /-- A value that is set is found under all names that are alike. -/
  get_set : ∀ name value name', alike name name' → (h.set name value).get name' = value
  /-- Setting a value replaces that of the first field of the name, or appends a field. -/
  set_eq : ∀ name value,
    (∃ l f l', h.fields = l ++ f :: l' ∧ (∀ g ∈ l, isOf name g = false) ∧ isOf name f = true ∧
      (h.set name value).fields = l ++ { f with value := value } :: l') ∨
    ((∀ g ∈ h.fields, isOf name g = false) ∧
      (h.set name value).fields = h.fields ++ [⟨canonicalName name, value⟩])
  /-- Adding a value appends a field. -/
  add_eq : ∀ name value, (h.add name value).fields = h.fields ++ [⟨canonicalName name, value⟩]
  /-- What is removed is no longer found under any name that is alike. -/
  has_remove : ∀ name name', alike name name' → (h.remove name).has name' = false
  /-- Removing a name drops its fields, and keeps all others in order. -/
  remove_eq : ∀ name, (h.remove name).fields = h.fields.filter (!isOf name ·)

/-- Setting a value changes the first field under a key, or appends one. -/
theorem replaceFirst_cases (key value : Text) (fresh : Field) (fs : List Field) :
    (∃ l f l', fs = l ++ f :: l' ∧ (∀ g ∈ l, g.hasKey key = false) ∧ f.hasKey key = true ∧
      replaceFirst key value fresh fs = l ++ { f with value := value } :: l') ∨
    ((∀ g ∈ fs, g.hasKey key = false) ∧ replaceFirst key value fresh fs = fs ++ [fresh]) := by
  induction fs with
  | nil => exact .inr ⟨fun _ h => absurd h List.not_mem_nil, rfl⟩
  | cons f fs ih =>
    by_cases hf : f.hasKey key = true
    · refine .inl ⟨[], f, fs, rfl, fun _ h => absurd h List.not_mem_nil, hf, ?_⟩
      rw [replaceFirst, if_pos hf]
      rfl
    · have hkeep : replaceFirst key value fresh (f :: fs) = f :: replaceFirst key value fresh fs :=
        if_neg hf
      rw [Bool.not_eq_true] at hf
      rcases ih with ⟨l, g, l', rfl, hl, hg, hreplace⟩ | ⟨hfs, hreplace⟩
      · refine .inl ⟨f :: l, g, l', rfl, List.forall_mem_cons.mpr ⟨hf, hl⟩, hg, ?_⟩
        rw [hkeep, hreplace]
        rfl
      · refine .inr ⟨List.forall_mem_cons.mpr ⟨hf, hfs⟩, ?_⟩
        rw [hkeep, hreplace]
        rfl

/-- **The laws hold of the names that fields were put in with.** -/
theorem isMultimap_hasKey (h : Headers) : h.IsMultimap fun name f => f.hasKey (nameKey name) where
  has_eq name := List.isSome_find?
  get_eq _ := rfl
  get_set name value name' hname := by
    rw [get, find?, ← alike_iff.mp hname]
    exact get_set_self h name value
  set_eq name value := replaceFirst_cases _ _ _ h.fields
  add_eq _ _ := rfl
  has_remove name name' hname := by
    rw [has, find?, ← alike_iff.mp hname, List.isSome_find?, remove]
    simp
  remove_eq _ := rfl

theorem find?_congr {p q : Field → Bool} {fs : List Field} (hpq : ∀ f ∈ fs, p f = q f) :
    fs.find? p = fs.find? q := by
  rw [← List.head?_filter, ← List.head?_filter, List.filter_congr hpq]

/-- The laws for other words that say the same of the fields that are there. -/
theorem IsMultimap.congr {isOf isOf' : Text → Field → Bool} (hm : h.IsMultimap isOf)
    (hsame : ∀ name, ∀ f ∈ h.fields, isOf name f = isOf' name f) : h.IsMultimap isOf' where
  has_eq name := by
    rw [hm.has_eq, ← List.isSome_find?, find?_congr (hsame name), List.isSome_find?]
  get_eq name := by rw [hm.get_eq, find?_congr (hsame name)]
  get_set := hm.get_set
  set_eq name value := by
    rcases hm.set_eq name value with ⟨l, f, l', hfields, hl, hf, hset⟩ | ⟨hnone, hset⟩
    · have hmem : ∀ g, g ∈ l ∨ g = f → g ∈ h.fields := by
        rw [hfields]
        rintro g (hg | rfl)
        · exact List.mem_append_left _ hg
        · simp
      refine .inl ⟨l, f, l', hfields, fun g hg => ?_, ?_, hset⟩
      · rw [← hsame name g (hmem g (.inl hg)), hl g hg]
      · rw [← hsame name f (hmem f (.inr rfl)), hf]
    · exact .inr ⟨fun g hg => (hsame name g hg).symm.trans (hnone g hg), hset⟩
  add_eq := hm.add_eq
  has_remove := hm.has_remove
  remove_eq name := by
    rw [hm.remove_eq]
    exact List.filter_congr fun f hf => by rw [hsame name f hf]

/-! ### Stores that are reached -/

theorem IsCanonical.edit (hh : h.IsCanonical) (e : Edit) : (h.edit e).IsCanonical := by
  cases e with
  | set name value => exact hh.set name value
  | add name value =>
    intro f hf
    rcases List.mem_append.mp hf with hf | hf
    · exact hh f hf
    · exact ⟨name, by rw [List.mem_singleton.mp hf]⟩
  | remove name => exact fun f hf => hh f (List.mem_of_mem_filter hf)

/-- All that is ever kept of names is their canonical spelling. -/
theorem isCanonical_edited (es : List Edit) : (edited es).IsCanonical := by
  have hrun : ∀ h : Headers, h.IsCanonical → (es.foldl edit h).IsCanonical := by
    induction es with
    | nil => exact fun _ hh => hh
    | cons e es ih => exact fun h hh => ih _ (hh.edit e)
  exact hrun .empty fun f hf => absurd hf List.not_mem_nil

/-- Where a name that is kept is line ends, it is not alike to itself. -/
theorem not_isMultimap_alike (hh : h.IsCanonical) {f : Field} (hf : f ∈ h.fields)
    (hres : f.name.IsResidue) : ¬h.IsMultimap fun name f => alike f.name name := by
  intro hm
  have hfound : h.has (32 :: f.name) = true := by
    rw [(isMultimap_hasKey h).has_eq, List.any_eq_true]
    exact ⟨f, hf, Field.hasKey_iff.mpr (by rw [nameKey, canonicalName_cons_residue hres])⟩
  rw [hm.has_eq, List.any_eq_true] at hfound
  obtain ⟨g, hg, halike⟩ := hfound
  obtain ⟨name, hname⟩ := hh g hg
  rw [hname, not_alike_residue hres] at halike
  exact Bool.noConfusion halike

/-- **The fields are an ordered multimap.**  After any changes, its laws hold of the names that
fields were put in with; they hold of the names that are kept exactly if none of these is line
ends.  Names are alike that differ only in their case, and so are compact forms and their long
names. -/
theorem edited_isMultimap_iff (es : List Edit) :
    (edited es).IsMultimap (fun name f => f.hasKey (nameKey name)) ∧
      ((edited es).IsMultimap (fun name f => alike f.name name)
        ↔ ∀ f ∈ (edited es).fields, ¬f.name.IsResidue) ∧
      (∀ name name' : Text, name.lower = name'.lower → alike name name' = true) ∧
      ∀ e ∈ compactForms, ∀ name name' : Text,
        name.lower = e.1.lower → name'.lower = e.2.lower → alike name name' = true := by
  have hcanonical := isCanonical_edited es
  refine ⟨isMultimap_hasKey _, ⟨fun hm f hf hres => ?_, fun hno => ?_⟩, ?_, ?_⟩
  · exact not_isMultimap_alike hcanonical hf hres hm
  · refine (isMultimap_hasKey _).congr fun name f hf => ?_
    obtain ⟨name', hname'⟩ := hcanonical f hf
    exact (Field.alike_eq_hasKey hname' (hno f hf) name).symm
  · exact fun name name' h => alike_iff.mpr (nameKey_congr h)
  · exact fun e he name name' h h' => alike_iff.mpr (nameKey_compact he h h')

/-- A field that is listed under a carriage return is not found under it. -/
theorem not_edited_isMultimap_carriageReturn :
    let h := edited [.add " \r" "v"]
    h.fields = [⟨"\r", "v"⟩] ∧ alike "\r" "\r" = true ∧ h.get "\r" = [] ∧ h.has "\r" = false ∧
      ¬h.IsMultimap fun name f => alike f.name name := by
  intro h
  have hfields : h.fields = [⟨"\r", "v"⟩] := by decide
  have hget : h.get "\r" = [] := by decide
  refine ⟨hfields, by decide, hget, by decide, fun hm => ?_⟩
  have hlaw := hm.get_eq "\r"
  rw [hfields, hget] at hlaw
  exact absurd hlaw (by decide)

end Headers

end FileSharing.Sip
