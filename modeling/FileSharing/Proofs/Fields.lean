import FileSharing.Sip.Reader
import Mathlib.Data.List.Basic

/-!
# Header fields as a multimap

Fields are found by the canonical spelling of their names, without regard to case.  What
counts of a list of fields is therefore which values each name has, and in which order.

## Main definitions

* `Headers.values` — the values of a name.
* `Headers.IsCanonical` — every field has a name in its canonical spelling.

## Main results

* `Headers.values_set` — **setting a name replaces its first value and touches no other
  name.**
* `Headers.vias_eq_values` — where names are in their canonical spelling, the Via fields are
  all fields of that name in any spelling.
-/

namespace FileSharing.Sip

/-! ### Keys -/

namespace Field

variable {f : Field} {key key' : Text}

theorem hasKey_iff : f.hasKey key = true ↔ f.name.lower = key := beq_iff_eq

/-- A field is found under one key. -/
theorem hasKey_eq_false (h : key' ≠ key) (hf : f.hasKey key = true) : f.hasKey key' = false :=
  Bool.eq_false_iff.mpr fun hf' => h ((hasKey_iff.mp hf').symm.trans (hasKey_iff.mp hf))

end Field

section ReplaceFirst

variable {key key' value : Text} {fresh : Field}

/-- Of the fields under a key, the first one gets the value. -/
theorem values_replaceFirst_self (hfresh : fresh.hasKey key = true) (hvalue : fresh.value = value)
    (fs : List Field) :
    ((replaceFirst key value fresh fs).filter (·.hasKey key)).map Field.value
      = value :: ((fs.filter (·.hasKey key)).map Field.value).tail := by
  induction fs with
  | nil => simp [replaceFirst, hfresh, hvalue]
  | cons f fs ih =>
    cases hf : f.hasKey key with
    | true =>
      have hf' : ({ f with value := value } : Field).hasKey key = true := hf
      simp [replaceFirst, hf, hf']
    | false => simpa [replaceFirst, hf] using ih

/-- The fields under another key stay. -/
theorem values_replaceFirst_of_ne (h : key' ≠ key) (hfresh : fresh.hasKey key = true)
    (fs : List Field) :
    ((replaceFirst key value fresh fs).filter (·.hasKey key')).map Field.value
      = (fs.filter (·.hasKey key')).map Field.value := by
  induction fs with
  | nil => simp [replaceFirst, Field.hasKey_eq_false h hfresh]
  | cons f fs ih =>
    cases hf : f.hasKey key with
    | true =>
      have hf' : ({ f with value := value } : Field).hasKey key = true := hf
      simp [replaceFirst, hf, Field.hasKey_eq_false h hf, Field.hasKey_eq_false h hf']
    | false =>
      rw [replaceFirst, if_neg (by simp [hf]), List.filter_cons, List.filter_cons]
      split
      · rw [List.map_cons, List.map_cons, ih]
      · exact ih

end ReplaceFirst

/-! ### Values -/

namespace Headers

variable {h : Headers} {name name' value : Text}

/-- The values of all fields of a name, in order. -/
def values (h : Headers) (name : Text) : List Text :=
  (h.fields.filter (·.hasKey (nameKey name))).map Field.value

theorem get_eq_values (h : Headers) (name : Text) :
    h.get name = (h.values name).head?.getD [] := by
  rw [get, find?, values, List.head?_map, List.head?_filter]

/-- What a name has first in a list of fields, it has in whatever follows them only if they do not
have it. -/
theorem get_append (fs gs : List Field) (name : Text) :
    (⟨fs ++ gs⟩ : Headers).get name
      = if (⟨fs⟩ : Headers).has name then (⟨fs⟩ : Headers).get name
        else (⟨gs⟩ : Headers).get name := by
  have hfind : (⟨fs ++ gs⟩ : Headers).find? name
      = ((⟨fs⟩ : Headers).find? name).or ((⟨gs⟩ : Headers).find? name) := List.find?_append
  rw [get, hfind, has]
  cases hfound : (⟨fs⟩ : Headers).find? name with
  | none => rfl
  | some f =>
    rw [get, hfound]
    rfl

/-- **Setting a name replaces its first value and touches no other name.** -/
theorem values_set (h : Headers) (name value name' : Text) :
    (h.set name value).values name'
      = if nameKey name' = nameKey name then value :: (h.values name).tail
        else h.values name' := by
  have hfresh : (⟨canonicalName name, value⟩ : Field).hasKey (nameKey name) = true :=
    Field.hasKey_iff.mpr rfl
  split
  · next hkey =>
    rw [values, hkey]
    exact values_replaceFirst_self hfresh rfl h.fields
  · next hkey => exact values_replaceFirst_of_ne hkey hfresh h.fields

theorem values_set_of_ne (hkey : nameKey name' ≠ nameKey name) (h : Headers) (value : Text) :
    (h.set name value).values name' = h.values name' := by
  rw [values_set, if_neg hkey]

theorem get_set_self (h : Headers) (name value : Text) : (h.set name value).get name = value := by
  rw [get_eq_values, values_set, if_pos rfl]
  rfl

theorem get_set_of_ne (hkey : nameKey name' ≠ nameKey name) (h : Headers) (value : Text) :
    (h.set name value).get name' = h.get name' := by
  rw [get_eq_values, values_set_of_ne hkey, get_eq_values]

/-! ### Canonical spelling -/

/-- Every field has a name in its canonical spelling. -/
def IsCanonical (h : Headers) : Prop := ∀ f ∈ h.fields, ∃ name, f.name = canonicalName name

theorem IsCanonical.set (hh : h.IsCanonical) (name value : Text) :
    (h.set name value).IsCanonical := by
  obtain ⟨fs⟩ := h
  have hreplace : ∀ key, ∀ f ∈ replaceFirst key value ⟨canonicalName name, value⟩ fs,
      ∃ name, f.name = canonicalName name := by
    intro key
    induction fs with
    | nil => exact fun f hf => ⟨name, by rw [List.mem_singleton.mp hf]⟩
    | cons f fs ih =>
      obtain ⟨hf, hfs⟩ := List.forall_mem_cons.mp hh
      rw [replaceFirst]
      split
      · exact List.forall_mem_cons.mpr ⟨hf, hfs⟩
      · exact List.forall_mem_cons.mpr ⟨hf, ih hfs⟩
  exact hreplace _

/-- A name in its canonical spelling is found under the key of Via only if it is Via. -/
theorem canonicalName_eq_via (h : (canonicalName name).lower = nameKey "Via") :
    canonicalName name = ascii "Via" := by
  unfold canonicalName at h ⊢
  dsimp only at h ⊢
  split at h
  · next e hknown =>
    have honly : ∀ e ∈ knownNames, e.2.2.lower = nameKey "Via" → e.2.2 = ascii "Via" := by decide
    exact honly _ (List.mem_of_find?_eq_some hknown) h
  · next hunknown =>
    -- whatever is spelled like Via is known
    have hvia := List.find?_eq_none.mp hunknown ("v", "via", "Via") (by decide)
    exact absurd (decide_eq_true (.inr h)) hvia

/-- Where names are in their canonical spelling, the Via fields are all fields of that name in
any spelling. -/
theorem vias_eq_values (hh : h.IsCanonical) : h.vias = h.values "Via" := by
  have hfilter : ∀ f ∈ h.fields, decide (f.name = ascii "Via") = f.hasKey (nameKey "Via") := by
    intro f hf
    obtain ⟨name, hname⟩ := hh f hf
    rw [Bool.eq_iff_iff, decide_eq_true_iff, Field.hasKey_iff]
    constructor
    · intro hvia
      rw [hvia]
      rfl
    · intro hkey
      rw [hname] at hkey ⊢
      exact canonicalName_eq_via hkey
  rw [vias, values, List.filter_congr hfilter]

/-- The fields that are read are in their canonical spelling. -/
theorem isCanonical_read (s : Text) : (⟨(Rest.read s).fields⟩ : Headers).IsCanonical := by
  fun_induction Rest.read s with
  | case1 s hs => exact fun f hf => absurd hf List.not_mem_nil
  | case2 s line rest hs line' hempty => exact fun f hf => absurd hf List.not_mem_nil
  | case3 s line rest hs line' hempty hlt tail name value hcut ih =>
    exact List.forall_mem_cons.mpr ⟨⟨name, rfl⟩, ih⟩
  | case4 s line rest hs line' hempty hlt tail hcut ih => exact ih

/-- So are those of a message that is read. -/
theorem isCanonical_parse {s : Text} {m : Message} (hm : Message.parse s = .ok m) :
    m.headers.IsCanonical := by
  unfold Message.parse at hm
  split at hm
  next line rest hstart =>
  split at hm
  · cases hm
  · obtain rfl := Except.ok.inj hm
    exact isCanonical_read rest

end Headers

end FileSharing.Sip
