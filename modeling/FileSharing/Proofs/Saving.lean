import FileSharing.Proofs.Bindings
import FileSharing.Settings
import Mathlib.Algebra.Group.Nat.Defs

/-!
# Settings that are saved

Settings are saved key by key in the section that holds them, whatever the section was before,
and loaded from there.  A size is kept as a signed number, so one with its highest bit set is
kept as a negative number, and such a number is refused when it is read.  All other settings
come back as they were.

## Main definitions

* `ResizeOption.IsAssigned` — the options that have a number of their own.
* `Settings.reload` — what is read of settings that were saved.

## Main results

* `Settings.sectionNode_save` — the section after saving.
* `Settings.load_save` — **what is loaded after saving.**
-/

namespace FileSharing

/-- Whether an option is one of the three there are. -/
def ResizeOption.IsAssigned (o : ResizeOption) : Prop := ∀ code, o ≠ .unassigned code

/-- The options there are come back from their numbers. -/
theorem ResizeOption.ofNumber_number {o : ResizeOption} (h : o.IsAssigned) :
    ofNumber o.number = .ok o := by
  cases o with
  | unassigned code => exact absurd rfl (h code)
  | _ => rfl

namespace Settings

variable {s : Settings} {c : Config} {n : Config.Node} {key : Text}

/-! ### Numbers -/

/-- A size reads as a negative number where its highest bit is set. -/
theorem toInt64_neg_iff (size : UInt64) : size.toInt64 < 0 ↔ 2 ^ 63 ≤ size.toNat := by
  have hint : size.toInt64.toInt = size.toBitVec.toInt := rfl
  have hnat : size.toBitVec.toNat = size.toNat := rfl
  have hlt := size.toNat_lt
  have hzero : (0 : Int64).toInt = 0 := rfl
  rw [Int64.lt_iff_toInt_lt, hint, hzero, BitVec.toInt_eq_toNat_cond, hnat]
  split
  · omega
  · omega

/-- The largest number of transfers is too small for that. -/
theorem not_toInt64_neg (number : UInt32) : ¬number.toUInt64.toInt64 < 0 := by
  rw [toInt64_neg_iff, UInt32.toNat_toUInt64]
  have := number.toNat_lt
  omega

/-! ### The section -/

/-- What is found of settings that were written. -/
theorem find?_writeTo (s : Settings) (n : Config.Node) (key : Text) :
    (s.writeTo n).find? key = (s.bindings.lookup key).or (n.find? key) := by
  have hkeys : (s.bindings.map Prod.fst).Nodup := by
    have hall : ∀ s : Settings, s.bindings.map Prod.fst = default.bindings.map Prod.fst :=
      fun _ => rfl
    rw [hall s]
    decide
  exact Config.Node.find?_foldl_set hkeys n key

/-- No setting is a node. -/
theorem asNode?_of_mem_bindings {b : Text × Config.Value} (h : b ∈ s.bindings) :
    b.2.asNode? = none := by
  simp only [bindings, List.mem_cons, List.not_mem_nil, or_false] at h
  rcases h with rfl | rfl | rfl | rfl | rfl | rfl | rfl | rfl
  all_goals rfl

/-- The section is not bound in itself by its own settings. -/
theorem find?_sectionKey_writeTo (s : Settings) (n : Config.Node) :
    (s.writeTo n).find? sectionKey = n.find? sectionKey := by
  have hother : s.bindings.lookup sectionKey = none := rfl
  rw [find?_writeTo, hother, Option.none_or]

/-- A node has the settings bound, and its other keys as before. -/
theorem find?_eq_node_of_writeTo {child : Config.Ref}
    (h : (s.writeTo n).find? key = some (.node child)) : n.find? key = some (.node child) := by
  rw [find?_writeTo] at h
  cases hsetting : s.bindings.lookup key with
  | none => rwa [hsetting, Option.none_or] at h
  | some value =>
    obtain ⟨l, l', hl, -⟩ := List.lookup_eq_some_iff.mp hsetting
    have hmem : (key, value) ∈ s.bindings := by simp [hl]
    obtain rfl : value = .node child := by simpa [hsetting] using h
    exact absurd (asNode?_of_mem_bindings hmem) (by simp [Config.Value.asNode?])

/-- Saving leaves no node out that is named somewhere. -/
theorem isClosed_save (h : c.IsClosed) (s : Settings) : (s.save c).IsClosed := by
  have hcreates := Config.Store.getOrCreate_spec h.store h.root sectionKey
  refine ⟨?_, hcreates.closed.update fun key child hfind => ?_⟩
  · exact Nat.lt_of_lt_of_le h.root (by simpa [save] using hcreates.size)
  · exact hcreates.closed _ key child (find?_eq_node_of_writeTo hfind)

/-- **The section after saving** is the one before with the settings written to it; one that was
missing, or was no node, is new. -/
theorem sectionNode_save (h : c.IsClosed) (s : Settings) :
    (s.save c).sectionNode sectionKey = s.writeTo (c.sectionNode sectionKey) := by
  have hcreates := Config.Store.getOrCreate_spec h.store h.root sectionKey
  have hbefore : c.sectionNode sectionKey
      = ((c.sectionRef? sectionKey).map c.store.node).getD .empty := by
    unfold Config.sectionNode
    cases c.sectionRef? sectionKey with
    | none => rfl
    | some r => rfl
  obtain ⟨⟨r, store⟩, hget⟩ : ∃ p, c.store.getOrCreate c.root sectionKey = p := ⟨_, rfl⟩
  rw [hget] at hcreates
  have hsave : s.save c = { c with store := store.update r s.writeTo } := by
    rw [save, hget]
  -- the section may be the root itself, and even then the root's section is where it was
  have hfound : ((store.update r s.writeTo).node c.root).find? sectionKey = some (.node r) := by
    by_cases hroot : c.root = r
    · rw [hroot, Config.Store.node_update_self hcreates.lt_size, find?_sectionKey_writeTo, ← hroot,
        hcreates.found, hroot]
    · rw [Config.Store.node_update_of_ne hroot, hcreates.found]
  have hafter : (s.save c).sectionRef? sectionKey = some r := by
    rw [hsave, Config.sectionRef?, Config.rootNode, hfound]
    rfl
  rw [hbefore, Config.sectionNode, hafter, hsave]
  dsimp only
  rw [Config.Store.node_update_self hcreates.lt_size, hcreates.bindings]
  rfl

/-! ### Reading -/

/-- What is read of a size that was written under a key. -/
theorem readSize_writeTo (size : UInt64) {fallback : UInt64}
    (h : s.bindings.lookup key = some (.int size.toInt64)) :
    readSize (s.writeTo n) key fallback
      = if 2 ^ 63 ≤ size.toNat then .error ⟨.invalidData, "Negative value for " ++ key⟩
        else .ok size := by
  have hfind : (s.writeTo n).find? key = some (.int size.toInt64) := by
    rw [find?_writeTo, h, Option.some_or]
  have hasInt : Config.Value.asInt? (.int size.toInt64) = some size.toInt64 := rfl
  rw [readSize, Config.Node.getOr_of_find? hfind hasInt]
  simp only [← toInt64_neg_iff, bind, Except.bind, UInt64.toUInt64_toInt64]

/-- What is read of a flag that was written under a key. -/
theorem getOr_writeTo {b fallback : Bool} (h : s.bindings.lookup key = some (.bool b)) :
    (s.writeTo n).getOr Config.Value.asBool? key fallback = .ok b := by
  have hfind : (s.writeTo n).find? key = some (.bool b) := by
    rw [find?_writeTo, h, Option.some_or]
  exact Config.Node.getOr_of_find? hfind rfl

/-- What is read of an option that was written. -/
theorem readResize_writeTo {fallback : ResizeOption} (h : s.resize.IsAssigned) :
    readResize (s.writeTo n) "imageResizeOption" fallback = .ok s.resize := by
  have hfind : (s.writeTo n).find? "imageResizeOption" = some (.int s.resize.number) := by
    rw [find?_writeTo]
    rfl
  have hasInt : Config.Value.asInt? (.int s.resize.number) = some s.resize.number := rfl
  rw [readResize, Config.Node.getOr_of_find? hfind hasInt]
  simp only [bind, Except.bind, ResizeOption.ofNumber_number h]

/-- What is read of settings that were saved: a size with its highest bit set is refused, the
largest size first. -/
def reload (s : Settings) : Outcome Settings :=
  if 2 ^ 63 ≤ s.maxSize.toNat then .error ⟨.invalidData, "Negative value for maxSize"⟩
  else if 2 ^ 63 ≤ s.warnSize.toNat then .error ⟨.invalidData, "Negative value for warnSize"⟩
  else .ok s

theorem ofNode_writeTo (h : s.resize.IsAssigned) (n : Config.Node) :
    ofNode (s.writeTo n) = s.reload := by
  have hsessions : ¬2 ^ 63 ≤ s.maxSessions.toUInt64.toNat := by
    rw [← toInt64_neg_iff]
    exact not_toInt64_neg s.maxSessions
  unfold ofNode reload
  rw [readSize_writeTo s.maxSize rfl]
  by_cases hmax : 2 ^ 63 ≤ s.maxSize.toNat
  · rw [if_pos hmax, if_pos hmax]
    rfl
  rw [if_neg hmax, if_neg hmax, readSize_writeTo s.warnSize rfl]
  by_cases hwarn : 2 ^ 63 ≤ s.warnSize.toNat
  · rw [if_pos hwarn, if_pos hwarn]
    rfl
  rw [if_neg hwarn, if_neg hwarn, readSize_writeTo s.maxSessions.toUInt64 rfl,
    if_neg hsessions, getOr_writeTo (b := s.autoAcceptChangeable) rfl,
    getOr_writeTo (b := s.autoAccept) rfl, getOr_writeTo (b := s.autoAcceptInRoaming) rfl,
    readResize_writeTo h, getOr_writeTo (b := s.iconSupported) rfl]
  simp [bind, Except.bind, pure, Except.pure]

/-- What is loaded after saving is read of the settings alone, whatever was in the configuration
before. -/
theorem load_save (h : c.IsClosed) (hs : s.resize.IsAssigned) :
    load (s.save c) = s.reload := by
  rw [load, sectionNode_save h, ofNode_writeTo hs]

/-- **What is loaded after saving**: the settings as they were, in every configuration, exactly if
no size has its highest bit set; otherwise loading fails, for the first of the sizes that has. -/
theorem load_save_iff (h : c.IsClosed) (hs : s.resize.IsAssigned) :
    load (s.save c) = s.reload ∧ (s.save c).IsClosed ∧
      (load (s.save c) = .ok s ↔ s.maxSize.toNat < 2 ^ 63 ∧ s.warnSize.toNat < 2 ^ 63) := by
  refine ⟨load_save h hs, isClosed_save h s, ?_⟩
  rw [load_save h hs, reload]
  by_cases hmax : 2 ^ 63 ≤ s.maxSize.toNat
  · rw [if_pos hmax]
    exact iff_of_false nofun fun hsmall => Nat.not_lt.mpr hmax hsmall.1
  rw [if_neg hmax]
  by_cases hwarn : 2 ^ 63 ≤ s.warnSize.toNat
  · rw [if_pos hwarn]
    exact iff_of_false nofun fun hsmall => Nat.not_lt.mpr hwarn hsmall.2
  · rw [if_neg hwarn]
    exact iff_of_true rfl ⟨Nat.not_le.mp hmax, Nat.not_le.mp hwarn⟩

/-- A root that is its own section, with a setting of a wrong type. -/
def ownSection : Config :=
  ⟨⟨#[⟨[("ft", .node 0), ("maxSize", .text "large"), ("log", .null)]⟩]⟩, 0⟩

/-- Settings with the largest numbers that can be kept. -/
def generous : Settings :=
  { default with maxSize := 9223372036854775807, maxSessions := 4294967295, resize := .ask }

theorem load_save_iff_ownSection :
    ownSection.IsClosed ∧ generous.resize.IsAssigned ∧
      load (generous.save ownSection) = .ok generous := by
  have hclosed : ownSection.IsClosed :=
    ⟨by decide, Config.Store.isClosed_of_mem (by decide)⟩
  have hassigned : generous.resize.IsAssigned := fun code h => by cases h
  have hfits : generous.maxSize.toNat < 2 ^ 63 ∧ generous.warnSize.toNat < 2 ^ 63 := by decide
  exact ⟨hclosed, hassigned, (load_save_iff hclosed hassigned).2.2.mpr hfits⟩

/-- A size with its highest bit set is lost, and with it all settings. -/
theorem not_load_save_highestBit :
    Config.fresh.IsClosed ∧ default.resize.IsAssigned ∧
      load (({ default with maxSize := 9223372036854775808 } : Settings).save .fresh)
        = .error ⟨.invalidData, "Negative value for maxSize"⟩ :=
  ⟨Config.isClosed_fresh, fun _ h => ResizeOption.noConfusion h, rfl⟩

end Settings

end FileSharing
