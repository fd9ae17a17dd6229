import FileSharing.Proofs.Saving
import Mathlib.Algebra.Group.Int.Defs

/-!
# Settings that are loaded

Settings are loaded key by key from the section that holds them.  A key that is not bound
keeps its default; one that is bound to a value of a wrong type, to a negative size or to the
number of no option is refused as invalid data, and with it the whole section.  Every number
that is loaded is the one that was written, with one exception: the largest number of
transfers is kept in 32 bits, and a number that needs more loses its higher bits without an
error.

## Main definitions

* `Outcome.Gives` — what an operation gives where a condition holds, and nowhere else.
* `Config.Node.Allows`, `Config.Node.written` — what stands under a key.
* `Settings.IsLegible` — the sections that can be loaded.
* `Settings.IsAsWritten` — settings that are what a section says.

## Main results

* `Settings.ofNode_gives` — **what is loaded of a section.**
* `Settings.load_isAsWritten_iff` — **a section is loaded exactly if it is legible, and the
  settings are what it says exactly if the number of transfers fits.**
-/

namespace FileSharing

/-! ### Reading under a condition -/

/-- An operation gives `a` if `p` holds, and refuses its data as invalid otherwise. -/
structure Outcome.Gives {α : Type} (o : Outcome α) (a : α) (p : Prop) : Prop where
  ok : p → o = .ok a
  invalid : ¬p → ∃ f, o = .error f ∧ f.code = .invalidData

namespace Outcome.Gives

variable {α β : Type} {o : Outcome α} {k : α → Outcome β} {a : α} {b : β} {p q : Prop}

/-- One reading after another is refused where either of them is. -/
theorem bind (h : o.Gives a p) (hk : (k a).Gives b q) : Gives (o >>= k) b (p ∧ q) where
  ok := by
    rintro ⟨hp, hq⟩
    rw [h.ok hp]
    exact hk.ok hq
  invalid hpq := by
    by_cases hp : p
    · rw [h.ok hp]
      exact hk.invalid fun hq => hpq ⟨hp, hq⟩
    · obtain ⟨f, rfl, hf⟩ := h.invalid hp
      exact ⟨f, rfl, hf⟩

theorem map (h : o.Gives a p) (g : α → β) : Gives (o >>= fun x => pure (g x)) (g a) p where
  ok hp := by
    rw [h.ok hp]
    rfl
  invalid hp := by
    obtain ⟨f, rfl, hf⟩ := h.invalid hp
    exact ⟨f, rfl, hf⟩

theorem of_ok (h : o.Gives a p) {x : α} (hx : o = .ok x) : p ∧ x = a := by
  by_cases hp : p
  · exact ⟨hp, Except.ok.inj (hx.symm.trans (h.ok hp))⟩
  · obtain ⟨f, rfl, -⟩ := h.invalid hp
    cases hx

theorem isOk_iff (h : o.Gives a p) : (∃ x, o = .ok x) ↔ p :=
  ⟨fun ⟨_, hx⟩ => (h.of_ok hx).1, fun hp => ⟨a, h.ok hp⟩⟩

theorem code_of_error (h : o.Gives a p) {f : Failure} (hf : o = .error f) :
    f.code = .invalidData := by
  by_cases hp : p
  · rw [h.ok hp] at hf
    cases hf
  · obtain ⟨f', rfl, hcode⟩ := h.invalid hp
    rwa [← Except.error.inj hf]

end Outcome.Gives

/-! ### What stands under a key -/

namespace Config

/-- The number, if the value is a whole one. -/
def Value.asNumber? (v : Value) : Option Int := v.asInt?.map Int64.toInt

namespace Node

variable {α : Type} {n : Node} {as? : Value → Option α} {P : α → Prop} {key : Text} {fallback : α}

/-- Whether a key is not bound, or is bound to a value that `as?` reads, and `P` holds of what
it reads. -/
def Allows (n : Node) (as? : Value → Option α) (P : α → Prop) (key : Text) : Prop :=
  ∀ v ∈ n.find? key, ∃ a ∈ as? v, P a

/-- What `as?` reads of the value under a key; `fallback` where the key is not bound. -/
def written (n : Node) (as? : Value → Option α) (key : Text) (fallback : α) : α :=
  ((n.find? key).bind as?).getD fallback

/-- A key that is read with a fallback gives what is written, unless that has a wrong type. -/
theorem getOr_gives (n : Node) (as? : Value → Option α) (key : Text) (fallback : α) :
    (n.getOr as? key fallback).Gives (n.written as? key fallback)
      (n.Allows as? (fun _ => True) key) := by
  unfold getOr has get Allows written
  cases n.find? key with
  | none => exact ⟨fun _ => rfl, fun h => absurd (by simp) h⟩
  | some v =>
    cases hv : as? v with
    | none => exact ⟨fun h => absurd h (by simp [hv]), fun _ => ⟨_, by simp [hv]; rfl, rfl⟩⟩
    | some a => exact ⟨fun _ => by simp [hv], fun h => absurd (by simp [hv]) h⟩

/-- A condition that the fallback satisfies is one on what is written. -/
theorem allows_iff (hfallback : P fallback) :
    n.Allows as? P key ↔
      n.Allows as? (fun _ => True) key ∧ P (n.written as? key fallback) := by
  unfold Allows written
  cases n.find? key with
  | none => simp [hfallback]
  | some v =>
    cases hv : as? v with
    | none => simp [hv]
    | some a => simp [hv]

theorem allows_asNumber_iff {P : Int → Prop} :
    n.Allows Value.asNumber? P key ↔ n.Allows Value.asInt? (fun a => P a.toInt) key := by
  simp [Allows, Value.asNumber?]

/-- A number is written the same, however many bits it is read with. -/
theorem written_asNumber (n : Node) (key : Text) (fallback : Int64) :
    n.written Value.asNumber? key fallback.toInt
      = (n.written Value.asInt? key fallback).toInt := by
  unfold written Value.asNumber?
  cases n.find? key with
  | none => rfl
  | some v => cases hv : v.asInt? <;> simp [hv]

end Node

end Config

namespace Settings

open Config

variable {n : Config.Node} {key : Text}

/-! ### Numbers -/

/-- A number that is not negative is the same without its sign. -/
theorem toNat_toUInt64 {number : Int64} (h : 0 ≤ number.toInt) :
    (number.toUInt64.toNat : Int) = number.toInt := by
  have hint : number.toInt = number.toUInt64.toBitVec.toInt := rfl
  have hnat : number.toUInt64.toBitVec.toNat = number.toUInt64.toNat := rfl
  have hlt := number.toUInt64.toNat_lt
  rw [hint, BitVec.toInt_eq_toNat_cond, hnat] at h ⊢
  split at h
  · next hsmall => rw [if_pos hsmall]
  · omega

/-- A size is read as it is written, and refused where it is negative. -/
theorem readSize_gives (n : Config.Node) (key : Text) {fallback : UInt64}
    (h : 0 ≤ fallback.toInt64.toInt) :
    (readSize n key fallback).Gives (n.written Value.asInt? key fallback.toInt64).toUInt64
      (n.Allows Value.asNumber? (0 ≤ ·) key) := by
  have hallows : n.Allows Value.asInt? (fun number => 0 ≤ number.toInt) key ↔ _ :=
    Node.allows_iff h
  rw [Node.allows_asNumber_iff, hallows, readSize]
  refine (n.getOr_gives Value.asInt? key fallback.toInt64).bind ?_
  generalize n.written Value.asInt? key fallback.toInt64 = number
  have hneg : number < 0 ↔ ¬0 ≤ number.toInt := by
    rw [Int64.lt_iff_toInt_lt, Int.not_le]
    rfl
  exact ⟨fun hp => if_neg (by rwa [hneg, not_not]), fun hp => ⟨_, if_pos (hneg.mpr hp), rfl⟩⟩

/-! ### Options -/

/-- The numbers of the options there are. -/
theorem mem_numbers_iff {number : Int64} :
    number.toInt ∈ [0, 1, 2] ↔ number = 0 ∨ number = 1 ∨ number = 2 := by
  have hzero : (0 : Int64).toInt = 0 := rfl
  have hone : (1 : Int64).toInt = 1 := rfl
  have htwo : (2 : Int64).toInt = 2 := rfl
  simp [← Int64.toInt_inj, hzero, hone, htwo]

/-- An option is read from its number, and a number of none is refused. -/
theorem readResize_gives (n : Config.Node) (key : Text) {fallback : ResizeOption}
    (h : fallback.number.toInt ∈ [0, 1, 2]) :
    (readResize n key fallback).Gives
      (.ofCode (n.written Value.asInt? key fallback.number).toInt32)
      (n.Allows Value.asNumber? (· ∈ [0, 1, 2]) key) := by
  have hallows : n.Allows Value.asInt? (fun number => number.toInt ∈ [0, 1, 2]) key ↔ _ :=
    Node.allows_iff h
  rw [Node.allows_asNumber_iff, hallows, readResize]
  refine (n.getOr_gives Value.asInt? key fallback.number).bind ?_
  generalize n.written Value.asInt? key fallback.number = number
  rw [mem_numbers_iff]
  constructor
  · rintro (rfl | rfl | rfl) <;> rfl
  · intro hnone
    obtain ⟨hzero, hone, htwo⟩ := by simpa only [not_or] using hnone
    rw [ResizeOption.ofNumber, if_neg hzero, if_neg hone, if_neg htwo]
    exact ⟨_, rfl, rfl⟩

/-- An option that was read has the number it was read from. -/
theorem number_ofCode {number : Int64} (h : number.toInt ∈ [0, 1, 2]) :
    (ResizeOption.ofCode number.toInt32).IsAssigned ∧
      (ResizeOption.ofCode number.toInt32).number = number := by
  rcases mem_numbers_iff.mp h with rfl | rfl | rfl
  all_goals exact ⟨fun _ h => ResizeOption.noConfusion h, rfl⟩

/-! ### Sections -/

/-- The keys of numbers that may not be negative. -/
def sizeKeys : List Text := ["maxSize", "warnSize", "maxSessions"]

/-- The keys of flags. -/
def flagKeys : List Text :=
  ["autoAcceptModeChangeable", "autoAccept", "autoAcceptInRoaming", "fileIconSupported"]

/-- Whether every key of the settings is not bound, or bound to a value of its type, where no
size is negative and the option is one of the three there are. -/
structure IsLegible (n : Config.Node) : Prop where
  size : ∀ key ∈ sizeKeys, n.Allows Value.asNumber? (0 ≤ ·) key
  flag : ∀ key ∈ flagKeys, n.Allows Value.asBool? (fun _ => True) key
  resize : n.Allows Value.asNumber? (· ∈ [0, 1, 2]) "imageResizeOption"

/-- The largest number of transfers that a section says. -/
def sessionsWritten (n : Config.Node) : Int :=
  n.written Value.asNumber? "maxSessions" default.maxSessions.toNat

/-- Whether settings are what a section says, the largest number of transfers apart. -/
structure IsMostlyAsWritten (n : Config.Node) (s : Settings) : Prop where
  maxSize : (s.maxSize.toNat : Int) = n.written Value.asNumber? "maxSize" default.maxSize.toNat
  warnSize : (s.warnSize.toNat : Int) = n.written Value.asNumber? "warnSize" default.warnSize.toNat
  autoAcceptChangeable : s.autoAcceptChangeable
    = n.written Value.asBool? "autoAcceptModeChangeable" default.autoAcceptChangeable
  autoAccept : s.autoAccept = n.written Value.asBool? "autoAccept" default.autoAccept
  autoAcceptInRoaming : s.autoAcceptInRoaming
    = n.written Value.asBool? "autoAcceptInRoaming" default.autoAcceptInRoaming
  resize : s.resize.IsAssigned ∧ s.resize.number.toInt
    = n.written Value.asNumber? "imageResizeOption" default.resize.number.toInt
  iconSupported : s.iconSupported
    = n.written Value.asBool? "fileIconSupported" default.iconSupported

/-- Whether settings are what a section says. -/
structure IsAsWritten (n : Config.Node) (s : Settings) : Prop extends IsMostlyAsWritten n s where
  maxSessions : (s.maxSessions.toNat : Int) = sessionsWritten n

/-- The settings that are read of a section. -/
def asRead (n : Config.Node) : Settings where
  maxSize := (n.written Value.asInt? "maxSize" default.maxSize.toInt64).toUInt64
  warnSize := (n.written Value.asInt? "warnSize" default.warnSize.toInt64).toUInt64
  maxSessions :=
    (n.written Value.asInt? "maxSessions" default.maxSessions.toUInt64.toInt64).toUInt64.toUInt32
  autoAcceptChangeable :=
    n.written Value.asBool? "autoAcceptModeChangeable" default.autoAcceptChangeable
  autoAccept := n.written Value.asBool? "autoAccept" default.autoAccept
  autoAcceptInRoaming := n.written Value.asBool? "autoAcceptInRoaming" default.autoAcceptInRoaming
  resize := .ofCode (n.written Value.asInt? "imageResizeOption" default.resize.number).toInt32
  iconSupported := n.written Value.asBool? "fileIconSupported" default.iconSupported

theorem isLegible_iff : IsLegible n ↔
    n.Allows Value.asNumber? (0 ≤ ·) "maxSize" ∧ n.Allows Value.asNumber? (0 ≤ ·) "warnSize" ∧
      n.Allows Value.asNumber? (0 ≤ ·) "maxSessions" ∧
      n.Allows Value.asBool? (fun _ => True) "autoAcceptModeChangeable" ∧
      n.Allows Value.asBool? (fun _ => True) "autoAccept" ∧
      n.Allows Value.asBool? (fun _ => True) "autoAcceptInRoaming" ∧
      n.Allows Value.asNumber? (· ∈ [0, 1, 2]) "imageResizeOption" ∧
      n.Allows Value.asBool? (fun _ => True) "fileIconSupported" := by
  have hsize : ∀ P : Text → Prop,
      (∀ key ∈ sizeKeys, P key) ↔ P "maxSize" ∧ P "warnSize" ∧ P "maxSessions" := by
    simp [sizeKeys]
  have hflag : ∀ P : Text → Prop, (∀ key ∈ flagKeys, P key) ↔
      P "autoAcceptModeChangeable" ∧ P "autoAccept" ∧ P "autoAcceptInRoaming" ∧
        P "fileIconSupported" := by
    simp [flagKeys]
  constructor
  · rintro ⟨hs, hf, hr⟩
    obtain ⟨hmax, hwarn, hsessions⟩ := (hsize _).mp hs
    obtain ⟨hchangeable, hauto, hroaming, hicon⟩ := (hflag _).mp hf
    exact ⟨hmax, hwarn, hsessions, hchangeable, hauto, hroaming, hr, hicon⟩
  · rintro ⟨hmax, hwarn, hsessions, hchangeable, hauto, hroaming, hr, hicon⟩
    refine ⟨(hsize _).mpr ⟨hmax, hwarn, hsessions⟩, ?_, hr⟩
    exact (hflag _).mpr ⟨hchangeable, hauto, hroaming, hicon⟩

/-! ### Loading -/

/-- **What is loaded of a section**: what is written there, where all of it is legible. -/
theorem ofNode_gives (n : Config.Node) : (ofNode n).Gives (asRead n) (IsLegible n) := by
  rw [isLegible_iff, ofNode]
  refine (readSize_gives n "maxSize" (by decide)).bind ?_
  refine (readSize_gives n "warnSize" (by decide)).bind ?_
  refine (readSize_gives n "maxSessions" (by decide)).bind ?_
  refine (n.getOr_gives Value.asBool? "autoAcceptModeChangeable" _).bind ?_
  refine (n.getOr_gives Value.asBool? "autoAccept" _).bind ?_
  refine (n.getOr_gives Value.asBool? "autoAcceptInRoaming" _).bind ?_
  refine (readResize_gives n "imageResizeOption" (by decide)).bind ?_
  exact (n.getOr_gives Value.asBool? "fileIconSupported" _).map _

/-- A size that is not negative is read as the number it was written as. -/
theorem size_written (fallback : UInt64) (hfallback : 0 ≤ fallback.toInt64.toInt)
    (h : n.Allows Value.asNumber? (0 ≤ ·) key) :
    ((n.written Value.asInt? key fallback.toInt64).toUInt64.toNat : Int)
      = n.written Value.asNumber? key fallback.toNat := by
  have hsame : (fallback.toNat : Int) = fallback.toInt64.toInt := by
    simpa using toNat_toUInt64 hfallback
  have hnumber := ((Node.allows_iff hfallback).mp h).2
  rw [Node.written_asNumber] at hnumber
  rw [hsame, toNat_toUInt64 hnumber, Node.written_asNumber]

theorem isMostlyAsWritten_asRead (h : IsLegible n) : IsMostlyAsWritten n (asRead n) where
  maxSize := size_written _ (by decide) (isLegible_iff.mp h).1
  warnSize := size_written _ (by decide) (isLegible_iff.mp h).2.1
  autoAcceptChangeable := rfl
  autoAccept := rfl
  autoAcceptInRoaming := rfl
  resize := by
    have hdefault : default.resize.number.toInt ∈ [0, 1, 2] := by decide
    have hnumber := ((Node.allows_iff hdefault).mp h.resize).2
    rw [Node.written_asNumber] at hnumber ⊢
    obtain ⟨hassigned, hsame⟩ := number_ofCode hnumber
    exact ⟨hassigned, congrArg Int64.toInt hsame⟩
  iconSupported := rfl

/-- The largest number of transfers is read without the bits that do not fit. -/
theorem maxSessions_asRead (h : IsLegible n) :
    ((asRead n).maxSessions.toNat : Int) = sessionsWritten n % 2 ^ 32 := by
  have hwritten := size_written default.maxSessions.toUInt64 (by decide)
    (isLegible_iff.mp h).2.2.1
  have hlow : (asRead n).maxSessions.toNat
      = (n.written Value.asInt? "maxSessions"
          default.maxSessions.toUInt64.toInt64).toUInt64.toNat % 2 ^ 32 := UInt64.toNat_toUInt32 _
  rw [hlow, Int.natCast_emod, hwritten]
  rfl

/-- **A section is loaded exactly if all of it is legible**, and is refused as invalid data
otherwise.  What is loaded is what is written there, exactly if the largest number of transfers
fits into its 32 bits; of a larger one the lower bits are left, and all else is as written even
so. -/
theorem load_isAsWritten_iff (c : Config) :
    let n := c.sectionNode sectionKey
    ((∃ s, load c = .ok s) ↔ IsLegible n) ∧
      (∀ f, load c = .error f → f.code = .invalidData) ∧
      ∀ s, load c = .ok s → IsMostlyAsWritten n s ∧
        (s.maxSessions.toNat : Int) = sessionsWritten n % 2 ^ 32 ∧
        (IsAsWritten n s ↔ sessionsWritten n < 2 ^ 32) := by
  intro n
  have hgives : (load c).Gives (asRead n) (IsLegible n) := ofNode_gives n
  refine ⟨hgives.isOk_iff, fun f => hgives.code_of_error, fun s hs => ?_⟩
  obtain ⟨hlegible, rfl⟩ := hgives.of_ok hs
  have hmostly := isMostlyAsWritten_asRead hlegible
  have hsessions := maxSessions_asRead hlegible
  refine ⟨hmostly, hsessions, fun h => ?_, fun hsmall => ⟨hmostly, ?_⟩⟩
  · rw [← h.maxSessions]
    exact_mod_cast (asRead n).maxSessions.toNat_lt
  · have hnonneg : 0 ≤ sessionsWritten n :=
      ((Node.allows_iff (Int.natCast_nonneg _)).mp (isLegible_iff.mp hlegible).2.2.1).2
    rw [hsessions, Int.emod_eq_of_lt hnonneg hsmall]

/-- A configuration that says how many transfers there may be at a time. -/
def withSessions (number : Int64) : Config :=
  ⟨⟨#[⟨[("ft", .node 1)]⟩, ⟨[("maxSessions", .int number)]⟩]⟩, 0⟩

/-- A limit of 2³² transfers is loaded as no limit. -/
theorem not_load_isAsWritten_unlimited :
    let c := withSessions 4294967296
    load c = .ok default ∧ default.maxSessions = 0 ∧
      sessionsWritten (c.sectionNode sectionKey) = 2 ^ 32 ∧
      ¬IsAsWritten (c.sectionNode sectionKey) default := by
  intro c
  have hwritten : sessionsWritten (c.sectionNode sectionKey) = 2 ^ 32 := by decide
  refine ⟨rfl, rfl, hwritten, fun h => ?_⟩
  exact absurd (hwritten ▸ h.maxSessions) (by decide)

end Settings

end FileSharing
