import FileSharing.Proofs.Loading

/-!
# Values of a wrong type

The service reads two sections of the configuration, and of each of them a few keys, all of known
types.  A key that is bound to a value of another type is refused as invalid data.  The section
itself is not: where a value of another type stands in its place, it reads as an empty one, so
that defaults take the place of all that it was meant to say.

## Main definitions

* `Config.Node.IsTyped` — every key of a list is not bound, or is bound to a value of its type.
* `Config.IsTyped` — the same of a section, which is a node itself if it is there at all.
* `Settings.types`, `Settings.levelTypes` — the keys that are read, with their types.

## Main results

* `ofNode_congr` — no other keys are read.
* `Config.IsTyped.refused_iff` — an operation that refuses wrong types in a section refuses them
  exactly if the section is one.
* `untyped_refused_iff` — **a wrong type is refused exactly if it is not that of the section
  itself**, and what is no section is read as all the defaults.
-/

namespace FileSharing

/-- Whether an operation refuses its data as invalid. -/
def Outcome.IsInvalid {α : Type} (o : Outcome α) : Prop := ∃ f, o = .error f ∧ f.code = .invalidData

namespace Config

/-! ### Types -/

theorem Value.kind_of_asInt? {v : Value} {number : Int64} (h : v.asInt? = some number) :
    v.kind = .int := by
  cases v <;> first | rfl | cases h

theorem Value.kind_of_asNumber? {v : Value} {number : Int} (h : v.asNumber? = some number) :
    v.kind = .int := by
  obtain ⟨_, hint, -⟩ := Option.map_eq_some_iff.mp h
  exact kind_of_asInt? hint

theorem Value.kind_of_asBool? {v : Value} {b : Bool} (h : v.asBool? = some b) :
    v.kind = .bool := by
  cases v <;> first | rfl | cases h

theorem Value.kind_of_asText? {v : Value} {s : Text} (h : v.asText? = some s) :
    v.kind = .text := by
  cases v <;> first | rfl | cases h

theorem Value.asNode?_eq_none_iff {v : Value} : v.asNode? = none ↔ v.kind ≠ .node := by
  cases v <;> simp [asNode?, kind]

namespace Node

variable {α : Type} {n n' : Node} {as? : Value → Option α} {P : α → Prop} {key : Text} {k : Kind}

/-- Whether every key is not bound, or is bound to a value of its type. -/
def IsTyped (n : Node) (types : List (Text × Kind)) : Prop :=
  ∀ e ∈ types, ∀ v ∈ n.find? e.1, v.kind = e.2

/-- What is read as a value of one type has that type. -/
theorem Allows.kind_eq (h : n.Allows as? P key) (hkind : ∀ v a, as? v = some a → v.kind = k) :
    ∀ v ∈ n.find? key, v.kind = k := by
  intro v hv
  obtain ⟨a, ha, -⟩ := h v hv
  exact hkind v a ha

theorem getOr_congr (h : n.find? key = n'.find? key) (as? : Value → Option α) (fallback : α) :
    n.getOr as? key fallback = n'.getOr as? key fallback := by
  rw [getOr, getOr, has, has, get, get, h]

end Node

/-! ### Sections -/

variable {c : Config} {name : Text} {types : List (Text × Kind)}

/-- Whether there is a section of this name or nothing, but no other value. -/
def IsSection (c : Config) (name : Text) : Prop := ∀ v ∈ c.rootNode.find? name, v.kind = .node

/-- Whether every value of a section has the type that is asked for, the section included. -/
structure IsTyped (c : Config) (name : Text) (types : List (Text × Kind)) : Prop where
  isSection : c.IsSection name
  typed : (c.sectionNode name).IsTyped types

/-- What is no section reads as an empty one. -/
theorem sectionNode_of_not_isSection (h : ¬c.IsSection name) : c.sectionNode name = .empty := by
  obtain ⟨v, hv, hkind⟩ : ∃ v ∈ c.rootNode.find? name, v.kind ≠ .node := by
    simpa [IsSection] using h
  have hnone : c.sectionRef? name = none := by
    rw [sectionRef?, Option.mem_def.mp hv]
    exact Value.asNode?_eq_none_iff.mpr hkind
  rw [sectionNode, hnone]

/-- **An operation that refuses wrong types in a section** refuses them where the section is one,
and only there if it can do without. -/
theorem IsTyped.refused_iff {α : Type} {read : Node → Outcome α} {a : α}
    (hempty : read .empty = .ok a) (hread : ∀ n : Node, ¬n.IsTyped types → (read n).IsInvalid) :
    (¬c.IsTyped name types → (read (c.sectionNode name)).IsInvalid) ↔ c.IsSection name := by
  constructor
  · intro hinvalid
    by_contra hsection
    -- nothing is read of what is no section, and so nothing can be refused
    obtain ⟨f, hf, -⟩ := hinvalid fun h => hsection h.isSection
    rw [sectionNode_of_not_isSection hsection, hempty] at hf
    cases hf
  · intro hsection huntyped
    exact hread _ fun htyped => huntyped ⟨hsection, htyped⟩

end Config

namespace Settings

open Config

variable {n n' : Config.Node} {key : Text}

/-! ### The keys that are read -/

/-- The keys of the settings, with the types of their values. -/
def types : List (Text × Kind) :=
  ("imageResizeOption", .int) :: (sizeKeys.map (·, .int) ++ flagKeys.map (·, .bool))

/-- The keys of the log level. -/
def levelTypes : List (Text × Kind) := [("level", .text)]

theorem readSize_congr (h : n.find? key = n'.find? key) (fallback : UInt64) :
    readSize n key fallback = readSize n' key fallback := by
  rw [readSize, readSize, Node.getOr_congr h]

theorem readResize_congr (h : n.find? key = n'.find? key) (fallback : ResizeOption) :
    readResize n key fallback = readResize n' key fallback := by
  rw [readResize, readResize, Node.getOr_congr h]

/-- No other keys are read. -/
theorem ofNode_congr (h : ∀ e ∈ types, n.find? e.1 = n'.find? e.1) : ofNode n = ofNode n' := by
  rw [ofNode, ofNode, readSize_congr (h ("maxSize", .int) (by decide)),
    readSize_congr (h ("warnSize", .int) (by decide)),
    readSize_congr (h ("maxSessions", .int) (by decide)),
    Node.getOr_congr (h ("autoAcceptModeChangeable", .bool) (by decide)),
    Node.getOr_congr (h ("autoAccept", .bool) (by decide)),
    Node.getOr_congr (h ("autoAcceptInRoaming", .bool) (by decide)),
    readResize_congr (h ("imageResizeOption", .int) (by decide)),
    Node.getOr_congr (h ("fileIconSupported", .bool) (by decide))]

/-! ### Reading -/

theorem IsLegible.isTyped (h : IsLegible n) : n.IsTyped types := by
  intro e he
  rcases List.mem_cons.mp he with rfl | he
  · exact h.resize.kind_eq fun _ _ => Value.kind_of_asNumber?
  rcases List.mem_append.mp he with hsize | hflag
  · obtain ⟨key, hkey, rfl⟩ := List.mem_map.mp hsize
    exact (h.size key hkey).kind_eq fun _ _ => Value.kind_of_asNumber?
  · obtain ⟨key, hkey, rfl⟩ := List.mem_map.mp hflag
    exact (h.flag key hkey).kind_eq fun _ _ => Value.kind_of_asBool?

/-- A section with a wrong type is refused. -/
theorem ofNode_isInvalid (h : ¬n.IsTyped types) : (ofNode n).IsInvalid :=
  (ofNode_gives n).invalid fun hlegible => h hlegible.isTyped

/-- The log level that the bindings of a section give. -/
def levelOfNode (n : Config.Node) : Outcome Level := do
  let name ← n.getOr Value.asText? "level" "info"
  return Level.ofName name

theorem levelOfNode_isInvalid (h : ¬n.IsTyped levelTypes) : (levelOfNode n).IsInvalid := by
  refine ((n.getOr_gives Value.asText? "level" "info").map Level.ofName).invalid fun htext => h ?_
  intro e he
  obtain rfl := List.mem_singleton.mp he
  exact htext.kind_eq fun _ _ => Value.kind_of_asText?

/-- **A wrong type is refused as invalid data exactly if it is not the type of the section
itself.**  What stands in the place of a section is taken for an empty one, and everything is read
as its default. -/
theorem untyped_refused_iff (c : Config) :
    ((¬c.IsTyped sectionKey types → (load c).IsInvalid) ↔ c.IsSection sectionKey) ∧
      ((¬c.IsTyped logSectionKey levelTypes → (loadLevel c).IsInvalid) ↔
        c.IsSection logSectionKey) ∧
      (¬c.IsSection sectionKey → load c = .ok default) ∧
      (¬c.IsSection logSectionKey → loadLevel c = .ok .info) := by
  have hload : load c = ofNode (c.sectionNode sectionKey) := rfl
  have hlevel : loadLevel c = levelOfNode (c.sectionNode logSectionKey) := rfl
  have hempty : ofNode .empty = .ok default := rfl
  have hlevelEmpty : levelOfNode .empty = .ok .info := rfl
  rw [hload, hlevel]
  refine ⟨IsTyped.refused_iff hempty fun _ => ofNode_isInvalid,
    IsTyped.refused_iff hlevelEmpty fun _ => levelOfNode_isInvalid, fun h => ?_, fun h => ?_⟩
  · rw [sectionNode_of_not_isSection h, hempty]
  · rw [sectionNode_of_not_isSection h, hlevelEmpty]

/-- A configuration with other values in place of its two sections. -/
def misplaced : Config := ⟨⟨#[⟨[("ft", .int 1), ("log", .text "debug")]⟩]⟩, 0⟩

/-- A number and a text in place of the sections are not noticed. -/
theorem not_untyped_refused_misplaced :
    (¬misplaced.IsTyped sectionKey types ∧ load misplaced = .ok default) ∧
      ¬misplaced.IsTyped logSectionKey levelTypes ∧ loadLevel misplaced = .ok .info := by
  refine ⟨⟨fun h => ?_, rfl⟩, fun h => ?_, rfl⟩
  · exact absurd (h.isSection (.int 1) rfl) (by decide)
  · exact absurd (h.isSection (.text "debug") rfl) (by decide)

end Settings

end FileSharing
