import FileSharing.Proofs.Mistyped

/-!
# What saving leaves alone

Settings are saved in one node, the section.  In a store where nodes are shared, that node may be
held in other places as well, and it may be the root itself or lead back to it.  Whatever the
nodes have to do with each other, saving binds the keys of the settings in the section and
nothing else; only where there is no section, the root is given a new one.

## Main definitions

* `Config.bound` — what a key of a node is bound to, for all nodes of a configuration.
* `Config.LacksSection` — there is no section of a name.
* `Settings.keys`, `Settings.Says` — the keys of the settings, and what each of them says.
* `Settings.IsSavedIn` — what saving must change, and what it may.

## Main results

* `Settings.bound_save` — **every binding of every node after saving.**
* `Settings.save_eq_self` — settings that are there are not saved again.
* `Settings.save_confined` — **saving touches the settings alone, and saving again touches
  nothing.**
-/

namespace FileSharing

namespace Config

variable {c : Config} {name : Text} {r : Ref}

/-- What a key of a node is bound to. -/
def bound (c : Config) (q : Ref) (key : Text) : Option Value := (c.store.node q).find? key

/-- Whether there is no section of this name: nothing, or a value that is no node. -/
def LacksSection (c : Config) (name : Text) : Prop :=
  ∀ v ∈ c.bound c.root name, v.kind ≠ .node

theorem sectionRef?_eq_none_iff : c.sectionRef? name = none ↔ c.LacksSection name := by
  rw [sectionRef?, Option.bind_eq_none_iff]
  refine forall_congr' fun v => imp_congr Iff.rfl ?_
  exact Value.asNode?_eq_none_iff

theorem sectionRef?_eq_some_iff :
    c.sectionRef? name = some r ↔ c.bound c.root name = some (.node r) := by
  rw [sectionRef?, Option.bind_eq_some_iff]
  constructor
  · rintro ⟨v, hv, hr⟩
    rw [← Value.eq_node_of_asNode? hr]
    exact hv
  · intro h
    exact ⟨.node r, h, rfl⟩

end Config

namespace Settings

open Config

variable {s : Settings} {c : Config} {r : Config.Ref}

/-! ### The keys that are written -/

/-- The keys of the settings. -/
def keys : List Text :=
  ["maxSize", "warnSize", "maxSessions", "autoAcceptModeChangeable", "autoAccept",
    "autoAcceptInRoaming", "imageResizeOption", "fileIconSupported"]

/-- What the keys of the settings say, each of them one setting. -/
inductive Says (s : Settings) : Text → Value → Prop where
  /-- A number has 63 bits and a sign, so a size is the number with the same 64 bits. -/
  | maxSize {n : Int64} (h : n.toUInt64 = s.maxSize) : s.Says "maxSize" (.int n)
  | warnSize {n : Int64} (h : n.toUInt64 = s.warnSize) : s.Says "warnSize" (.int n)
  | maxSessions {n : Int64} (h : n.toInt = s.maxSessions.toNat) : s.Says "maxSessions" (.int n)
  | autoAcceptChangeable : s.Says "autoAcceptModeChangeable" (.bool s.autoAcceptChangeable)
  | autoAccept : s.Says "autoAccept" (.bool s.autoAccept)
  | autoAcceptInRoaming : s.Says "autoAcceptInRoaming" (.bool s.autoAcceptInRoaming)
  | resize : s.Says "imageResizeOption" (.int s.resize.number)
  | iconSupported : s.Says "fileIconSupported" (.bool s.iconSupported)

/-- The largest number of transfers is written as itself. -/
theorem toInt_toInt64_toUInt64 (number : UInt32) :
    number.toUInt64.toInt64.toInt = number.toNat := by
  have hint : number.toUInt64.toInt64.toInt = number.toUInt64.toBitVec.toInt := rfl
  have hnat : number.toUInt64.toBitVec.toNat = number.toNat := UInt32.toNat_toUInt64 number
  have hlt := number.toNat_lt
  rw [hint, BitVec.toInt_eq_toNat_of_lt (by omega), hnat]

/-- What is written is what the keys say. -/
theorem mem_bindings_iff {key : Text} {v : Value} : (key, v) ∈ s.bindings ↔ s.Says key v := by
  constructor
  · intro h
    simp only [bindings, List.mem_cons, List.not_mem_nil, or_false, Prod.mk.injEq] at h
    rcases h with ⟨rfl, rfl⟩ | ⟨rfl, rfl⟩ | ⟨rfl, rfl⟩ | ⟨rfl, rfl⟩ | ⟨rfl, rfl⟩ | ⟨rfl, rfl⟩ |
      ⟨rfl, rfl⟩ | ⟨rfl, rfl⟩
    · exact .maxSize rfl
    · exact .warnSize rfl
    · exact .maxSessions (toInt_toInt64_toUInt64 s.maxSessions)
    · exact .autoAcceptChangeable
    · exact .autoAccept
    · exact .autoAcceptInRoaming
    · exact .resize
    · exact .iconSupported
  · intro h
    cases h with
    | maxSize h => simp [bindings, ← h]
    | warnSize h => simp [bindings, ← h]
    | maxSessions h =>
      rw [← toInt_toInt64_toUInt64] at h
      rw [Int64.toInt_inj.mp h]
      simp [bindings]
    | _ => simp [bindings]

theorem map_fst_bindings (s : Settings) : s.bindings.map Prod.fst = keys := rfl

/-- There are no other keys that say something. -/
theorem mem_keys_iff {key : Text} : key ∈ keys ↔ ∃ v, s.Says key v := by
  rw [← map_fst_bindings s, List.mem_map]
  constructor
  · rintro ⟨⟨_, v⟩, hb, rfl⟩
    exact ⟨v, mem_bindings_iff.mp hb⟩
  · rintro ⟨v, hv⟩
    exact ⟨(key, v), mem_bindings_iff.mpr hv, rfl⟩

theorem lookup_bindings_of_mem {b : Text × Value} (h : b ∈ s.bindings) :
    s.bindings.lookup b.1 = some b.2 := by
  simp only [bindings, List.mem_cons, List.not_mem_nil, or_false] at h
  rcases h with rfl | rfl | rfl | rfl | rfl | rfl | rfl | rfl
  all_goals rfl

theorem lookup_bindings_eq_some_iff {key : Text} {v : Value} :
    s.bindings.lookup key = some v ↔ s.Says key v := by
  rw [← mem_bindings_iff]
  constructor
  · intro h
    obtain ⟨l, l', hl, -⟩ := List.lookup_eq_some_iff.mp h
    rw [hl]
    simp
  · intro h
    exact lookup_bindings_of_mem h

theorem lookup_bindings_of_notMem {key : Text} (h : key ∉ keys) :
    s.bindings.lookup key = none := by
  refine Option.eq_none_iff_forall_ne_some.mpr fun v hv => ?_
  exact h (mem_keys_iff.mpr ⟨v, lookup_bindings_eq_some_iff.mp hv⟩)

/-- The section is not bound under a key of the settings. -/
theorem sectionKey_notMem_keys : sectionKey ∉ keys := by decide

/-! ### Every binding after saving -/

/-- The node in which settings are saved: the section, or the next new node. -/
def savedRef (c : Config) : Config.Ref := (c.sectionRef? sectionKey).getD c.store.nodes.size

theorem fst_getOrCreate (c : Config) : (c.store.getOrCreate c.root sectionKey).1 = savedRef c := by
  rw [savedRef]
  cases hsection : c.sectionRef? sectionKey with
  | some r => rw [Store.getOrCreate_of_some hsection, Option.getD_some]
  | none => rw [Store.getOrCreate_of_none hsection, Option.getD_none]

theorem save_eq (s : Settings) (c : Config) : s.save c
    = ⟨(c.store.getOrCreate c.root sectionKey).2.update (savedRef c) s.writeTo, c.root⟩ := by
  rw [← fst_getOrCreate]
  rfl

/-- **Every binding of every node after saving**: the settings in the section, the section in the
root where there was none, and all others as before. -/
theorem bound_save (h : c.IsClosed) (s : Settings) (q : Config.Ref) (key : Text) :
    (s.save c).bound q key
      = if q = savedRef c ∧ key ∈ keys then s.bindings.lookup key
        else if c.sectionRef? sectionKey = none ∧ q = c.root ∧ key = sectionKey
          then some (.node (savedRef c))
          else c.bound q key := by
  have hcreated : ((c.store.getOrCreate c.root sectionKey).2.node q).find? key
      = if c.sectionRef? sectionKey = none ∧ q = c.root ∧ key = sectionKey
        then some (.node (savedRef c)) else c.bound q key := by
    rw [← fst_getOrCreate]
    exact Store.find?_node_getOrCreate h.root sectionKey q key
  have hsize := (Store.getOrCreate_spec h.store h.root sectionKey).lt_size
  rw [fst_getOrCreate] at hsize
  rw [← hcreated, save_eq, bound]
  dsimp only
  by_cases hq : q = savedRef c
  · rw [hq, Store.node_update_self hsize, find?_writeTo]
    by_cases hkey : key ∈ keys
    · obtain ⟨v, hv⟩ := mem_keys_iff.mp hkey
      rw [if_pos ⟨rfl, hkey⟩, lookup_bindings_eq_some_iff.mpr hv, Option.some_or]
    · rw [if_neg fun hboth => hkey hboth.2, lookup_bindings_of_notMem hkey, Option.none_or]
  · rw [Store.node_update_of_ne hq, if_neg fun hboth => hq hboth.1]

theorem bound_save_section (h : c.IsClosed) (s : Settings) :
    (s.save c).bound c.root sectionKey = some (.node (savedRef c)) := by
  rw [bound_save h, if_neg fun hboth => sectionKey_notMem_keys hboth.2]
  cases hsection : c.sectionRef? sectionKey with
  | none => simp
  | some r =>
    have hsaved : savedRef c = r := by rw [savedRef, hsection, Option.getD_some]
    rw [if_neg fun hboth => absurd hboth.1 (by simp), hsaved]
    exact sectionRef?_eq_some_iff.mp hsection

/-- Settings that are there are not saved again. -/
theorem save_eq_self (hsection : c.bound c.root sectionKey = some (.node r))
    (hwritten : ∀ key v, s.Says key v → c.bound r key = some v) : s.save c = c := by
  have hget : c.store.getOrCreate c.root sectionKey = (r, c.store) :=
    Store.getOrCreate_of_some (sectionRef?_eq_some_iff.mpr hsection)
  have hsame : s.writeTo (c.store.node r) = c.store.node r :=
    Config.Node.foldl_set_eq_self fun b hb => hwritten b.1 b.2 (mem_bindings_iff.mp hb)
  rw [save, hget]
  dsimp only
  rw [Store.update_eq_self hsame]

/-! ### What saving touches -/

/-- Whether a configuration `c'` is another one, `c`, in which settings are saved in the node `r`,
and nothing else is touched. -/
structure IsSavedIn (s : Settings) (c : Config) (r : Config.Ref) (c' : Config) : Prop where
  /-- The root is the same. -/
  root : c'.root = c.root
  /-- It holds the section. -/
  holds : c'.bound c.root sectionKey = some (.node r)
  /-- The section has the settings. -/
  written : ∀ key v, s.Says key v → c'.bound r key = some v
  /-- No key of any node is bound otherwise than before, but the keys of the settings in the
  section, and the key of the section where there was none. -/
  touched : ∀ q key, c'.bound q key ≠ c.bound q key →
    q = r ∧ key ∈ keys ∨ c.LacksSection sectionKey ∧ q = c.root ∧ key = sectionKey
  /-- A section that was there is the section still, and there are no new nodes. -/
  kept : ¬c.LacksSection sectionKey →
    c.bound c.root sectionKey = some (.node r) ∧ c'.store.nodes.size = c.store.nodes.size
  /-- Where there was none, the section is the one new node, and has the settings only. -/
  created : c.LacksSection sectionKey →
    r = c.store.nodes.size ∧ c'.store.nodes.size = c.store.nodes.size + 1 ∧
      ∀ key v, c'.bound r key = some v ↔ s.Says key v

theorem size_save (s : Settings) (c : Config) : (s.save c).store.nodes.size
    = c.store.nodes.size + if c.sectionRef? sectionKey = none then 1 else 0 := by
  rw [save_eq, Store.size_update]
  cases hsection : c.sectionRef? sectionKey with
  | some r =>
    rw [Store.getOrCreate_of_some hsection]
    rfl
  | none => rw [Store.getOrCreate_of_none hsection, Store.size_update, Store.size_insert, if_pos rfl]

theorem isSavedIn_save (h : c.IsClosed) (s : Settings) : s.IsSavedIn c (savedRef c) (s.save c) where
  root := rfl
  holds := bound_save_section h s
  written := by
    intro key v hv
    rw [bound_save h, if_pos ⟨rfl, mem_keys_iff.mpr ⟨v, hv⟩⟩]
    exact lookup_bindings_eq_some_iff.mpr hv
  touched := by
    intro q key hne
    rw [bound_save h] at hne
    split at hne
    · next hsetting => exact .inl hsetting
    · split at hne
      · next hnew => exact .inr ⟨sectionRef?_eq_none_iff.mp hnew.1, hnew.2⟩
      · exact absurd rfl hne
  kept := by
    intro hsection
    rw [← sectionRef?_eq_none_iff] at hsection
    obtain ⟨r, hr⟩ := Option.ne_none_iff_exists'.mp hsection
    rw [size_save, savedRef, hr, if_neg (by simp)]
    exact ⟨sectionRef?_eq_some_iff.mp hr, rfl⟩
  created := by
    intro hlacks
    have hnone : c.sectionRef? sectionKey = none := sectionRef?_eq_none_iff.mpr hlacks
    have hnew : savedRef c = c.store.nodes.size := by rw [savedRef, hnone, Option.getD_none]
    refine ⟨hnew, by rw [size_save, if_pos hnone], fun key v => ?_⟩
    rw [bound_save h, ← lookup_bindings_eq_some_iff]
    by_cases hkey : key ∈ keys
    · rw [if_pos ⟨rfl, hkey⟩]
    · -- a node that is not there yet binds nothing, and it is not the root
      have hroot : savedRef c ≠ c.root := hnew ▸ (Nat.ne_of_gt h.root)
      have hempty : c.bound (savedRef c) key = none := by
        rw [hnew, bound, Store.node_of_size_le (Nat.le_refl _)]
        rfl
      rw [if_neg fun hboth => hkey hboth.2, if_neg fun hboth => hroot hboth.2.1, hempty,
        lookup_bindings_of_notMem hkey]

/-- **Saving touches the settings alone, and saving again touches nothing**, whichever nodes are
held in several places, or in themselves. -/
theorem save_confined (h : c.IsClosed) (s : Settings) :
    (∃ r, s.IsSavedIn c r (s.save c)) ∧ s.save (s.save c) = s.save c := by
  have hsaved := isSavedIn_save h s
  refine ⟨⟨savedRef c, hsaved⟩, ?_⟩
  refine save_eq_self (r := savedRef c) ?_ hsaved.written
  rw [hsaved.root]
  exact hsaved.holds

/-- A section that the root holds twice, and that holds the root and itself. -/
def entangled : Config :=
  ⟨⟨#[⟨[("ft", .node 1), ("copy", .node 1)]⟩,
    ⟨[("ft", .node 0), ("own", .node 1), ("maxSize", .text "large")]⟩]⟩, 0⟩

theorem save_confined_entangled :
    entangled.IsClosed ∧ (∃ r, generous.IsSavedIn entangled r (generous.save entangled)) ∧
      generous.save (generous.save entangled) = generous.save entangled ∧
      (generous.save entangled).bound 1 sectionKey = some (.node 0) ∧
      (generous.save entangled).bound 1 "maxSize" = some (.int 9223372036854775807) := by
  have hclosed : entangled.IsClosed :=
    ⟨by decide, Config.Store.isClosed_of_mem (by decide)⟩
  obtain ⟨hsaved, hagain⟩ := save_confined hclosed generous
  exact ⟨hclosed, hsaved, hagain, rfl, rfl⟩

end Settings

end FileSharing
