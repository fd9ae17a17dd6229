import FileSharing.Config
import Mathlib.Data.List.Nodup

/-!
# Bindings in a store

What a key is bound to is all that is ever read of a node, so a change of a node is said by
what becomes of each key.  A store may hold nodes that are bound in several places, or in
themselves; all that matters of it is that every node that is named somewhere is there.

## Main definitions

* `Store.IsClosed`, `Config.IsClosed` — every node that is named somewhere is there.

## Main results

* `Node.find?_set`, `Node.find?_foldl_set` — **what becomes of each key when keys are bound.**
* `Store.getOrCreate_spec` — the node that a key is bound to is there afterwards,
  `Store.find?_node_getOrCreate` — **and nothing else has changed.**
-/

namespace FileSharing.Config

variable {key key' : Text} {value : Value} {r q : Ref}

/-! ### Nodes -/

theorem Value.eq_node_of_asNode? (h : value.asNode? = some r) : value = .node r := by
  cases value with
  | node _ => exact congrArg Value.node (Option.some.inj h)
  | _ => exact absurd h (by simp [Value.asNode?])

namespace Node

variable {n : Node} {α : Type}

@[simp] theorem find?_empty (key : Text) : empty.find? key = none := rfl

theorem lookup_bind (key : Text) (value : Value) (bs : List (Text × Value)) (key' : Text) :
    (bind key value bs).lookup key' = if key' = key then some value else bs.lookup key' := by
  induction bs with
  | nil =>
    by_cases h : key' = key
    · simp [bind, h]
    · have hfalse : (key' == key) = false := by simpa using h
      simp [bind, h, List.lookup_cons, hfalse]
  | cons b bs ih =>
    obtain ⟨k, v⟩ := b
    by_cases hk : k = key
    · subst hk
      by_cases h : key' = k
      · simp [bind, h]
      · have hfalse : (key' == k) = false := by simpa using h
        simp [bind, h, List.lookup_cons, hfalse]
    · by_cases h : key' = k
      · simp [bind, hk, h]
      · have hfalse : (key' == k) = false := by simpa using h
        simp only [bind, hk, if_false, List.lookup_cons, hfalse, ih]

/-- **Binding a key changes what is found under it**, and nothing else. -/
theorem find?_set (n : Node) (key : Text) (value : Value) (key' : Text) :
    (n.set key value).find? key' = if key' = key then some value else n.find? key' :=
  lookup_bind key value n.bindings key'

/-- **Binding several keys, each once, changes what is found under them**, and nothing else. -/
theorem find?_foldl_set {bs : List (Text × Value)} (h : (bs.map Prod.fst).Nodup) (n : Node)
    (key : Text) :
    (bs.foldl (fun n b => n.set b.1 b.2) n).find? key = (bs.lookup key).or (n.find? key) := by
  induction bs generalizing n with
  | nil => rfl
  | cons b bs ih =>
    obtain ⟨hnew, hbs⟩ := List.nodup_cons.mp h
    rw [List.foldl_cons, ih hbs, find?_set, List.lookup_cons]
    by_cases hkey : key = b.1
    · -- no later binding takes its place
      have hlater : bs.lookup b.1 = none := by
        refine List.lookup_eq_none_iff.mpr fun e he => ?_
        have hne : b.1 ≠ e.1 := fun heq => hnew (heq ▸ List.mem_map_of_mem he)
        simpa using hne
      simp [hkey, hlater]
    · have hfalse : (key == b.1) = false := by simpa using hkey
      rw [if_neg hkey, hfalse]

theorem bind_eq_self {bs : List (Text × Value)} (h : bs.lookup key = some value) :
    bind key value bs = bs := by
  induction bs with
  | nil => exact absurd h (by simp)
  | cons b bs ih =>
    obtain ⟨k, v⟩ := b
    by_cases hk : k = key
    · subst hk
      obtain rfl : v = value := by simpa using h
      simp [bind]
    · have hfalse : (key == k) = false := by simpa using Ne.symm hk
      rw [List.lookup_cons, hfalse] at h
      rw [bind, if_neg hk, ih h]

/-- Binding a key to what it is bound to changes nothing. -/
theorem set_eq_self (h : n.find? key = some value) : n.set key value = n := by
  rw [set, bind_eq_self h]

theorem foldl_set_eq_self {bs : List (Text × Value)} (h : ∀ b ∈ bs, n.find? b.1 = some b.2) :
    bs.foldl (fun n b => n.set b.1 b.2) n = n := by
  induction bs with
  | nil => rfl
  | cons b bs ih =>
    obtain ⟨hb, hbs⟩ := List.forall_mem_cons.mp h
    rw [List.foldl_cons, set_eq_self hb, ih hbs]

/-- What is read under a key that is bound. -/
theorem getOr_of_find? {as? : Value → Option α} {a fallback : α} (h : n.find? key = some value)
    (hvalue : as? value = some a) : n.getOr as? key fallback = .ok a := by
  rw [getOr, has, h, Option.isSome_some, if_pos rfl, get, h]
  simp only [hvalue]

end Node

/-! ### Stores -/

/-- Whether every node that is named somewhere is there. -/
def Store.IsClosed (s : Store) : Prop :=
  ∀ r key child, (s.node r).find? key = some (.node child) → child < s.nodes.size

namespace Store

variable {s : Store} {f : Node → Node}

theorem node_of_size_le (h : s.nodes.size ≤ r) : s.node r = .empty := by simp [node, h]

@[simp] theorem size_update (s : Store) (r : Ref) (f : Node → Node) :
    (s.update r f).nodes.size = s.nodes.size := by
  simp [update]

theorem node_update_self (h : r < s.nodes.size) (f : Node → Node) :
    (s.update r f).node r = f (s.node r) := by
  simp [update, node, h, Array.getElem_modify_self]

theorem node_update_of_ne (h : q ≠ r) (f : Node → Node) : (s.update r f).node q = s.node q := by
  simp [update, node, Array.getElem?_modify, Ne.symm h]

/-- A change that leaves the bindings of a node as they are leaves the store as it is. -/
theorem update_eq_self (h : f (s.node r) = s.node r) : s.update r f = s := by
  obtain ⟨nodes⟩ := s
  refine congrArg Store.mk (Array.ext (by simp) fun i hi hi' => ?_)
  rw [Array.getElem_modify]
  split
  · next hr =>
    subst hr
    simpa [node, hi'] using h
  · rfl

@[simp] theorem size_insert (s : Store) (n : Node) :
    (s.insert n).2.nodes.size = s.nodes.size + 1 := by
  simp [insert]

/-- A node without bindings reads like one that is not there. -/
theorem node_insert_empty (s : Store) (r : Ref) : (s.insert .empty).2.node r = s.node r := by
  by_cases hr : r = s.nodes.size
  · simp [insert, node, hr]
  · simp [insert, node, Array.getElem?_push, hr]

/-- It is enough to look at all bindings. -/
theorem isClosed_of_mem
    (h : ∀ n ∈ s.nodes, ∀ b ∈ n.bindings, ∀ child ∈ b.2.asNode?, child < s.nodes.size) :
    s.IsClosed := by
  intro r key child hfind
  have hr : r < s.nodes.size := by
    by_contra hr
    rw [node_of_size_le (Nat.not_lt.mp hr)] at hfind
    exact absurd hfind (by simp)
  obtain ⟨l, l', hl, -⟩ := List.lookup_eq_some_iff.mp hfind
  have hnode : s.node r = s.nodes[r] := by simp [node, hr]
  refine h _ (Array.getElem_mem hr) (key, .node child) ?_ child rfl
  rw [← hnode, hl]
  simp

/-- A store stays closed where a change binds no key to a node that is not there. -/
theorem IsClosed.update (h : s.IsClosed)
    (hf : ∀ key child, (f (s.node r)).find? key = some (.node child) → child < s.nodes.size) :
    (s.update r f).IsClosed := by
  intro q key child hfind
  rw [size_update]
  by_cases hq : q = r
  · subst hq
    by_cases hlt : q < s.nodes.size
    · rw [node_update_self hlt] at hfind
      exact hf key child hfind
    · rw [node_of_size_le (by simpa using hlt)] at hfind
      exact absurd hfind (by simp)
  · rw [node_update_of_ne hq] at hfind
    exact h q key child hfind

theorem IsClosed.insert (h : s.IsClosed) : (s.insert .empty).2.IsClosed := by
  intro q key child hfind
  rw [node_insert_empty] at hfind
  rw [size_insert]
  exact Nat.lt_succ_of_lt (h q key child hfind)

/-- What a look-up that creates what is missing leaves behind. -/
structure Creates (s : Store) (r : Ref) (key : Text) (child : Ref) (s' : Store) : Prop where
  closed : s'.IsClosed
  size : s.nodes.size ≤ s'.nodes.size
  lt_size : child < s'.nodes.size
  found : (s'.node r).find? key = some (.node child)
  bindings : s'.node child = ((((s.node r).find? key).bind Value.asNode?).map s.node).getD .empty

/-- **The node that a key is bound to is there afterwards**, with the bindings that it had; a
new one has none. -/
theorem getOrCreate_spec (h : s.IsClosed) (hr : r < s.nodes.size) (key : Text) :
    s.Creates r key (s.getOrCreate r key).1 (s.getOrCreate r key).2 := by
  unfold getOrCreate
  cases hfind : ((s.node r).find? key).bind Value.asNode? with
  | some child =>
    have hfound : (s.node r).find? key = some (.node child) := by
      obtain ⟨value, hvalue, hchild⟩ := Option.bind_eq_some_iff.mp hfind
      rw [hvalue, Value.eq_node_of_asNode? hchild]
    refine ⟨h, Nat.le_refl _, h r key child hfound, hfound, ?_⟩
    rw [hfind]
    rfl
  | none =>
    have hsize : r < (s.insert .empty).2.nodes.size := by simpa using Nat.lt_succ_of_lt hr
    have hne : (s.insert .empty).1 ≠ r := Nat.ne_of_gt hr
    refine ⟨?_, by simp, by simp [insert], ?_, ?_⟩
    · -- the key is bound to the new node, and the other keys to nodes that were there
      refine h.insert.update fun key' child hfound => ?_
      rw [Node.find?_set, node_insert_empty] at hfound
      split at hfound
      · obtain rfl : s.nodes.size = child := by simpa [insert] using hfound
        simp
      · rw [size_insert]
        exact Nat.lt_succ_of_lt (h r key' child hfound)
    · dsimp only
      rw [node_update_self hsize, Node.find?_set, if_pos rfl]
    · dsimp only
      rw [node_update_of_ne hne, node_insert_empty, hfind]
      exact node_of_size_le (Nat.le_refl _)

/-- Looking up a node that is there changes nothing. -/
theorem getOrCreate_of_some (h : ((s.node r).find? key).bind Value.asNode? = some q) :
    s.getOrCreate r key = (q, s) := by
  rw [getOrCreate, h]

/-- Looking up one that is not there binds the key to a new one. -/
theorem getOrCreate_of_none (h : ((s.node r).find? key).bind Value.asNode? = none) :
    s.getOrCreate r key
      = (s.nodes.size, (s.insert .empty).2.update r (·.set key (.node s.nodes.size))) := by
  rw [getOrCreate, h]
  rfl

/-- **A look-up that creates what is missing binds one key at most**: the one that it looks up,
where that is not bound to a node. -/
theorem find?_node_getOrCreate (hr : r < s.nodes.size) (key : Text) (q : Ref) (key' : Text) :
    ((s.getOrCreate r key).2.node q).find? key'
      = if ((s.node r).find? key).bind Value.asNode? = none ∧ q = r ∧ key' = key
        then some (.node (s.getOrCreate r key).1) else (s.node q).find? key' := by
  cases hfind : ((s.node r).find? key).bind Value.asNode? with
  | some child => simp [getOrCreate_of_some hfind]
  | none =>
    have hsize : r < (s.insert .empty).2.nodes.size := by
      rw [size_insert]
      exact Nat.lt_succ_of_lt hr
    rw [getOrCreate_of_none hfind]
    by_cases hq : q = r
    · subst hq
      rw [node_update_self hsize, Node.find?_set, node_insert_empty]
      simp
    · rw [node_update_of_ne hq, node_insert_empty]
      simp [hq]

end Store

end FileSharing.Config

namespace FileSharing

/-- Whether the root and every node that is named somewhere are there. -/
structure Config.IsClosed (c : Config) : Prop where
  root : c.root < c.store.nodes.size
  store : c.store.IsClosed

theorem Config.isClosed_fresh : Config.fresh.IsClosed :=
  ⟨by decide, Store.isClosed_of_mem (by simp [Config.fresh, Config.Node.empty])⟩

theorem Config.IsClosed.clear {c : Config} (h : c.IsClosed) : c.clear.IsClosed :=
  ⟨by simp [Config.clear, Config.Store.insert], h.store.insert⟩

end FileSharing
