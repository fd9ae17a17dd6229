import FileSharing.Failure

/-!
# Configuration

The configuration is a graph of nodes, each of which binds keys to values.  A
value may be another node, and a node may be bound in several places, so nodes
live in a store and are named by references.

## Main definitions

* `Value`, `Node`, `Store` — values, the bindings of a node, and all nodes.
* `Node.get`, `Node.getOr` — typed look-up; a value of another type is an error.
* `Config` — a store with its root.
-/

namespace FileSharing.Config

/-- The name of a node in a store. -/
abbrev Ref := Nat

/-- What a key may be bound to. -/
inductive Value where
  /-- Nothing. -/
  | null
  /-- A flag. -/
  | bool (b : Bool)
  /-- A whole number. -/
  | int (n : Int64)
  /-- A floating-point number, given by its bits. -/
  | double (bits : UInt64)
  /-- A text. -/
  | text (s : Text)
  /-- A list of values. -/
  | array (items : List Value)
  /-- Another node. -/
  | node (r : Ref)
  deriving Repr, Inhabited

/-- The types that a value may be asked for. -/
inductive Kind where
  /-- Nothing. -/
  | null
  /-- A flag. -/
  | bool
  /-- A whole number. -/
  | int
  /-- A floating-point number. -/
  | double
  /-- A text. -/
  | text
  /-- A list of values. -/
  | array
  /-- A node. -/
  | node
  deriving DecidableEq, Repr

namespace Value

/-- The type of a value. -/
def kind : Value → Kind
  | null => .null
  | bool _ => .bool
  | int _ => .int
  | double _ => .double
  | text _ => .text
  | array _ => .array
  | node _ => .node

/-- The value itself, if it is of the type. -/
def ofKind? (k : Kind) (v : Value) : Option Value := if v.kind = k then some v else none

/-- The flag, if the value is one. -/
def asBool? : Value → Option Bool
  | .bool b => some b
  | _ => none

/-- The number, if the value is a whole one. -/
def asInt? : Value → Option Int64
  | .int n => some n
  | _ => none

/-- The text, if the value is one. -/
def asText? : Value → Option Text
  | .text s => some s
  | _ => none

/-- The node, if the value is one. -/
def asNode? : Value → Option Ref
  | .node r => some r
  | _ => none

end Value

/-- The bindings of a node; each key is bound at most once. -/
structure Node where
  /-- The keys with their values. -/
  bindings : List (Text × Value)
  deriving Repr, Inhabited

namespace Node

/-- A node without bindings. -/
def empty : Node := ⟨[]⟩

/-- What a key is bound to. -/
def find? (n : Node) (key : Text) : Option Value := n.bindings.lookup key

/-- Whether a key is bound. -/
def has (n : Node) (key : Text) : Bool := (n.find? key).isSome

/-- Bind a key, in place of what it was bound to. -/
def bind (key : Text) (value : Value) : List (Text × Value) → List (Text × Value)
  | [] => [(key, value)]
  | b :: bs => if b.1 = key then (key, value) :: bs else b :: bind key value bs

/-- The node with a key bound. -/
def set (n : Node) (key : Text) (value : Value) : Node := ⟨bind key value n.bindings⟩

/-- The node without the binding of a key. -/
def remove (n : Node) (key : Text) : Node := ⟨n.bindings.filter (·.1 ≠ key)⟩

/-- The value of a key as `as?` reads it. -/
def get {α : Type} (n : Node) (as? : Value → Option α) (key : Text) : Outcome α :=
  match n.find? key with
  | none => .error ⟨.invalidArgument, "Configuration key not found: " ++ key⟩
  | some value =>
    match as? value with
    | some a => .ok a
    | none => .error ⟨.invalidData, "Invalid type for key: " ++ key⟩

/-- The value of a key as `as?` reads it, or `fallback` where the key is not
bound; a value that `as?` does not read is an error even so. -/
def getOr {α : Type} (n : Node) (as? : Value → Option α) (key : Text) (fallback : α) :
    Outcome α :=
  if n.has key then n.get as? key else .ok fallback

end Node

/-- All nodes. -/
structure Store where
  /-- The nodes; a reference is a place in this array. -/
  nodes : Array Node
  deriving Repr, Inhabited

namespace Store

/-- The bindings of a node; a reference to nowhere reads as an empty node. -/
def node (s : Store) (r : Ref) : Node := s.nodes[r]?.getD .empty

/-- Change the bindings of a node. -/
def update (s : Store) (r : Ref) (f : Node → Node) : Store := ⟨s.nodes.modify r f⟩

/-- Put a new node into the store. -/
def insert (s : Store) (n : Node) : Ref × Store := (s.nodes.size, ⟨s.nodes.push n⟩)

/-- The node that a key of node `r` is bound to.  Where there is none, a new
node takes the place of what the key was bound to. -/
def getOrCreate (s : Store) (r : Ref) (key : Text) : Ref × Store :=
  match ((s.node r).find? key).bind Value.asNode? with
  | some child => (child, s)
  | none =>
    let (child, s) := s.insert .empty
    (child, s.update r (·.set key (.node child)))

end Store

end FileSharing.Config

namespace FileSharing

open Config

/-- A configuration: a store and the node that everything starts from. -/
structure Config where
  /-- The nodes. -/
  store : Store
  /-- The root. -/
  root : Ref
  deriving Repr, Inhabited

namespace Config

/-- A configuration with an empty root and no other node. -/
def fresh : Config := ⟨⟨#[.empty]⟩, 0⟩

/-- Start again from a new empty root; the old nodes stay in the store. -/
def clear (c : Config) : Config :=
  let (root, store) := c.store.insert .empty
  ⟨store, root⟩

/-- The bindings of the root. -/
def rootNode (c : Config) : Node := c.store.node c.root

/-- The node of a top-level section, if there is one. -/
def sectionRef? (c : Config) (name : Text) : Option Ref :=
  (c.rootNode.find? name).bind Value.asNode?

/-- The bindings of a top-level section.  A section that is missing, or is not a
node, reads as an empty one. -/
def sectionNode (c : Config) (name : Text) : Node :=
  match c.sectionRef? name with
  | some r => c.store.node r
  | none => .empty

/-- The failure of reading a file that cannot be opened. -/
def cannotOpen (path : Text) : Failure :=
  ⟨.fileNotFound, "Failed to open config file: " ++ path⟩

/-- The failure of writing a file that cannot be created. -/
def cannotCreate (path : Text) : Failure :=
  ⟨.fileAccessDenied, "Failed to create config file: " ++ path⟩

end Config

end FileSharing
