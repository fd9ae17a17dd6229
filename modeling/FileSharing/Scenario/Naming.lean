import FileSharing.Identifier
import FileSharing.Operation
import FileSharing.Text.Number

/-!
# Names for new transfer ids

A file that is sent, or announced without an id, gets a new id.  A scenario cannot
know it beforehand and calls these ids `#1`, `#2` and so on, in the order in which
they are given out.  A name that no id has yet stands for itself, so an id may be
spelled like a name without being taken for one.

## Main definitions

* `Naming` — the ids given out so far, with `issue` for the next one.
* `Naming.resolve` — the id that a scenario means by a text.
* `Naming.shown` — a text with its ids replaced by their names.
* `Op.mapId` — an operation with other ids.
-/

namespace FileSharing

namespace Scenario

/-- The ids that were given out, the last one first, each after its name. -/
structure Naming where
  /-- The names with their ids. -/
  issued : List (Text × Text)
  deriving DecidableEq, Repr

namespace Naming

/-- No id was given out. -/
def empty : Naming := ⟨[]⟩

/-- The name of the `n`-th id. -/
def name (n : Nat) : Text := ascii "#" ++ Text.decimal n

/-- The number whose digits the ids start with: arbitrary, so that no id is written
by accident, and with eight zeros at its end, where the ids are counted. -/
def seed : Nat := 0x9e3779b97f4a7c15f39cc06000000000

/-- The `n`-th id. -/
def id (n : Nat) : Text :=
  Identifier.transfer fun i => Fin.ofNat 16 ((seed + n) / Nat.pow 16 (31 - i))

/-- Give out the next id. -/
def issue (m : Naming) : Text × Naming :=
  let n := m.issued.length + 1
  (id n, ⟨(name n, id n) :: m.issued⟩)

/-- The id with a name. -/
def id? (m : Naming) (t : Text) : Option Text := m.issued.lookup t

/-- The id that is meant by a text: the one with this name, or else the text. -/
def resolve (m : Naming) (t : Text) : Text := (m.id? t).getD t

/-- The name of the id that a text begins with, and how long the id is. -/
def leading? (m : Naming) (t : Text) : Option (Text × Nat) :=
  (m.issued.find? fun p => Text.startsWith t p.2).map fun (name, id) => (name, id.length)

/-- A text after its first `skip` bytes, with its ids replaced by their names. -/
def shownAfter (m : Naming) : (skip : Nat) → Text → Text
  | _, [] => []
  | skip + 1, _ :: t => shownAfter m skip t
  | 0, b :: t =>
    match m.leading? (b :: t) with
    | some (name, length) => name ++ shownAfter m (length - 1) t
    | none => b :: shownAfter m 0 t

/-- A text with its ids replaced by their names. -/
def shown (m : Naming) (t : Text) : Text := m.shownAfter 0 t

end Naming

end Scenario

/-! ### Operations with other ids -/

/-- A request to the service with the id it speaks of replaced. -/
def ServiceOp.mapId (f : Text → Text) : ServiceOp → ServiceOp
  | invite i => invite { i with id := f i.id }
  | accept id => accept (f id)
  | reject id => reject (f id)
  | pause id => pause (f id)
  | resume id => resume (f id)
  | abort id => abort (f id)
  | markRead id => markRead (f id)
  | op => op

/-- An operation with the id it speaks of replaced. -/
def Op.mapId (f : Text → Text) : Op → Op
  | create d => create { d with id := f d.id }
  | unregister id => unregister (f id)
  | service op => service (op.mapId f)
  | op => op

end FileSharing
