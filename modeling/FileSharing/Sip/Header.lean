import FileSharing.Text.Number

/-!
# Header fields

A message carries an ordered list of header fields.  Names are compared without
regard to case, and the one-letter compact forms stand for their long names, so
every name has a canonical spelling and the list is a multimap from canonical
names to values that keeps the order of its fields.

## Main definitions

* `canonicalName` — the spelling under which a field is kept.
* `Headers` — the fields, with `set`, `add`, `get`, `has` and `remove`.
* `tagOf`, `addressOf` — the tag parameter and the address of a party's field.
-/

namespace FileSharing.Sip

/-- One header field. -/
structure Field where
  /-- The name, in its canonical spelling where it was put in by name. -/
  name : Text
  /-- The value. -/
  value : Text
  deriving DecidableEq, Repr, Inhabited

/-- The long names in their canonical spelling, each after its compact form and
its name in small letters. -/
def knownNames : List (Text × Text × Text) :=
  [("i", "call-id", "Call-ID"), ("f", "from", "From"), ("t", "to", "To"),
    ("m", "contact", "Contact"), ("l", "content-length", "Content-Length"),
    ("c", "content-type", "Content-Type"), ("v", "via", "Via"), ("cseq", "cseq", "CSeq")]

/-- The spelling under which a field is kept: a known name is spelled as in
`knownNames`, another one is kept as it is without the blanks around it. -/
def canonicalName (name : Text) : Text :=
  let trimmed := name.trim
  let small := trimmed.lower
  match knownNames.find? fun (compact, long, _) => small = compact ∨ small = long with
  | some (_, _, canonical) => canonical
  | none => trimmed

/-- What names are compared by: the canonical spelling in small letters. -/
def nameKey (name : Text) : Text := (canonicalName name).lower

/-- The fields of a message, in order. -/
structure Headers where
  /-- The fields. -/
  fields : List Field
  deriving DecidableEq, Repr, Inhabited

/-- Whether a field is found under a key of `nameKey`. -/
def Field.hasKey (key : Text) (f : Field) : Bool := f.name.lower == key

/-- Give the first field found under `key` a new value; append the field `fresh`
if there is none. -/
def replaceFirst (key value : Text) (fresh : Field) : List Field → List Field
  | [] => [fresh]
  | f :: fs =>
    if f.hasKey key then { f with value := value } :: fs
    else f :: replaceFirst key value fresh fs

namespace Headers

/-- No fields. -/
def empty : Headers := ⟨[]⟩

/-- Give the first field of this name the value; append one if there is none. -/
def set (h : Headers) (name value : Text) : Headers :=
  ⟨replaceFirst (nameKey name) value ⟨canonicalName name, value⟩ h.fields⟩

/-- Append a field. -/
def add (h : Headers) (name value : Text) : Headers := ⟨h.fields ++ [⟨canonicalName name, value⟩]⟩

/-- The first field of this name. -/
def find? (h : Headers) (name : Text) : Option Field := h.fields.find? (·.hasKey (nameKey name))

/-- The value of the first field of this name, empty if there is none. -/
def get (h : Headers) (name : Text) : Text := ((h.find? name).map Field.value).getD []

/-- Whether there is a field of this name. -/
def has (h : Headers) (name : Text) : Bool := (h.find? name).isSome

/-- Drop all fields of this name. -/
def remove (h : Headers) (name : Text) : Headers :=
  ⟨h.fields.filter (!·.hasKey (nameKey name))⟩

/-! ### The fields of a dialog -/

/-- The sender. -/
def sender (h : Headers) : Text := h.get "From"

/-- The receiver. -/
def receiver (h : Headers) : Text := h.get "To"

/-- The identity of the call. -/
def callId (h : Headers) : Text := h.get "Call-ID"

/-- The sequence number and method. -/
def cseq (h : Headers) : Text := h.get "CSeq"

/-- Write a sequence number and a method. -/
def setCSeq (h : Headers) (number : UInt32) (method : Text) : Headers :=
  h.set "CSeq" (Text.decimal number.toNat ++ " " ++ method)

/-- The sequence number alone. -/
def cseqNumber (h : Headers) : UInt32 := Text.readNatural h.cseq

/-- The values of all Via fields, in order. -/
def vias (h : Headers) : List Text := (h.fields.filter (·.name = ascii "Via")).map Field.value

end Headers

/-! ### Parties -/

/-- The semicolon, which starts a parameter. -/
def semicolon : UInt8 := 59

/-- The value of the first `;tag=` parameter of a party's field, without the
blanks around it; empty if there is none. -/
def tagOf (party : Text) : Text :=
  match Text.cutAt? ";tag=" party with
  | some (_, after) => (after.before semicolon).trim
  | none => []

/-- The address of a party's field: what stands between the first angle bracket
and its closing one, otherwise what stands before the parameters. -/
def addressOf (party : Text) : Text :=
  let bare := (party.before semicolon).trim
  match Text.cutAtByte? 60 party with
  | some (_, inside) =>
    match Text.cutAtByte? 62 inside with
    | some (address, _) => address
    | none => bare
  | none => bare

end FileSharing.Sip
