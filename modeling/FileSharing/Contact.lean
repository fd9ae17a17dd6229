import FileSharing.Failure

/-!
# Contacts

A contact is the identity of a remote party: a phone number or an address with
a domain.  `Contact.create` brings what a user wrote into the form that is
compared and sent.

## Main definitions

* `Contact`, `Contact.create` — the normalized identity and its only source.
* `Contact.uri` — the address under which the contact is reached.
-/

namespace FileSharing

/-- The identity of a remote party; empty when there is none. -/
structure Contact where
  /-- The normalized form. -/
  value : Text
  deriving DecidableEq, Repr, Inhabited

namespace Contact

/-- Nobody. -/
def none : Contact := ⟨[]⟩

/-- Whether the contact is nobody. -/
def isNone (c : Contact) : Bool := c.value.isEmpty

/-- The at sign, which separates a user from a domain. -/
def atSign : UInt8 := 64

/-- The plus sign that may lead a number. -/
def plus : UInt8 := 43

/-- What may stand between the digits of a written number: a hyphen, a space or
a full stop. -/
def isSeparator (b : UInt8) : Bool := b == 45 || b == 32 || b == 46

/-- Whether a text is a number: digits, at least one byte, and a plus sign
nowhere but in front. -/
def isNumber (s : Text) : Bool :=
  !s.isEmpty && s.all (fun b => Text.isDigit b || b == plus) && !(s.drop 1).contains plus

/-- The contact a user wrote.  Blanks around it and one leading `tel:` are
dropped.  An address is kept as it is; a number loses its separators. -/
def create (value : Text) : Outcome Contact :=
  let trimmed := Text.dropEnd Text.isBlank (value.dropWhile Text.isBlank)
  if trimmed.isEmpty then
    .error ⟨.invalidArgument, "Contact identifier is empty"⟩
  else
    let bare := (Text.stripLeading? "tel:" trimmed).getD trimmed
    if bare.contains atSign then
      .ok ⟨bare⟩
    else
      let number := bare.filter (!isSeparator ·)
      if isNumber number then .ok ⟨number⟩
      else .error ⟨.invalidArgument, "Unsupported contact format: " ++ value⟩

/-- The address of a contact: `sip:` for one with a domain, `tel:` for a number. -/
def uri (c : Contact) : Text :=
  if c.value.contains atSign then "sip:" ++ c.value else "tel:" ++ c.value

end Contact

end FileSharing
