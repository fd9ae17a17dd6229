import FileSharing.Text

/-!
# Identifiers

Transfers, calls and dialog tags are named by random texts of hexadecimal
digits.  Where the digits come from is left to the caller, who hands in a source.
-/

namespace FileSharing.Identifier

/-- An endless source of hexadecimal digits. -/
abbrev Source := Nat → Fin 16

/-- The byte of a hexadecimal digit, with small letters. -/
def hexByte (d : Fin 16) : UInt8 := UInt8.ofNat (if d.val < 10 then 48 + d.val else 87 + d.val)

/-- A text of the first `length` digits of a source. -/
def token (source : Source) (length : Nat) : Text := (List.range length).map (hexByte <| source ·)

/-- How long an identifier is when nothing is said about it. -/
def defaultLength : Nat := 16

/-- A new name for a transfer. -/
def transfer (source : Source) : Text := token source 32

/-- A new dialog tag. -/
def tag (source : Source) : Text := token source 8

/-- A new name for a call, followed by the host it starts from if that is known. -/
def call (source : Source) (host : Text) : Text :=
  token source 24 ++ (if host.isEmpty then [] else ascii "@" ++ host)

end FileSharing.Identifier
