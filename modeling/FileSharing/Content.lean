import FileSharing.Text

/-!
# Content

The description of a file to share: where it lies, what it is, how large it is
and what it is called.
-/

namespace FileSharing

/-- The description of a shared file. -/
structure Content where
  /-- Where the file lies. -/
  uri : Text
  /-- Its media type. -/
  encoding : Text
  /-- Its size in bytes. -/
  size : UInt64
  /-- Its name. -/
  name : Text
  deriving DecidableEq, Repr, Inhabited

/-- The description of nothing. -/
def Content.empty : Content := ⟨[], [], 0, []⟩

/-- Whether the media type is an image. -/
def Content.isImage (c : Content) : Bool := Text.startsWith c.encoding "image/"

/-- The protocol that carries a file. -/
inductive Carrier where
  /-- Message sessions between the parties. -/
  | msrp
  /-- A content server. -/
  | http
  deriving DecidableEq, Repr

/-- The name of a carrier. -/
def Carrier.name : Carrier → Text
  | msrp => "MSRP"
  | http => "HTTP"

/-- The name of the carrier with a number, where the number is assigned. -/
def Carrier.nameOf : (number : Int) → Text
  | 0 => msrp.name
  | 1 => http.name
  | _ => "UNKNOWN"

end FileSharing
