import FileSharing.Text

/-!
# Numbers in texts

Decimal numbers are written without leading zeros.  A number is read from the
start of a text: white space is skipped, one sign may follow, and the digits end
at the first other byte.  What is too large becomes the nearest limit of the
type that is read.

## Main definitions

* `Text.decimal`, `Text.signed` — the written form of a number.
* `Text.readInt`, `Text.readNatural` — reading a 32-bit number with and without
  sign.
-/

namespace FileSharing.Text

/-- The byte of a digit below ten. -/
def digitByte (d : Nat) : UInt8 := UInt8.ofNat (48 + d)

/-- The number that a digit byte stands for. -/
def digitValue (b : UInt8) : Nat := b.toNat - 48

/-- The decimal digits of a number. -/
def decimal (n : Nat) : Text :=
  if n < 10 then [digitByte n] else decimal (n / 10) ++ [digitByte (n % 10)]

/-- The decimal digits of an integer, with a minus sign where it is negative. -/
def signed (i : Int) : Text := if i < 0 then ascii "-" ++ decimal i.natAbs else decimal i.natAbs

/-- The number written by a list of digit bytes. -/
def ofDigits (ds : Text) : Nat := ds.foldl (fun n d => 10 * n + digitValue d) 0

/-- The number at the start of a text: whether a minus sign leads it, its digits,
and what follows them. -/
def numeral (s : Text) : Bool × Text × Text :=
  let s := s.dropWhile isSpace
  let (negative, s) :=
    match s with
    | 45 :: s => (true, s)
    | 43 :: s => (false, s)
    | s => (false, s)
  (negative, s.takeWhile isDigit, s.dropWhile isDigit)

/-- The signed 32-bit number at the start of a text, and what follows it.
Without digits it is zero; beyond a limit it is that limit. -/
def readInt (s : Text) : Int × Text :=
  let (negative, digits, rest) := numeral s
  let n : Int := ofDigits digits
  (if negative then max (-n) (-2147483648) else min n 2147483647, rest)

/-- The unsigned 32-bit number at the start of a text.  A minus sign counts down
from `2 ^ 32`; a number of more than 32 bits, of either sign, gives the largest
one. -/
def readNatural (s : Text) : UInt32 :=
  let (negative, digits, _) := numeral s
  let n := ofDigits digits
  if 4294967295 < n then 4294967295
  else if negative then 0 - UInt32.ofNat n
  else UInt32.ofNat n

end FileSharing.Text
