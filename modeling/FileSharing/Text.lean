/-!
# Byte texts

Everything that travels through the stack (addresses, header lines, file names,
log lines) is a string of bytes.  Lengths, case folding and trimming work on
bytes, and only the ASCII letters change case.

## Main definitions

* `Text` — a string of bytes, with string literals as a shorthand.
* `Text.lower`, `Text.trim` — ASCII case folding and the two-sided trimming.
* `Text.stripLeading?`, `Text.cutAt?` — a text without a leading word, and the
  two parts around the first occurrence of a word.
-/

namespace FileSharing

/-- A string of bytes. -/
abbrev Text := List UInt8

/-- The bytes of a literal; every literal of this library is ASCII. -/
def ascii (s : String) : Text := s.toList.map fun c => UInt8.ofNat c.toNat

/-- A string literal stands for its bytes. -/
instance : Coe String Text := ⟨ascii⟩

namespace Text

/-! ### Bytes -/

/-- The line feed, which ends a line. -/
def lf : UInt8 := 10

/-- The carriage return, which may stand before a line feed. -/
def cr : UInt8 := 13

/-- A space or a tab. -/
def isBlank (b : UInt8) : Bool := b == 32 || b == 9

/-- What is dropped from the end of a trimmed text: a blank or a carriage return. -/
def isLineEnd (b : UInt8) : Bool := isBlank b || b == cr

/-- White space between words: a space or one of the controls from tab to
carriage return. -/
def isSpace (b : UInt8) : Bool := b == 32 || (9 ≤ b && b ≤ 13)

/-- An ASCII decimal digit. -/
def isDigit (b : UInt8) : Bool := 48 ≤ b && b ≤ 57

/-- The small letter for an ASCII capital; other bytes stay as they are. -/
def lowerByte (b : UInt8) : UInt8 := if 65 ≤ b && b ≤ 90 then b + 32 else b

/-! ### Whole texts -/

/-- A text with its ASCII capitals made small. -/
def lower (s : Text) : Text := s.map lowerByte

/-- The bytes before the first NUL: what a reader sees who takes NUL for the
end of a text. -/
def visible (s : Text) : Text := s.takeWhile (· != 0)

/-- A text without the longest run of `p` at its end. -/
def dropEnd (p : UInt8 → Bool) (s : Text) : Text := (s.reverse.dropWhile p).reverse

/-- A text without the blanks that lead it and the blanks and carriage returns
that end it.  A text that holds nothing else but starts with a blank keeps what
follows the leading blanks. -/
def trim (s : Text) : Text :=
  let body := s.dropWhile isBlank
  let kept := dropEnd isLineEnd body
  if kept.isEmpty && body.length < s.length then body else kept

/-- What follows `word` in a text that begins with it. -/
def stripLeading? : (word s : Text) → Option Text
  | [], s => some s
  | _ :: _, [] => none
  | w :: word, b :: s => if w = b then stripLeading? word s else none

/-- Whether a text begins with `word`. -/
def startsWith (s word : Text) : Bool := (stripLeading? word s).isSome

/-- The parts before and after the first occurrence of `word`. -/
def cutAt? (word : Text) : Text → Option (Text × Text)
  | [] => (stripLeading? word []).map fun after => ([], after)
  | b :: s =>
    match stripLeading? word (b :: s) with
    | some after => some ([], after)
    | none => (cutAt? word s).map fun (before, after) => (b :: before, after)

/-- The parts before and after the first byte `b`. -/
def cutAtByte? (b : UInt8) (s : Text) : Option (Text × Text) :=
  match s.dropWhile (· != b) with
  | [] => none
  | _ :: after => some (s.takeWhile (· != b), after)

/-- The bytes before the first byte `b`, all of them if there is none. -/
def before (b : UInt8) (s : Text) : Text := s.takeWhile (· != b)

/-! ### Lines and words -/

/-- The first line of a text without its line feed, and what follows it.  An
empty text has no line; the end of the text ends its last line. -/
def line? : Text → Option (Text × Text)
  | [] => none
  | s@(_ :: _) => some (s.takeWhile (· != lf), (s.dropWhile (· != lf)).drop 1)

/-- A line without the one carriage return that may end it. -/
def dropCr (s : Text) : Text := if s.getLast? = some cr then s.dropLast else s

/-- The first word of a text, skipping the white space before it, and what
follows it; an empty word if there is none. -/
def word (s : Text) : Text × Text :=
  let s := s.dropWhile isSpace
  (s.takeWhile (!isSpace ·), s.dropWhile (!isSpace ·))

/-- What remains after the first line is shorter than the text it was taken from. -/
theorem length_lt_of_line? {s l r : Text} (h : line? s = some (l, r)) :
    r.length < s.length := by
  cases s with
  | nil => simp [line?] at h
  | cons b s =>
    simp only [line?, Option.some.injEq, Prod.mk.injEq] at h
    rw [← h.2, List.length_drop]
    have := (List.dropWhile_sublist (p := (· != lf)) (l := b :: s)).length_le
    simp only [List.length_cons] at this ⊢
    omega

end Text

end FileSharing
