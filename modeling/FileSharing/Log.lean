import FileSharing.Text

/-!
# The log

A log line has a level and a text.  A logger drops what is below its own level.
The text may be given as a format whose places, written as a pair of braces, are
filled from left to right; a filled place is never looked at again.

## Main definitions

* `Level` — the levels, with `Level.ofName` and the fixed-width `Level.label`.
* `Log.format` — filling the places of a format.
* `Log.printed` — a line as it is printed when nobody listens.
-/

namespace FileSharing

/-- How important a log line is, in rising order. -/
inductive Level where
  /-- For the developer. -/
  | debug
  /-- The ordinary course of events. -/
  | info
  /-- Something unexpected that the stack can live with. -/
  | warn
  /-- Something that should not have happened. -/
  | error
  deriving DecidableEq, Repr, Inhabited

namespace Level

/-- The level's rank. -/
def rank : Level → Nat
  | debug => 0
  | info => 1
  | warn => 2
  | error => 3

/-- The level with a rank; what is beyond the last is an error. -/
def ofRank : Nat → Level
  | 0 => debug
  | 1 => info
  | 2 => warn
  | _ => error

/-- The level a name stands for in any case of its letters; other names stand
for `info`. -/
def ofName (name : Text) : Level :=
  let name := name.lower
  if name = "debug" then debug
  else if name = "warn" ∨ name = "warning" then warn
  else if name = "error" then error
  else info

/-- The level's name, filled up to five letters. -/
def label : Level → Text
  | debug => "DEBUG"
  | info => "INFO "
  | warn => "WARN "
  | error => "ERROR"

/-- Whether a logger at level `limit` keeps a line of this level. -/
def passes (line limit : Level) : Bool := limit.rank ≤ line.rank

end Level

namespace Log

/-- The mark of a place to fill in a format: an opening and a closing brace. -/
def place : Text := [123, 125]

/-- A format with its places filled from left to right.  Arguments beyond the
last place are dropped, and places beyond the last argument stay as written. -/
def format (form : Text) : (args : List Text) → Text
  | [] => form
  | arg :: args =>
    match Text.cutAt? place form with
    | some (before, after) => before ++ arg ++ format after args
    | none => form

/-- A line as it is printed with a time stamp. -/
def printed (time : Text) (level : Level) (line : Text) : Text :=
  "[" ++ time ++ "] [" ++ level.label ++ "] " ++ line ++ "\n"

end Log

end FileSharing
