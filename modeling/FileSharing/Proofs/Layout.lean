import FileSharing.Proofs.Relaying
import Mathlib.Data.List.Forall2

/-!
# The layout of messages

A text is cut into lines at its line feeds.  Its first line is the start line.  The lines after
it are header lines, up to the first one that is empty but for a carriage return, and what
follows the line feed of that one is the body.  A message is read part by part: the start line
alone decides whether there is a message, each header line with a colon is a field, and the body
is taken as it is.

## Main definitions

* `Layout`, `Layout.IsOf` — a first line, header lines and a body, and the text that they are cut
  from.
* `Field.IsSaidBy`, `Field.said?` — a field is what a header line says.

## Main results

* `Layout.exists_isOf` — every text has a layout.
* `Message.parse_join` — what is read of a text whose lines are known.
* `Message.parse_of_layout` — **a message is read from the parts of its text**, nothing of them is
  lost, and nothing else is read.
-/

namespace FileSharing.Sip

/-- A first line, the header lines after it, and a body. -/
structure Layout where
  /-- The first line. -/
  first : Text
  /-- The header lines, each with the carriage return that may end it. -/
  lines : List Text
  /-- The body. -/
  body : Text

namespace Layout

/-- What follows the header lines, and the body in it. -/
inductive IsTail : Text → Text → Prop where
  /-- The text ends with its last line. -/
  | bare : IsTail [] []
  /-- It ends with an empty line. -/
  | blank {line : Text} (hline : line.dropCr = []) : IsTail (Text.lf :: line) []
  /-- The body follows the line feed of an empty line. -/
  | body {line : Text} (hline : line.dropCr = []) (body : Text) :
    IsTail (Text.lf :: (line ++ Text.lf :: body)) body

/-- Whether a line is a header line. -/
structure IsHeader (line : Text) : Prop where
  lf : Text.lf ∉ line
  ne_nil : line.dropCr ≠ []

/-- Header lines, each after the line feed that ends the line before it, and what follows
them. -/
def join (lines : List Text) (tail : Text) : Text := lines.flatMap (Text.lf :: ·) ++ tail

/-- Whether a text is cut into these parts: put together again, they are the text, and none of the
lines reaches across a line feed or is empty. -/
structure IsOf (x : Layout) (t : Text) : Prop where
  eq : ∃ tail, IsTail tail x.body ∧ t = x.first ++ join x.lines tail
  first : Text.lf ∉ x.first
  lines : ∀ line ∈ x.lines, IsHeader line

variable {line tail body t : Text} {lines : List Text}

theorem join_cons (line : Text) (lines : List Text) (tail : Text) :
    join (line :: lines) tail = Text.lf :: (line ++ join lines tail) := by
  simp [join]

/-- Whatever else follows an empty line is part of the body. -/
theorem IsTail.extend (h : IsTail tail body) (hne : tail ≠ []) (rest : Text) :
    ∃ body, IsTail (tail ++ Text.lf :: rest) body := by
  cases h with
  | bare => exact absurd rfl hne
  | @blank line hline => exact ⟨rest, .body hline rest⟩
  | @body line hline body =>
    refine ⟨body ++ Text.lf :: rest, ?_⟩
    rw [List.cons_append, List.append_assoc, List.cons_append]
    exact .body hline _

/-- What follows the header lines begins with the line feed that ends the last one. -/
theorem IsTail.head (h : IsTail tail body) : ∀ b ∈ tail.head?, b = Text.lf := by
  intro b hb
  cases h with
  | bare => exact absurd hb (by simp)
  | blank hline => simpa using hb.symm
  | body hline body => simpa using hb.symm

/-- So do the header lines themselves. -/
theorem head?_join (htail : ∀ b ∈ tail.head?, b = Text.lf) :
    ∀ b ∈ (join lines tail).head?, b = Text.lf := by
  cases lines with
  | nil => exact htail
  | cons line lines =>
    intro b hb
    rw [join_cons] at hb
    simpa using hb.symm

theorem IsHeader.nonempty (h : IsHeader line) : line ≠ [] := by
  rintro rfl
  exact h.ne_nil rfl

/-- An empty line has no line feed. -/
theorem lf_not_mem_of_dropCr (h : line.dropCr = []) : Text.lf ∉ line := by
  rcases Text.dropCr_eq_nil_iff.mp h with rfl | rfl
  · decide
  · decide

/-- There is no line in an empty text, and nowhere else. -/
theorem eq_nil_of_line? (h : t.line? = none) : t = [] := by
  cases t with
  | nil => rfl
  | cons b t => exact absurd h (by simp [Text.line?_eq])

/-- Whatever follows a line feed is cut into header lines and what follows them. -/
theorem exists_join (s : Text) : ∃ lines tail body, IsTail tail body
    ∧ (∀ line ∈ lines, IsHeader line) ∧ Text.lf :: s = join lines tail := by
  -- one line at a time, and what follows a line is shorter
  induction hn : s.length using Nat.strong_induction_on generalizing s with
  | _ n ih =>
  cases hline : s.line? with
  | none =>
    obtain rfl := eq_nil_of_line? hline
    exact ⟨[], _, [], .blank Text.dropCr_nil, by simp, rfl⟩
  | some parts =>
    obtain ⟨line, rest⟩ := parts
    obtain ⟨hlf, heq⟩ := Text.eq_of_line? hline
    have hshort : rest.length < n := by
      rw [← hn]
      exact Text.length_lt_of_line? hline
    by_cases hempty : line.dropCr = []
    · rcases heq with rfl | ⟨rfl, rfl⟩
      · exact ⟨[], _, rest, .body hempty rest, by simp, rfl⟩
      · exact ⟨[], _, [], .blank hempty, by simp, rfl⟩
    · rcases heq with rfl | ⟨rfl, rfl⟩
      · obtain ⟨lines, tail, body, htail, hlines, heq⟩ := ih _ hshort rest rfl
        have hall := List.forall_mem_cons.mpr ⟨IsHeader.mk hlf hempty, hlines⟩
        refine ⟨line :: lines, tail, body, htail, hall, ?_⟩
        rw [join_cons, ← heq]
      · exact ⟨[s], [], [], .bare, by simpa using IsHeader.mk hlf hempty, by simp [join]⟩

/-- Every text has a layout. -/
theorem exists_isOf (t : Text) : ∃ x : Layout, x.IsOf t := by
  cases hline : t.line? with
  | none =>
    obtain rfl := eq_nil_of_line? hline
    exact ⟨⟨[], [], []⟩, ⟨[], .bare, rfl⟩, by simp, by simp⟩
  | some parts =>
    obtain ⟨first, rest⟩ := parts
    obtain ⟨hfirst, heq⟩ := Text.eq_of_line? hline
    rcases heq with rfl | ⟨rfl, rfl⟩
    · obtain ⟨lines, tail, body, htail, hlines, heq⟩ := exists_join rest
      exact ⟨⟨first, lines, body⟩, ⟨tail, htail, by rw [heq]⟩, hfirst, hlines⟩
    · exact ⟨⟨t, [], []⟩, ⟨[], .bare, by simp [join]⟩, hfirst, by simp⟩

end Layout

/-! ### Header lines -/

namespace Field

variable {f : Field} {line : Text}

/-- Whether a field is what a header line says: the name is what stands before its first colon, in
its canonical spelling, and the value is what stands after it, trimmed.  A carriage return that
ends the line is no part of the value. -/
def IsSaidBy (f : Field) (line : Text) : Prop :=
  ∃ name value : Text, line.dropCr = name ++ colon :: value ∧ colon ∉ name
    ∧ f = ⟨canonicalName name, value.trim⟩

/-- The field that a line says, if it has a colon. -/
def said? (line : Text) : Option Field :=
  (Text.cutAtByte? colon line.dropCr).map fun p => ⟨canonicalName p.1, p.2.trim⟩

theorem said?_eq_some_iff : said? line = some f ↔ f.IsSaidBy line := by
  constructor
  · intro h
    obtain ⟨⟨name, value⟩, hcut, rfl⟩ := Option.map_eq_some_iff.mp h
    obtain ⟨hline, hname⟩ := Text.eq_of_cutAtByte? hcut
    exact ⟨name, value, hline, hname, rfl⟩
  · rintro ⟨name, value, hline, hname, rfl⟩
    rw [said?, hline, Text.cutAtByte?_append hname]
    rfl

theorem said?_eq_none_iff : said? line = none ↔ colon ∉ line := by
  rw [said?, Option.map_eq_none_iff, Text.cutAtByte?_eq_none_iff, Text.mem_dropCr_iff (by decide)]

/-- The line of a field says it, up to spelling and blanks. -/
theorem said?_line (h : f.IsOneLine) : said? (f.line ++ [Text.cr]) = some f.reread := by
  rw [said?, Text.dropCr_concat, Field.line, Text.cutAtByte?_append h.colon, Option.map_some]
  rfl

/-- Each line with a colon says one field, in order. -/
theorem forall₂_said (lines : List Text) :
    List.Forall₂ (fun line f => IsSaidBy f line) (lines.filter (colon ∈ ·))
      (lines.filterMap said?) := by
  induction lines with
  | nil => exact .nil
  | cons line lines ih =>
    cases hsaid : said? line with
    | none =>
      rw [List.filterMap_cons_none hsaid, List.filter_cons_of_neg]
      · exact ih
      · simpa using said?_eq_none_iff.mp hsaid
    | some f =>
      rw [List.filterMap_cons_some hsaid, List.filter_cons_of_pos]
      · exact .cons (said?_eq_some_iff.mp hsaid) ih
      · have hcolon : colon ∈ line := by
          by_contra hno
          exact absurd (said?_eq_none_iff.mpr hno) (by simp [hsaid])
        simpa using hcolon

end Field

section HeaderLines

open Layout

variable {tail body : Text} {lines : List Text}

/-- A line feed comes before what is read. -/
theorem Rest.read_tail (h : IsTail tail body) : Rest.read (tail.drop 1) = ⟨[], [], body⟩ := by
  cases h with
  | bare => exact Rest.read_nil
  | @blank line hline =>
    show Rest.read line = ⟨[], [], []⟩
    by_cases hne : line = []
    · rw [hne, Rest.read_nil]
    · exact Rest.read_of_blank (Text.line?_of_lf_not_mem (lf_not_mem_of_dropCr hline) hne) hline
  | @body line hline body =>
    show Rest.read (line ++ Text.lf :: body) = ⟨[], [], body⟩
    exact Rest.read_of_blank (Text.line?_append (lf_not_mem_of_dropCr hline) body) hline

/-- **What is read of header lines** are the fields that they say, in order, and the lines without
a colon are skipped, before anything else is read. -/
theorem Rest.read_join (hlines : ∀ line ∈ lines, IsHeader line)
    (htail : ∀ b ∈ tail.head?, b = Text.lf) :
    Rest.read ((join lines tail).drop 1)
      = ⟨lines.filterMap Field.said? ++ (Rest.read (tail.drop 1)).fields,
        (lines.filter (colon ∉ ·)).map Text.dropCr ++ (Rest.read (tail.drop 1)).skipped,
        (Rest.read (tail.drop 1)).body⟩ := by
  induction lines with
  | nil => rfl
  | cons line lines ih =>
    obtain ⟨hline, hlines⟩ := List.forall_mem_cons.mp hlines
    have hread : (line ++ join lines tail).line? = some (line, (join lines tail).drop 1) :=
      Text.line?_append_tail hline.lf (head?_join htail) (by simp [hline.nonempty])
    rw [join_cons, List.drop_one, List.tail_cons]
    cases hcut : Text.cutAtByte? colon line.dropCr with
    | none =>
      have hsaid : Field.said? line = none := by rw [Field.said?, hcut, Option.map_none]
      have hcolon := Field.said?_eq_none_iff.mp hsaid
      rw [Rest.read_of_no_cut hread hline.ne_nil hcut, ih hlines, List.filterMap_cons_none hsaid,
        List.filter_cons_of_pos (by simpa using hcolon)]
      rfl
    | some parts =>
      have hsaid : Field.said? line = some ⟨canonicalName parts.1, parts.2.trim⟩ := by
        rw [Field.said?, hcut, Option.map_some]
      have hcolon : ¬colon ∉ line := fun hno =>
        absurd (Field.said?_eq_none_iff.mpr hno) (by simp [hsaid])
      rw [Rest.read_of_cut hread hcut, ih hlines, List.filterMap_cons_some hsaid,
        List.filter_cons_of_neg (by simpa using hcolon)]
      rfl

end HeaderLines

/-! ### Messages -/

namespace Message

open Layout

variable {first tail : Text} {lines : List Text}

/-- The first line is what the reader starts with. -/
theorem splitStart_append (hfirst : Text.lf ∉ first) (htail : ∀ b ∈ tail.head?, b = Text.lf) :
    splitStart (first ++ tail) = (first, tail.drop 1) := by
  unfold splitStart
  by_cases hne : first ++ tail = []
  · obtain ⟨rfl, rfl⟩ := List.append_eq_nil_iff.mp hne
    rfl
  · rw [Text.line?_append_tail hfirst htail hne]
    rfl

/-- **What is read of a text** whose lines are known: the start line alone decides whether there is
a message. -/
theorem parse_join (hfirst : Text.lf ∉ first) (hlines : ∀ line ∈ lines, IsHeader line)
    (htail : ∀ b ∈ tail.head?, b = Text.lf) :
    parse (first ++ join lines tail) = (Start.read first.trim).map fun start =>
      ⟨start, ⟨lines.filterMap Field.said? ++ (Rest.read (tail.drop 1)).fields⟩,
        (Rest.read (tail.drop 1)).body⟩ := by
  unfold parse
  rw [splitStart_append hfirst (head?_join htail)]
  dsimp only
  rw [Rest.read_join hlines htail]
  cases Start.read first.trim with
  | error f => rfl
  | ok start => rfl

/-- **A message is read from the parts of its text.**  Every text has a layout.  Whether it is
accepted, and as what request or response, its first line decides alone: the address of a request
is a word and the code of a response is between 100 and 699.  Then there is one field for each
header line with a colon, in order, the other lines are skipped, and the body is all that follows
the empty line. -/
theorem parse_of_layout (t : Text) :
    (∃ x : Layout, x.IsOf t) ∧ ∀ x : Layout, x.IsOf t →
      (parse t).map Message.start = Start.read x.first.trim ∧
      ∀ m, parse t = .ok m →
        m.start.IsPrintable ∧
        List.Forall₂ (fun line f => Field.IsSaidBy f line) (x.lines.filter (colon ∈ ·))
          m.headers.fields ∧
        m.body = x.body := by
  refine ⟨exists_isOf t, fun x hx => ?_⟩
  obtain ⟨⟨tail, htail, rfl⟩, hfirst, hlines⟩ := hx
  have hparse := parse_join hfirst hlines htail.head
  rw [Rest.read_tail htail, List.append_nil] at hparse
  refine ⟨?_, fun m hm => ⟨(of_parse hm).1, ?_⟩⟩
  · rw [hparse]
    cases Start.read x.first.trim with
    | error f => rfl
    | ok start => rfl
  · rw [hparse] at hm
    cases hstart : Start.read x.first.trim with
    | error f =>
      rw [hstart] at hm
      cases hm
    | ok start =>
      rw [hstart] at hm
      obtain rfl := Except.ok.inj hm
      exact ⟨Field.forall₂_said x.lines, rfl⟩

/-- Lines without a colon are skipped, a name may be compact, and the body may have empty lines. -/
example : parse "BYE sip:a SIP/2.0\nno colon\nv: b\r\n\r\nc\n\nd: e"
    = .ok ⟨.request .bye "sip:a", ⟨[⟨"Via", "b"⟩]⟩, "c\n\nd: e"⟩ := by decide +kernel

end Message

end FileSharing.Sip
