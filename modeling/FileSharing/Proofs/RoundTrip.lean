import FileSharing.Proofs.Fields
import FileSharing.Proofs.Numerals

/-!
# Messages that are written and read

A message is written line by line, with a space after each colon, and read with its
values trimmed.  So what is written is read back field by field: each name in its
canonical spelling, each value trimmed.  Where that leaves the fields as they are, the
message comes back as a whole, with the length of its body if no field gave it.

## Main definitions

* `Start.IsPrintable`, `Field.IsPrintable`, `Message.IsPrintable` — what is read as it
  was written.
* `Field.IsOneLine`, `Field.reread` — a field that is found in its line, and what is
  found there.
* `Message.withLength` — a message with the length of its body.

## Main results

* `Rest.read_fields` — the fields and the body are found, whatever the body is.
* `Start.read_line` — so is the start line.
* `Message.reparse` — **what is read of a message that was written.**
* `parse_toText` — **a message that can be printed is read back.**
-/

namespace FileSharing.Sip

/-! ### What can be printed -/

/-- Whether a start line can be read back: an address is a word, and a reason phrase is
trimmed and has a line for itself. -/
def Start.IsPrintable : Start → Prop
  | .request _ uri => uri ≠ [] ∧ ∀ b ∈ uri, Text.isSpace b = false
  | .response code reason =>
    (100 ≤ code ∧ code ≤ 699) ∧ Text.lf ∉ reason ∧ reason.IsTrimmed

/-- Whether a field has a line for itself, in which its name ends at the first colon. -/
structure Field.IsOneLine (f : Field) : Prop where
  colon : colon ∉ f.name
  name : Text.lf ∉ f.name
  value : Text.lf ∉ f.value

/-- Whether a field can be read back: it has a line for itself, its name is in its
canonical spelling, and its value is trimmed. -/
structure Field.IsPrintable (f : Field) : Prop extends f.IsOneLine where
  canonical : canonicalName f.name = f.name
  trimmed : f.value.IsTrimmed

/-- Whether a message can be read back.  Nothing is asked of its body. -/
structure Message.IsPrintable (m : Message) : Prop where
  start : m.start.IsPrintable
  fields : ∀ f ∈ m.headers.fields, f.IsPrintable

/-! ### Fields -/

namespace Field

/-- What is read of a field that was written. -/
def reread (f : Field) : Field := ⟨canonicalName f.name, Text.trim (32 :: f.value)⟩

theorem IsPrintable.reread {f : Field} (h : f.IsPrintable) : f.reread = f := by
  have hblank : Text.isBlank 32 = true := by decide
  rw [Field.reread, h.canonical, h.trimmed.trim_cons_blank hblank]

/-- The line of a field, without its end. -/
def line (f : Field) : Text := f.name ++ colon :: 32 :: f.value

theorem toText_eq (f : Field) : f.toText = f.line ++ Text.cr :: [Text.lf] := by
  simp [toText, line, crlf, ascii, colon]

theorem IsOneLine.lf_not_mem {f : Field} (h : f.IsOneLine) : Text.lf ∉ f.line ++ [Text.cr] := by
  have hcolon : Text.lf ≠ Sip.colon := by decide
  have hspace : Text.lf ≠ 32 := by decide
  have hcr : Text.lf ≠ Text.cr := by decide
  simp [line, h.name, h.value, hcolon, hspace, hcr]

end Field

/-! ### Lines -/

namespace Rest

variable {s line rest name value : Text}

theorem read_nil : read [] = ⟨[], [], []⟩ := by
  rw [read]
  rfl

/-- An empty line ends the fields. -/
theorem read_of_blank (h : s.line? = some (line, rest)) (hblank : line.dropCr = []) :
    read s = ⟨[], [], rest⟩ := by
  rw [read]
  split
  · next hnone => simp [h] at hnone
  · next hsome =>
    obtain ⟨rfl, rfl⟩ := Prod.mk.inj (Option.some.inj (h.symm.trans hsome))
    simp [hblank]

/-- A line with a colon is a field. -/
theorem read_of_cut (h : s.line? = some (line, rest))
    (hcut : Text.cutAtByte? colon line.dropCr = some (name, value)) :
    read s = { read rest with fields := ⟨canonicalName name, value.trim⟩ :: (read rest).fields } := by
  have hline : line.dropCr.isEmpty = false := by
    rw [(Text.eq_of_cutAtByte? hcut).1]
    simp
  rw [read]
  split
  · next hnone => simp [h] at hnone
  · next hsome =>
    obtain ⟨rfl, rfl⟩ := Prod.mk.inj (Option.some.inj (h.symm.trans hsome))
    simp only [hline, Bool.false_eq_true, if_false, hcut]

/-- A line without one is skipped. -/
theorem read_of_no_cut (h : s.line? = some (line, rest)) (hne : line.dropCr ≠ [])
    (hcut : Text.cutAtByte? colon line.dropCr = none) :
    read s = { read rest with skipped := line.dropCr :: (read rest).skipped } := by
  rw [read]
  split
  · next hnone => simp [h] at hnone
  · next hsome =>
    obtain ⟨rfl, rfl⟩ := Prod.mk.inj (Option.some.inj (h.symm.trans hsome))
    simp [hne, hcut]

end Rest

/-- The empty line ends the fields. -/
theorem Rest.read_crlf (body : Text) : Rest.read (crlf ++ body) = ⟨[], [], body⟩ :=
  Rest.read_of_blank (Text.line?_append (l := [Text.cr]) (by decide) body) (by decide)

/-- A field is found in its line. -/
theorem Rest.read_field {f : Field} (h : f.IsOneLine) (rest : Text) :
    Rest.read (f.toText ++ rest)
      = { Rest.read rest with fields := f.reread :: (Rest.read rest).fields } := by
  have hline : Text.line? (f.toText ++ rest) = some (f.line ++ [Text.cr], rest) := by
    have htext : f.toText ++ rest = (f.line ++ [Text.cr]) ++ Text.lf :: rest := by
      simp [Field.toText_eq]
    rw [htext, Text.line?_append h.lf_not_mem]
  have hcut : Text.cutAtByte? colon (f.line ++ [Text.cr]).dropCr = some (f.name, 32 :: f.value) := by
    rw [Text.dropCr_concat]
    exact Text.cutAtByte?_append h.colon _
  exact Rest.read_of_cut hline hcut

/-- **The fields and the body are found**, whatever the body is. -/
theorem Rest.read_fields {fs : List Field} (h : ∀ f ∈ fs, f.IsOneLine) (body : Text) :
    Rest.read (fs.flatMap Field.toText ++ (crlf ++ body)) = ⟨fs.map Field.reread, [], body⟩ := by
  induction fs with
  | nil => exact Rest.read_crlf body
  | cons f fs ih =>
    obtain ⟨hf, hfs⟩ := List.forall_mem_cons.mp h
    rw [List.flatMap_cons, List.append_assoc, Rest.read_field hf, ih hfs]
    rfl

/-! ### Start lines -/

/-- A start line without its end. -/
def Start.line : Start → Text
  | .request method uri => method.name ++ 32 :: (uri ++ 32 :: version)
  | .response code reason => version ++ 32 :: (Text.signed code ++ 32 :: reason)

theorem Start.toText_eq (s : Start) : s.toText = s.line ++ crlf := by
  cases s with
  | request method uri => simp [toText, line, ascii]
  | response code reason => simp [toText, line, ascii]

namespace Method

/-- A method's name is a word, and is told apart from the version by its first letter. -/
theorem name_isWord (m : Method) :
    m.name ≠ [] ∧ (∀ b ∈ m.name, Text.isSpace b = false) ∧ ∃ b, m.name.head? = some b ∧ b ≠ 83 := by
  cases m with
  | _ => exact ⟨by decide, by simpa using List.any_eq_false.mp (by rfl), _, rfl, by decide⟩

/-- A method is found by its name. -/
theorem ofName_name (m : Method) : ofName m.name = m := by
  cases m with
  | _ => decide

end Method

theorem isWord_version : version ≠ [] ∧ ∀ b ∈ version, Text.isSpace b = false :=
  ⟨by decide, by simpa using List.any_eq_false.mp (by rfl)⟩

/-- The words of a request line are its method, its address and the version. -/
theorem Start.read_request (method : Method) {uri : Text} (hne : uri ≠ [])
    (huri : ∀ b ∈ uri, Text.isSpace b = false) :
    Start.read (Start.request method uri).line = .ok (.request method uri) := by
  obtain ⟨hmne, hmword, c, hc, hnot⟩ := method.name_isWord
  have hspace : ∀ rest : Text, ∀ b ∈ (32 :: rest : Text).head?, Text.isSpace b = true := by
    intro rest b hb
    obtain rfl : 32 = b := by simpa using hb
    decide
  have hmethod := Text.word_append hmne hmword (hspace (uri ++ 32 :: version))
  have haddress : Text.word (32 :: (uri ++ 32 :: version)) = (uri, 32 :: version) := by
    rw [Text.word_cons_space (by decide), Text.word_append hne huri (hspace version)]
  have hversion : Text.word (32 :: version) = (version, []) := by decide
  have hline : ¬(Start.request method uri).line.isEmpty = true := by simp [Start.line]
  have hother : ¬Text.startsWith (Start.request method uri).line version = true := by
    obtain ⟨a, rest, hname⟩ := List.exists_cons_of_ne_nil hmne
    have ha : ¬(83 : UInt8) = a := by
      rw [hname, List.head?_cons, Option.some.injEq] at hc
      exact fun h => hnot (hc ▸ h.symm)
    rw [Start.line, hname]
    simp [Text.startsWith, version, ascii, Text.stripLeading?, ha]
  rw [Start.read, if_neg hline, if_neg hother]
  simp only [Start.line, hmethod, haddress, hversion, Method.ofName_name]
  simp [hne]

/-- A response line begins with the version, its code follows, and the reason is what
remains. -/
theorem Start.read_response {code : Int} {reason : Text} (hcode : 100 ≤ code ∧ code ≤ 699)
    (rest : Text) (hrest : ∀ b ∈ rest.head?, Text.isDigit b = false)
    (hreason : rest.trim = reason) :
    Start.read (version ++ 32 :: (Text.signed code ++ rest)) = .ok (.response code reason) := by
  obtain ⟨n, rfl⟩ := Int.eq_ofNat_of_zero_le (by omega : 0 ≤ code)
  have hspace : ∀ b ∈ (32 :: (Text.signed n ++ rest) : Text).head?, Text.isSpace b = true := by
    intro b hb
    obtain rfl : 32 = b := by simpa using hb
    decide
  have hversion := Text.word_append isWord_version.1 isWord_version.2 hspace
  have hnumber : Text.readInt (32 :: (Text.signed n ++ rest)) = ((n : Int), rest) := by
    rw [Text.readInt_cons_space (by decide), Text.signed_natCast,
      Text.readInt_decimal (by omega) hrest]
  have hline : ¬(version ++ 32 :: (Text.signed n ++ rest)).isEmpty = true := by
    simp [version, ascii]
  have hstarts : Text.startsWith (version ++ 32 :: (Text.signed n ++ rest)) version = true := by
    simp [Text.startsWith, version, ascii, Text.stripLeading?]
  have hrange : ¬((n : Int) < 100 ∨ 699 < (n : Int)) := by omega
  rw [Start.read, if_neg hline, if_pos hstarts]
  simp only [hversion, hnumber, if_neg hrange, hreason]

/-- **A start line is read back**, with the carriage return that ends it. -/
theorem Start.read_line {s : Start} (h : s.IsPrintable) :
    Start.read (s.line ++ [Text.cr]).trim = .ok s := by
  cases s with
  | request method uri =>
    obtain ⟨hne, huri⟩ := h
    have htrimmed : (Start.request method uri).line.IsTrimmed := by
      refine ⟨fun b hb => ?_, fun b hb => ?_⟩
      · obtain ⟨hmne, hmword, -⟩ := method.name_isWord
        rw [Start.line, List.head?_append_of_ne_nil _ hmne] at hb
        exact Text.not_isBlank_of_not_isSpace (hmword b (List.mem_of_mem_head? hb))
      · have hlast : (Start.request method uri).line.getLast? = some 48 := by
          rw [Start.line, List.getLast?_append_of_ne_nil _ (by simp), ← List.cons_append,
            List.getLast?_append_of_ne_nil _ (by simp)]
          decide
        obtain rfl : 48 = b := by simpa [hlast] using hb
        decide
    rw [Text.trim_append_cr htrimmed]
    exact Start.read_request method hne huri
  | response code reason =>
    obtain ⟨hcode, -, hreason⟩ := h
    have hhead : ∀ rest : Text, ∀ b ∈ (version ++ rest : Text).head?, Text.isBlank b = false := by
      intro rest b hb
      obtain rfl : 83 = b := by simpa [version, ascii] using hb
      decide
    by_cases hempty : reason = []
    · -- the space after the code is dropped together with the carriage return
      subst hempty
      have hdigits : Text.signed code ≠ [] ∧ ∀ b ∈ Text.signed code, Text.isDigit b = true := by
        obtain ⟨n, rfl⟩ := Int.eq_ofNat_of_zero_le (by omega : 0 ≤ code)
        rw [Text.signed_natCast]
        exact ⟨Text.decimal_ne_nil n, fun b hb => Text.isDigit_of_mem_decimal hb⟩
      have htrim : ((Start.response code []).line ++ [Text.cr]).trim
          = version ++ 32 :: (Text.signed code ++ []) := by
        have hlast : ∀ b ∈ (version ++ 32 :: Text.signed code).getLast?,
            Text.isLineEnd b = false := by
          intro b hb
          have hmem : b ∈ Text.signed code := by
            rw [List.getLast?_append_of_ne_nil _ (by simp), List.getLast?_cons,
              List.getLast?_eq_some_getLast hdigits.1] at hb
            obtain rfl : _ = b := by simpa using hb
            exact List.getLast_mem hdigits.1
          exact Text.not_isLineEnd_of_isDigit (hdigits.2 b hmem)
        have hline : (Start.response code []).line ++ [Text.cr]
            = ((version ++ 32 :: Text.signed code) ++ [32]) ++ [Text.cr] := by
          simp [Start.line]
        rw [hline, List.append_nil, Text.trim_of_head, List.rdropWhile_concat_pos _ _ _ (by decide),
          List.rdropWhile_concat_pos _ _ _ (by decide), Text.rdropWhile_eq_self hlast]
        rw [List.append_assoc, List.append_assoc]
        exact hhead _
      rw [htrim]
      exact Start.read_response hcode [] (by simp) rfl
    · have htrimmed : (Start.response code reason).line.IsTrimmed := by
        refine ⟨hhead _, fun b hb => hreason.last b ?_⟩
        rw [Start.line, List.getLast?_append_of_ne_nil _ (by simp), List.getLast?_cons,
          List.getLast?_append_of_ne_nil _ (by simp), List.getLast?_cons] at hb
        rw [List.getLast?_eq_some_getLast hempty] at hb ⊢
        simpa using hb
      rw [Text.trim_append_cr htrimmed]
      refine Start.read_response hcode (32 :: reason) ?_ (hreason.trim_cons_blank (by decide))
      intro b hb
      obtain rfl : 32 = b := by simpa using hb
      decide

theorem Start.lf_not_mem {s : Start} (h : s.IsPrintable) : Text.lf ∉ s.line ++ [Text.cr] := by
  have hspace : Text.isSpace Text.lf = true := by decide
  have hblank : Text.lf ≠ 32 := by decide
  have hcr : Text.lf ≠ Text.cr := by decide
  have hword : ∀ w : Text, (∀ b ∈ w, Text.isSpace b = false) → Text.lf ∉ w :=
    fun w hw hmem => absurd hspace (by simp [hw _ hmem])
  have hversion := hword version isWord_version.2
  cases s with
  | request method uri =>
    have hmethod := hword method.name method.name_isWord.2.1
    simp [line, hmethod, hword uri h.2, hversion, hblank, hcr]
  | response code reason =>
    have hcode : Text.lf ∉ Text.signed code := by
      obtain ⟨n, rfl⟩ := Int.eq_ofNat_of_zero_le (by have := h.1.1; omega : 0 ≤ code)
      rw [Text.signed_natCast]
      exact hword _ fun b hb => Text.not_isSpace_of_isDigit (Text.isDigit_of_mem_decimal hb)
    simp [line, hversion, hcode, h.2.1, hblank, hcr]

/-! ### Messages -/

namespace Message

/-- A message with a field for the length of its body, unless it has one. -/
def withLength (m : Message) : Message :=
  if m.headers.has contentLength then m
  else m.withHeaders (·.add contentLength (Text.decimal m.body.length))

/-- What is read of a message that was written. -/
def reread (m : Message) : Message :=
  { m with headers := ⟨m.withLength.headers.fields.map Field.reread⟩ }

/-- Reading a start line and what follows it. -/
theorem parse_append {line : Text} (hline : Text.lf ∉ line) (rest : Text) {start : Start}
    (hstart : Start.read line.trim = .ok start) :
    parse (line ++ Text.lf :: rest)
      = .ok ⟨start, ⟨(Rest.read rest).fields⟩, (Rest.read rest).body⟩ := by
  simp only [parse, splitStart, Text.line?_append hline, Option.getD_some, hstart]

theorem start_withLength (m : Message) : m.withLength.start = m.start := by
  unfold withLength
  split
  · rfl
  · rfl

theorem body_withLength (m : Message) : m.withLength.body = m.body := by
  unfold withLength
  split
  · rfl
  · rfl

/-- The field that is added has its canonical spelling, and its value is a number. -/
theorem fields_withLength (m : Message) :
    m.withLength.headers.fields = m.headers.fields
      ++ if m.headers.has contentLength then []
        else [⟨contentLength, Text.decimal m.body.length⟩] := by
  have hcanonical : canonicalName contentLength = contentLength := by decide
  unfold withLength
  split
  · exact (List.append_nil _).symm
  · rw [withHeaders, Headers.add, hcanonical]

/-- A message is written with the length of its body. -/
theorem toText_eq (m : Message) :
    m.toText = (m.start.line ++ [Text.cr]) ++ Text.lf
      :: (m.withLength.headers.fields.flatMap Field.toText ++ (crlf ++ m.body)) := by
  rw [toText, Start.toText_eq, fields_withLength]
  split
  · simp [crlf]
  · simp [crlf]

theorem isPrintable_length (n : Nat) : Field.IsPrintable ⟨contentLength, Text.decimal n⟩ := by
  have hname : colon ∉ contentLength ∧ Text.lf ∉ contentLength := by decide
  have hcanonical : canonicalName contentLength = contentLength := by decide
  have hdigit : ∀ b ∈ Text.decimal n, Text.isDigit b = true :=
    fun b hb => Text.isDigit_of_mem_decimal hb
  refine ⟨⟨hname.1, hname.2, ?_⟩, hcanonical, fun b hb => ?_, fun b hb => ?_⟩
  · intro hlf
    exact absurd (hdigit _ hlf) (by decide)
  · exact Text.not_isBlank_of_isDigit (hdigit b (List.mem_of_mem_head? hb))
  · exact Text.not_isLineEnd_of_isDigit (hdigit b (List.mem_of_mem_getLast? hb))

/-- What holds of all fields and of the length holds of all fields with the length. -/
theorem forall_fields_withLength {m : Message} {p : Field → Prop} (h : ∀ f ∈ m.headers.fields, p f)
    (hlength : p ⟨contentLength, Text.decimal m.body.length⟩) :
    ∀ f ∈ m.withLength.headers.fields, p f := by
  intro f hf
  rw [fields_withLength, List.mem_append] at hf
  rcases hf with hf | hf
  · exact h f hf
  · split at hf
    · exact absurd hf List.not_mem_nil
    · exact List.mem_singleton.mp hf ▸ hlength

/-- **What is read of a message that was written**: each field, as it is found in its
line, and the body as it is. -/
theorem parse_toText_eq_reread {m : Message} (hstart : m.start.IsPrintable)
    (hfields : ∀ f ∈ m.headers.fields, f.IsOneLine) : parse m.toText = .ok m.reread := by
  have hlines := forall_fields_withLength hfields (isPrintable_length m.body.length).toIsOneLine
  rw [toText_eq, parse_append (Start.lf_not_mem hstart) _ (Start.read_line hstart),
    Rest.read_fields hlines]
  rfl

/-- Fields that can be printed are read as they are. -/
theorem reread_eq {m : Message} (h : ∀ f ∈ m.headers.fields, f.reread = f) :
    m.reread = m.withLength := by
  have hfields : ∀ f ∈ m.withLength.headers.fields, f.reread = f :=
    forall_fields_withLength h (isPrintable_length m.body.length).reread
  rw [reread, List.map_congr_left hfields, List.map_id']
  rw [← start_withLength m, ← body_withLength m]

/-- **A message that can be printed is read back**, whatever its body is.  Where no field
gave the length of the body, there is one more, behind the others. -/
theorem parse_toText {m : Message} (h : m.IsPrintable) : parse m.toText = .ok m.withLength := by
  rw [parse_toText_eq_reread h.start fun f hf => (h.fields f hf).toIsOneLine]
  rw [reread_eq fun f hf => (h.fields f hf).reread]

/-- A response without a reason, with a field that stands twice, an empty value and an empty
name, and a body that looks like fields. -/
theorem parse_toText_lookalike :
    let m : Message := ⟨.response 200 [], ⟨[⟨"Via", "a:b"⟩, ⟨"Via", []⟩, ⟨[], "c"⟩]⟩,
      ascii "Content-Length: 9\r\n\r\n" ++ [0]⟩
    m.IsPrintable ∧ parse m.toText = .ok ⟨.response 200 [],
      ⟨[⟨"Via", "a:b"⟩, ⟨"Via", []⟩, ⟨[], "c"⟩, ⟨"Content-Length", "22"⟩]⟩,
      ascii "Content-Length: 9\r\n\r\n" ++ [0]⟩ := by
  intro m
  have hfield : ∀ f ∈ m.headers.fields, (colon ∉ f.name ∧ Text.lf ∉ f.name ∧ Text.lf ∉ f.value)
      ∧ canonicalName f.name = f.name ∧ (∀ b ∈ f.value.head?, Text.isBlank b = false)
      ∧ ∀ b ∈ f.value.getLast?, Text.isLineEnd b = false := by decide +kernel
  have hm : m.IsPrintable := by
    refine ⟨⟨by decide, by decide, .nil⟩, fun f hf => ?_⟩
    obtain ⟨⟨hcolon, hname, hvalue⟩, hcanonical, hhead, hlast⟩ := hfield f hf
    exact ⟨⟨hcolon, hname, hvalue⟩, hcanonical, hhead, hlast⟩
  have hlength : Text.decimal m.body.length = "22" := by
    change Text.decimal 22 = _
    rw [Text.decimal_of_le (by omega), Text.decimal_of_lt (by omega)]
    decide
  refine ⟨hm, (parse_toText hm).trans ?_⟩
  rw [withLength, if_neg (by decide), hlength]
  rfl

end Message

end FileSharing.Sip
