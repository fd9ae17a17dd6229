import FileSharing.Proofs.Layout
import FileSharing.Proofs.Peers

/-!
# The numbers of requests

A dialog counts the requests that end it: each one has the number after that of the one before,
and the dialog keeps the last.  Nothing else that is done with a dialog changes it.  A number has
32 bits, and after the largest one comes zero.  So the numbers increase as long as there are that
many left.

The number is written behind the call and the parties.  It is found there again unless these hold
a line that ends the header, or says a number itself.

## Main definitions

* `Dialog.Use`, `Dialog.requests` — what is done with a dialog, and the requests that end it.
* `Dialog.opening`, `Dialog.IsFramed` — what is written before the number of a request, and
  whether the number is found behind it.

## Main results

* `Dialog.isChain_numbers` — the numbers increase exactly as long as they have 32 bits.
* `Dialog.isFramed_iff` — the number is found exactly if the text before it lets it be.
* `Dialog.numbers_increase_iff` — **both together, for whatever is done with a dialog.**
-/

namespace FileSharing.Sip

open Layout

/-- The sequence number of a message. -/
def Message.cseqNumber (m : Message) : UInt32 := m.headers.cseqNumber

namespace Dialog

variable {d : Dialog}

/-! ### Numbers -/

/-- What is done with a dialog. -/
inductive Use where
  /-- It is ended. -/
  | bye
  /-- A request is responded to. -/
  | respond (request : Message) (code : Int)
  /-- Requests are to go to another address. -/
  | retarget (target : Text)
  deriving DecidableEq

/-- The requests that end a dialog, in order, each with the dialog right after it. -/
def requests (d : Dialog) : List Use → List (Message × Dialog)
  | [] => []
  | .bye :: uses => d.bye :: d.bye.2.requests uses
  | .respond _ _ :: uses => d.requests uses
  | .retarget target :: uses => { d with target := target }.requests uses

/-- There are as many of them as it was ended. -/
theorem length_requests (d : Dialog) (uses : List Use) :
    (d.requests uses).length = uses.count .bye := by
  induction uses generalizing d with
  | nil => rfl
  | cons use uses ih =>
    cases use with
    | bye =>
      rw [requests, List.length_cons, ih, List.count_cons_self]
    | respond request code =>
      rw [requests, ih, List.count_cons_of_ne (by simp)]
    | retarget target =>
      rw [requests, ih, List.count_cons_of_ne (by simp)]

/-- Each of them is the one of the dialog that has counted it. -/
theorem eq_byeRequest_of_mem {uses : List Use} {r : Message × Dialog} (hr : r ∈ d.requests uses) :
    r.1 = r.2.byeRequest := by
  induction uses generalizing d with
  | nil => exact absurd hr List.not_mem_nil
  | cons use uses ih =>
    cases use with
    | bye =>
      rcases List.mem_cons.mp hr with rfl | hr
      · rfl
      · exact ih hr
    | respond request code => exact ih hr
    | retarget target => exact ih hr

/-- A number is read before the name of the method. -/
theorem readNatural_number (n : UInt32) :
    Text.readNatural (Text.decimal n.toNat ++ (ascii " " ++ Method.bye.name)) = n := by
  apply Text.readNatural_decimal
  intro b hb
  obtain rfl : 32 = b := by simpa [ascii] using hb
  decide

/-- The number of such a request. -/
theorem cseqNumber_byeRequest (d : Dialog) : d.byeRequest.cseqNumber = d.cseq := by
  have hvalue : d.byeRequest.headers.cseq
      = Text.decimal d.cseq.toNat ++ (ascii " " ++ Method.bye.name) :=
    List.append_assoc ..
  rw [Message.cseqNumber, Headers.cseqNumber, hvalue]
  exact readNatural_number d.cseq

/-- The number that follows is larger unless there is none of 32 bits. -/
theorem lt_succ_iff (n : UInt32) : n < n + 1 ↔ n.toNat + 1 < 2 ^ 32 := by
  have hn : n.toNat < 2 ^ 32 := n.toNat_lt
  rw [UInt32.lt_iff_toNat_lt, UInt32.toNat_add, UInt32.toNat_one]
  omega

theorem toNat_succ {n : UInt32} (h : n.toNat + 1 < 2 ^ 32) : (n + 1).toNat = n.toNat + 1 := by
  rw [UInt32.toNat_add, UInt32.toNat_one, Nat.mod_eq_of_lt h]

/-- The numbers of a dialog increase, from the one that it has, exactly as long as they have 32
bits. -/
theorem isChain_numbers (d : Dialog) (uses : List Use) :
    (d.cseq :: (d.requests uses).map (·.1.cseqNumber)).IsChain (· < ·) ↔
      d.cseq.toNat + (d.requests uses).length < 2 ^ 32 := by
  induction uses generalizing d with
  | nil => exact iff_of_true (.singleton d.cseq) d.cseq.toNat_lt
  | cons use uses ih =>
    cases use with
    | bye =>
      have hnext := ih d.advance
      have hcseq : d.advance.cseq = d.cseq + 1 := rfl
      have hnumber : d.bye.1.cseqNumber = d.advance.cseq := cseqNumber_byeRequest d.advance
      rw [requests, List.map_cons, List.length_cons, List.isChain_cons_cons, hnumber]
      constructor
      · rintro ⟨hlt, hchain⟩
        have hlast := hnext.mp hchain
        rw [hcseq, toNat_succ ((lt_succ_iff d.cseq).mp hlt)] at hlast
        change d.cseq.toNat + ((d.advance.requests uses).length + 1) < 2 ^ 32
        omega
      · intro hlast
        change d.cseq.toNat + ((d.advance.requests uses).length + 1) < 2 ^ 32 at hlast
        have hbound : d.cseq.toNat + 1 < 2 ^ 32 := by omega
        refine ⟨(lt_succ_iff d.cseq).mpr hbound, hnext.mpr ?_⟩
        rw [hcseq, toNat_succ hbound]
        omega
    | respond request code => exact ih d
    | retarget target => exact ih { d with target := target }

/-! ### What is written before a number -/

/-- The fields before the number of the request that ends a dialog. -/
def heading (d : Dialog) : List Field :=
  [⟨"Call-ID", d.callId⟩, ⟨"From", ascii "<" ++ d.localParty ++ ">;tag=" ++ d.localTag⟩,
    ⟨"To", partyField d.remoteParty d.remoteTag⟩]

/-- The fields from the number on. -/
def numbering (d : Dialog) : List Field :=
  [⟨"CSeq", Text.decimal d.cseq.toNat ++ " " ++ Method.bye.name⟩,
    ⟨contentLength, Text.decimal 0⟩]

/-- What is written before the line with the number, up to its line feed. -/
def opening (d : Dialog) : Text :=
  ((Start.request .bye d.target).line ++ [Text.cr])
    ++ join (d.heading.map fun f => f.line ++ [Text.cr]) []

/-- Whether the number of a request can be found behind what is written before it: that is a line
with which a message may start, and header lines, none of which says a number. -/
def IsFramed (d : Dialog) : Prop :=
  ∃ (first : Text) (lines : List Text), d.opening = first ++ join lines [] ∧ Text.lf ∉ first ∧
    (∀ line ∈ lines, IsHeader line) ∧ (∃ start, Start.read first.trim = .ok start) ∧
    ∀ line ∈ lines, ∀ f : Field, f.IsSaidBy line → f.hasKey (nameKey "CSeq") = false

end Dialog

/-- Fields are written as the lines that they are in. -/
theorem cons_flatMap_toText (fs : List Field) (rest : Text) :
    Text.lf :: (fs.flatMap Field.toText ++ rest)
      = join (fs.map fun f => f.line ++ [Text.cr]) [] ++ Text.lf :: rest := by
  induction fs with
  | nil => rfl
  | cons f fs ih =>
    rw [List.flatMap_cons, List.map_cons, join_cons, Field.toText_eq]
    simp [ih]

namespace Dialog

variable {d : Dialog} {first tail body : Text} {lines : List Text}

/-- What is written of the request that ends a dialog. -/
theorem toText_byeRequest (d : Dialog) :
    d.byeRequest.toText
      = d.opening ++ Text.lf :: (d.numbering.flatMap Field.toText ++ (crlf ++ [])) := by
  have hfields : d.byeRequest.withLength.headers.fields = d.heading ++ d.numbering := rfl
  have hbody : d.byeRequest.body = [] := rfl
  have hstart : d.byeRequest.start = .request .bye d.target := rfl
  rw [Message.toText_eq, hfields, hbody, hstart, List.flatMap_append,
    List.append_assoc (d.heading.flatMap Field.toText), cons_flatMap_toText, opening,
    List.append_assoc ((Start.request .bye d.target).line ++ [Text.cr])]

theorem isOneLine_numbering (d : Dialog) : ∀ f ∈ d.numbering, f.IsOneLine := by
  intro f hf
  simp only [numbering, List.mem_cons, List.not_mem_nil, or_false] at hf
  rcases hf with rfl | rfl
  · exact isOneLine_number d.cseq.toNat
  · exact (Message.isPrintable_length 0).toIsOneLine

/-- The number is found in its own line. -/
theorem cseqNumber_numbering (d : Dialog) :
    (⟨d.numbering.map Field.reread⟩ : Headers).cseqNumber = d.cseq := by
  let number := Text.decimal d.cseq.toNat
  have hvalue : (⟨d.numbering.map Field.reread⟩ : Headers).cseq
      = Text.trim (32 :: (number ++ ascii " " ++ Method.bye.name)) := rfl
  have htrimmed : (number ++ (ascii " " ++ Method.bye.name)).IsTrimmed := by
    constructor
    · intro b hb
      rw [List.head?_append_of_ne_nil _ (Text.decimal_ne_nil _)] at hb
      have hdigit := Text.isDigit_of_mem_decimal (List.mem_of_mem_head? hb)
      exact Text.not_isBlank_of_isDigit hdigit
    · intro b hb
      have hne : ascii " " ++ Method.bye.name ≠ [] := List.cons_ne_nil _ _
      have hlast : (ascii " " ++ Method.bye.name).getLast? = some 69 := rfl
      rw [List.getLast?_append_of_ne_nil _ hne, hlast] at hb
      obtain rfl : 69 = b := by simpa using hb
      decide
  rw [Headers.cseqNumber, hvalue, List.append_assoc, htrimmed.trim_cons_blank (by decide)]
  exact readNatural_number d.cseq

/-- Where the header is open before the number, its fields are part of the header. -/
theorem parse_of_open (hopening : d.opening = first ++ join lines []) (hfirst : Text.lf ∉ first)
    (hlines : ∀ line ∈ lines, IsHeader line) :
    Message.parse d.byeRequest.toText = (Start.read first.trim).map fun start =>
      ⟨start, ⟨lines.filterMap Field.said? ++ d.numbering.map Field.reread⟩, []⟩ := by
  have htext : d.byeRequest.toText = first ++ join lines
      (Text.lf :: (d.numbering.flatMap Field.toText ++ (crlf ++ []))) := by
    rw [toText_byeRequest, hopening]
    simp [join]
  rw [htext, Message.parse_join hfirst hlines (by simp), List.drop_one, List.tail_cons,
    Rest.read_fields (isOneLine_numbering d)]

/-- Where it is closed, they are part of the body. -/
theorem parse_of_closed (hopening : d.opening = first ++ join lines tail) (hfirst : Text.lf ∉ first)
    (hlines : ∀ line ∈ lines, IsHeader line) (htail : IsTail tail body) (hne : tail ≠ []) :
    ∃ body, Message.parse d.byeRequest.toText = (Start.read first.trim).map fun start =>
      ⟨start, ⟨lines.filterMap Field.said?⟩, body⟩ := by
  obtain ⟨body, hbody⟩ := htail.extend hne (d.numbering.flatMap Field.toText ++ (crlf ++ []))
  refine ⟨body, ?_⟩
  have htext : d.byeRequest.toText = first ++ join lines
      (tail ++ Text.lf :: (d.numbering.flatMap Field.toText ++ (crlf ++ []))) := by
    rw [toText_byeRequest, hopening]
    simp [join]
  rw [htext, Message.parse_join hfirst hlines hbody.head, Rest.read_tail hbody, List.append_nil]

/-- A number that is read before a dialog's own is read in its place. -/
theorem cseqNumber_append (fs gs : List Field) :
    (⟨fs ++ gs⟩ : Headers).cseqNumber
      = if (⟨fs⟩ : Headers).has "CSeq" then (⟨fs⟩ : Headers).cseqNumber
        else (⟨gs⟩ : Headers).cseqNumber := by
  unfold Headers.cseqNumber Headers.cseq
  rw [Headers.get_append]
  split
  · rfl
  · rfl

/-- Header lines hold a number if one of them says it. -/
theorem has_said_iff (lines : List Text) :
    (⟨lines.filterMap Field.said?⟩ : Headers).has "CSeq" = false ↔
      ∀ line ∈ lines, ∀ f : Field, f.IsSaidBy line → f.hasKey (nameKey "CSeq") = false := by
  rw [Headers.has, Headers.find?, Option.isSome_eq_false_iff, Option.isNone_iff_eq_none,
    List.find?_eq_none]
  constructor
  · intro h line hline f hf
    have hmem : f ∈ lines.filterMap Field.said? :=
      List.mem_filterMap.mpr ⟨line, hline, Field.said?_eq_some_iff.mpr hf⟩
    simpa using h f hmem
  · intro h f hf
    obtain ⟨line, hline, hsaid⟩ := List.mem_filterMap.mp hf
    simpa using h line hline f (Field.said?_eq_some_iff.mp hsaid)

/-- The number of a framed request is found. -/
theorem cseqNumber_parse (h : d.IsFramed) :
    (Message.parse d.byeRequest.toText).map Message.cseqNumber = .ok d.cseq := by
  obtain ⟨first, lines, hopening, hfirst, hlines, ⟨start, hstart⟩, hsaid⟩ := h
  have hnone := (has_said_iff lines).mpr hsaid
  rw [parse_of_open hopening hfirst hlines, hstart]
  show Except.ok (Headers.cseqNumber _) = _
  rw [cseqNumber_append, hnone, if_neg (by simp), cseqNumber_numbering]

/-- Where a request is not framed, the same is read whatever its number is. -/
theorem exists_read_of_not_framed (h : ¬d.IsFramed) :
    ∃ v : Except Failure UInt32, ∀ n,
      (Message.parse { d with cseq := n }.byeRequest.toText).map Message.cseqNumber = v := by
  obtain ⟨⟨first, lines, body⟩, ⟨tail, htail, hopening⟩, hfirst, hlines⟩ := exists_isOf d.opening
  let said : Headers := ⟨lines.filterMap Field.said?⟩
  by_cases hne : tail = []
  · -- the header is open: either there is no message, or a line before the number says one
    subst hne
    have hparse := fun n => parse_of_open (d := { d with cseq := n }) hopening hfirst hlines
    cases hstart : Start.read first.trim with
    | error f =>
      refine ⟨.error f, fun n => ?_⟩
      rw [hparse n, hstart]
      rfl
    | ok start =>
      have hhas : said.has "CSeq" = true := by
        by_contra hno
        have hsaid := (has_said_iff lines).mp (by simpa using hno)
        exact h ⟨first, lines, hopening, hfirst, hlines, ⟨start, hstart⟩, hsaid⟩
      refine ⟨.ok said.cseqNumber, fun n => ?_⟩
      rw [hparse n, hstart]
      show Except.ok (Headers.cseqNumber _) = _
      rw [cseqNumber_append, if_pos hhas]
  · -- the header is closed, and the number is part of the body
    refine ⟨(Start.read first.trim).map fun _ => said.cseqNumber, fun n => ?_⟩
    obtain ⟨body, hparse⟩ :=
      parse_of_closed (d := { d with cseq := n }) hopening hfirst hlines htail hne
    rw [hparse]
    cases Start.read first.trim with
    | error f => rfl
    | ok start => rfl

/-- **The number of a request is found exactly if it is framed**, whatever number it is. -/
theorem isFramed_iff (d : Dialog) :
    d.IsFramed ↔ ∀ n,
      (Message.parse { d with cseq := n }.byeRequest.toText).map Message.cseqNumber = .ok n := by
  constructor
  · intro h n
    have hn : { d with cseq := n }.IsFramed := h
    exact cseqNumber_parse hn
  · intro h
    by_contra hno
    obtain ⟨v, hv⟩ := exists_read_of_not_framed hno
    have hsame : (.ok 0 : Except Failure UInt32) = .ok 1 :=
      ((h 0).symm.trans (hv 0)).trans ((hv 1).symm.trans (h 1))
    exact absurd (Except.ok.inj hsame) (by decide)

/-- A request that can be printed is framed. -/
theorem IsPrintable.isFramed (h : d.IsPrintable) : d.IsFramed := by
  have hstart : (Start.request .bye d.target).IsPrintable := h.target
  have hheading : ∀ f ∈ d.heading, f.IsOneLine :=
    fun f hf => isOneLine_byeRequest h f (List.mem_append_left [_] hf)
  refine ⟨_, _, rfl, Start.lf_not_mem hstart, ?_, ⟨_, Start.read_line hstart⟩, ?_⟩
  · intro line hline
    obtain ⟨f, hf, rfl⟩ := List.mem_map.mp hline
    refine ⟨(hheading f hf).lf_not_mem, ?_⟩
    rw [Text.dropCr_concat]
    simp [Field.line]
  · intro line hline g hg
    obtain ⟨f, hf, rfl⟩ := List.mem_map.mp hline
    have hsaid := (Field.said?_eq_some_iff.mpr hg).symm.trans (Field.said?_line (hheading f hf))
    obtain rfl := Option.some.inj hsaid
    simp only [heading, List.mem_cons, List.not_mem_nil, or_false] at hf
    rcases hf with rfl | rfl | rfl
    · rfl
    · rfl
    · rfl

/-! ### The numbers of a dialog -/

/-- **The numbers of a dialog increase exactly as long as they have 32 bits**, in between whatever
else is done with it: each request has the number that the dialog has right after it, and all of
them are larger than the one that the dialog has to begin with.  A request that was written is read
with its number if it is framed, and it is framed if it can be printed.  Of a dialog that is not
framed, some number is not read. -/
theorem numbers_increase_iff (d : Dialog) (uses : List Use) :
    let sent := d.requests uses
    (∀ r ∈ sent, r.1.cseqNumber = r.2.cseq) ∧
      ((d.cseq :: sent.map (·.1.cseqNumber)).Pairwise (· < ·) ↔
        d.cseq.toNat + uses.count .bye < 2 ^ 32) ∧
      ∀ r ∈ sent, (r.2.IsPrintable → r.2.IsFramed) ∧
        (r.2.IsFramed →
          (Message.parse r.1.toText).map Message.cseqNumber = .ok r.1.cseqNumber) ∧
        (r.2.IsFramed ↔ ∀ n,
          (Message.parse { r.2 with cseq := n }.byeRequest.toText).map Message.cseqNumber
            = .ok n) := by
  intro sent
  have hnumber : ∀ r ∈ sent, r.1.cseqNumber = r.2.cseq := by
    intro r hr
    rw [eq_byeRequest_of_mem hr, cseqNumber_byeRequest]
  refine ⟨hnumber, ?_, fun r hr => ⟨IsPrintable.isFramed, fun hframed => ?_, isFramed_iff r.2⟩⟩
  · rw [← List.isChain_iff_pairwise, ← length_requests d uses]
    exact isChain_numbers d uses
  · rw [hnumber r hr, eq_byeRequest_of_mem hr]
    exact cseqNumber_parse hframed

/-- A dialog that has the largest number. -/
def lastNumbered : Dialog := start "c" "sip:me@x" "sip:you@x" "1a" "r" 4294967295

/-- The request that ends it has the number zero. -/
theorem not_numbers_increase_lastNumbered :
    (lastNumbered.requests [.bye]).map (·.1.cseqNumber) = [0] ∧
      (lastNumbered.requests [.bye]).map (·.2.cseq) = [0] ∧
      ¬(lastNumbered.cseq ::
        (lastNumbered.requests [.bye]).map (·.1.cseqNumber)).Pairwise (· < ·) := by
  have hnumbers : (lastNumbered.requests [.bye]).map (·.1.cseqNumber) = [0] :=
    congrArg (fun n => [n]) (cseqNumber_byeRequest lastNumbered.advance)
  refine ⟨hnumbers, rfl, ?_⟩
  rw [hnumbers]
  decide

end Dialog

end FileSharing.Sip
