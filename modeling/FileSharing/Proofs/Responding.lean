import FileSharing.Proofs.Answering
import FileSharing.Proofs.Peers

/-!
# Responses of a dialog

A final response says which end of the dialog it comes from: where the request's field for the
receiver has no tag, the dialog appends its own.  The tag is searched for in the field as a whole,
and the first one counts.  So a field that has a tag parameter without a value gets another one,
which is never found.

## Main results

* `Dialog.tagOf_answeredReceiver` — the tag of a final response.
* `Dialog.addressOf_answeredReceiver` — the address stays.
* `Dialog.respond_identifies_iff` — **a final response identifies the dialog's end exactly if the
  request has no tag parameter without a value**, and repeats what else there is to repeat.
-/

namespace FileSharing.Sip.Dialog

variable {d : Dialog} {m : Message} {code : Int}

/-- Whether the field of a receiver has a tag parameter, but one without a value. -/
def HasEmptyTag (receiver : Text) : Prop := ascii ";tag=" <:+: receiver ∧ tagOf receiver = []

/-- The field that is written for the receiver is the one that is found. -/
theorem receiver_respond (d : Dialog) (m : Message) (code : Int) :
    (d.respond m code).headers.receiver = d.answeredReceiver m.headers.receiver code :=
  Headers.get_set_self ..

/-- A provisional response leaves the field as it is. -/
theorem answeredReceiver_of_provisional (d : Dialog) (receiver : Text) (hcode : code < 200) :
    d.answeredReceiver receiver code = receiver := by
  apply if_neg
  rintro ⟨hfinal, -⟩
  omega

/-- A final response has the tag that is found in the request, empty as it may be, and the
dialog's own where the request has no tag parameter. -/
theorem tagOf_answeredReceiver (htag : ∀ b ∈ d.localTag, Text.isHexDigit b = true)
    (hcode : 200 ≤ code) (receiver : Text) :
    (ascii ";tag=" <:+: receiver →
      tagOf (d.answeredReceiver receiver code) = tagOf receiver) ∧
    (¬ascii ";tag=" <:+: receiver → tagOf (d.answeredReceiver receiver code) = d.localTag) := by
  unfold answeredReceiver
  constructor
  · intro hfound
    split
    · exact tagOf_append_of_tag hfound d.localTag
    · rfl
  · intro hno
    have hempty : tagOf receiver = [] := isTagOf_iff.mp (.missing hno)
    rw [if_pos ⟨hcode, by simp [hempty]⟩, tagOf_append_of_no_tag hno]
    exact isTagOf_iff.mp (isTagOf_of_hex htag)

/-- The address of the receiver stays as it is. -/
theorem addressOf_answeredReceiver (htag : ∀ b ∈ d.localTag, Text.isHexDigit b = true)
    (receiver : Text) (code : Int) :
    addressOf (d.answeredReceiver receiver code) = addressOf receiver := by
  unfold answeredReceiver
  split
  · have hbracket : ∀ b, Text.isHexDigit b = false → b ∉ ascii "tag=" →
        b ∉ ascii "tag=" ++ d.localTag := by
      intro b hdigit hword hmem
      rcases List.mem_append.mp hmem with hmem | hmem
      · exact hword hmem
      · exact absurd (htag b hmem) (by simp [hdigit])
    rw [append_tag_eq]
    exact addressOf_append (hbracket 60 (by decide) (by decide))
      (hbracket 62 (by decide) (by decide)) receiver
  · rfl

/-- The tag of a final response is the request's, or else the dialog's, exactly if the request has
no tag parameter without a value. -/
theorem tagOf_answeredReceiver_iff (hne : d.localTag ≠ [])
    (htag : ∀ b ∈ d.localTag, Text.isHexDigit b = true) (hcode : 200 ≤ code) (receiver : Text) :
    tagOf (d.answeredReceiver receiver code)
        = (if tagOf receiver = [] then d.localTag else tagOf receiver)
      ↔ ¬HasEmptyTag receiver := by
  obtain ⟨hfound, hmissing⟩ := tagOf_answeredReceiver htag hcode receiver
  by_cases hheld : ascii ";tag=" <:+: receiver
  · rw [hfound hheld]
    by_cases hempty : tagOf receiver = []
    · -- the response has no tag either, and the dialog has one
      rw [if_pos hempty, hempty]
      exact iff_of_false hne.symm fun h => h ⟨hheld, hempty⟩
    · rw [if_neg hempty]
      exact iff_of_true rfl fun h => hempty h.2
  · have hempty : tagOf receiver = [] := isTagOf_iff.mp (.missing hheld)
    rw [hmissing hheld, if_pos hempty]
    exact iff_of_true rfl fun h => hheld h.1

/-- The response repeats the Via fields of a request that was read, in any spelling and in
order. -/
theorem values_via_respond {t : Text} (hm : Message.parse t = .ok m) (d : Dialog) (code : Int) :
    (d.respond m code).headers.values "Via" = m.headers.values "Via" := by
  rw [← Headers.vias_eq_values (isCanonical_respond d m code), vias_respond,
    Headers.vias_eq_values (Headers.isCanonical_parse hm)]

/-- **A final response identifies the dialog's end of a request that was read**: its receiver has
the tag that the request has, or the dialog's where the request has none, exactly if the request
has no tag parameter without a value.  A provisional response repeats the receiver as it is.  The
address of the receiver stays, and so do the Via values, the sender, the call and the sequence
number. -/
theorem respond_identifies_iff {t : Text} (hm : Message.parse t = .ok m) (hne : d.localTag ≠ [])
    (htag : ∀ b ∈ d.localTag, Text.isHexDigit b = true) (code : Int) :
    let r := d.respond m code
    r.start = .response code (reasonFor code) ∧
      (200 ≤ code →
        (tagOf r.headers.receiver
            = (if tagOf m.headers.receiver = [] then d.localTag else tagOf m.headers.receiver)
          ↔ ¬HasEmptyTag m.headers.receiver)) ∧
      (code < 200 → r.headers.receiver = m.headers.receiver) ∧
      addressOf r.headers.receiver = addressOf m.headers.receiver ∧
      r.headers.values "Via" = m.headers.values "Via" ∧ r.Echoes m := by
  intro r
  have hreceiver : r.headers.receiver = d.answeredReceiver m.headers.receiver code :=
    receiver_respond d m code
  rw [hreceiver]
  refine ⟨rfl, fun hcode => ?_, fun hcode => ?_, ?_, values_via_respond hm d code,
    echoes_respond d m code⟩
  · exact tagOf_answeredReceiver_iff hne htag hcode m.headers.receiver
  · exact answeredReceiver_of_provisional d m.headers.receiver hcode
  · exact addressOf_answeredReceiver htag m.headers.receiver code

/-- A dialog whose tag is `0a`. -/
def tagged : Dialog := start "c" "sip:b" "sip:a" "0a" [] 1

theorem tagged_localTag :
    tagged.localTag ≠ [] ∧ ∀ b ∈ tagged.localTag, Text.isHexDigit b = true := by
  decide +kernel

/-- A request that has come over two stations, and names its receiver without a tag. -/
def untagged : Text :=
  "INVITE sip:b SIP/2.0\nv: p\nVia: q\nFrom: <sip:a>;tag=r\nTo: B <sip:b>;x=1\nCSeq: 1 INVITE\n\n"

/-- What is read of it. -/
def untaggedRequest : Message :=
  ⟨.request .invite "sip:b", ⟨[⟨"Via", "p"⟩, ⟨"Via", "q"⟩, ⟨"From", "<sip:a>;tag=r"⟩,
    ⟨"To", "B <sip:b>;x=1"⟩, ⟨"CSeq", "1 INVITE"⟩]⟩, []⟩

/-- It is declined with the dialog's tag, over both stations. -/
theorem respond_identifies_iff_untagged :
    Message.parse untagged = .ok untaggedRequest ∧
      (tagged.localTag ≠ [] ∧ ∀ b ∈ tagged.localTag, Text.isHexDigit b = true) ∧
      let r := tagged.respond untaggedRequest 603
      tagOf r.headers.receiver = ascii "0a" ∧ addressOf r.headers.receiver = ascii "sip:b" ∧
        r.headers.values "Via" = [ascii "p", ascii "q"] ∧
        r.headers.sender = ascii "<sip:a>;tag=r" := by
  have hread : Message.parse untagged = .ok untaggedRequest := by decide +kernel
  obtain ⟨hne, htag⟩ := tagged_localTag
  have hno : ¬HasEmptyTag untaggedRequest.headers.receiver := by
    intro h
    exact absurd h.1 (by decide +kernel)
  have hmissing : tagOf untaggedRequest.headers.receiver = [] := by decide +kernel
  obtain ⟨-, hfinal, -, haddress, hvias, hechoes⟩ := respond_identifies_iff hread hne htag 603
  refine ⟨hread, tagged_localTag, ?_, ?_, ?_, ?_⟩
  · have htagged := (hfinal (by decide)).mpr hno
    rwa [if_pos hmissing] at htagged
  · rw [haddress]
    decide +kernel
  · rw [hvias]
    decide +kernel
  · rw [hechoes.sender]
    decide +kernel

/-- A request whose receiver has a tag parameter without a value. -/
def emptyTagged : Text :=
  "BYE sip:b SIP/2.0\nFrom: <sip:a>;tag=r\nTo: <sip:b>;tag=\nCSeq: 2 BYE\n\n"

/-- What is read of it. -/
def emptyTaggedRequest : Message :=
  ⟨.request .bye "sip:b", ⟨[⟨"From", "<sip:a>;tag=r"⟩, ⟨"To", "<sip:b>;tag="⟩,
    ⟨"CSeq", "2 BYE"⟩]⟩, []⟩

/-- No tag is found in the request, and none in the response that carries the dialog's. -/
theorem not_respond_identifies_emptyTagged :
    Message.parse emptyTagged = .ok emptyTaggedRequest ∧
      (tagged.localTag ≠ [] ∧ ∀ b ∈ tagged.localTag, Text.isHexDigit b = true) ∧
      tagOf emptyTaggedRequest.headers.receiver = [] ∧
      let r := tagged.respond emptyTaggedRequest 200
      r.headers.receiver = ascii "<sip:b>;tag=;tag=0a" ∧ tagOf r.headers.receiver = [] ∧
        tagOf r.headers.receiver ≠ tagged.localTag := by
  refine ⟨by decide +kernel, tagged_localTag, ?_⟩
  decide +kernel

end FileSharing.Sip.Dialog
