import FileSharing.Proofs.Parties
import FileSharing.Proofs.Relaying

/-!
# Both sides of a dialog

The receiver of a request opens a dialog with what its fields say, and the request that ends the
dialog names both parties again.  The peer that reads it opens the same dialog, seen from the
other side: the call is the same, the parties change places, and the tag is the one that the
receiver has chosen.  Tags are an exception where an address holds what a tag begins with, since
the field of a party is then read as if the tag stood there.

## Main definitions

* `Dialog.IsPrintable` — a dialog whose request to end it can be read.

## Main results

* `Dialog.parse_bye` — the request that ends a dialog, as it is read.
* `Dialog.peer_sees_dialog` — **the peer sees the same dialog**, and the tags exactly if no
  address stands in the way.
-/

namespace FileSharing.Sip

variable {m : Message} {tag : Text}

/-- A value that was read is trimmed, and has no line feed. -/
theorem Message.get_of_parse {t : Text} (h : parse t = .ok m) (name : Text) :
    ∃ value : Text, Text.lf ∉ value ∧ m.headers.get name = value.trim := by
  unfold Headers.get Headers.find?
  cases hfind : m.headers.fields.find? (·.hasKey (nameKey name)) with
  | none => exact ⟨[], List.not_mem_nil, rfl⟩
  | some f =>
    obtain ⟨_, value, rfl, -, -, hlf⟩ := (of_parse h).2 f (List.mem_of_find?_eq_some hfind)
    exact ⟨value, hlf, rfl⟩

/-- A tag is part of the field that it is found in. -/
theorem mem_of_mem_tagOf {b : UInt8} {party : Text} (h : b ∈ tagOf party) : b ∈ party := by
  obtain ⟨tag, htag⟩ : ∃ tag, tagOf party = tag := ⟨_, rfl⟩
  rw [htag] at h
  cases isTagOf_iff.mpr htag with
  | found hcut _ _ =>
    rw [hcut.eq]
    exact List.mem_append_right _ (List.mem_append_left _ (Text.mem_of_mem_trim h))
  | missing _ => exact absurd h List.not_mem_nil

/-- The parties that a request which opens a dialog names, and where requests go. -/
structure Message.Names (m : Message) (sender receiver contact : Party) : Prop where
  sender : m.headers.sender = sender.field
  receiver : m.headers.receiver = receiver.field
  contact : m.headers.get "Contact" = contact.field

namespace Dialog

variable {d : Dialog}

/-! ### The request that ends a dialog -/

/-- Whether the request that ends a dialog can be read: it goes to a word, and no part of it holds
a line feed. -/
structure IsPrintable (d : Dialog) : Prop where
  target : d.target ≠ [] ∧ ∀ b ∈ d.target, Text.isSpace b = false
  callId : Text.lf ∉ d.callId
  localParty : Text.lf ∉ d.localParty
  remoteParty : Text.lf ∉ d.remoteParty
  localTag : Text.lf ∉ d.localTag
  remoteTag : Text.lf ∉ d.remoteTag

theorem fields_byeRequest (d : Dialog) :
    d.byeRequest.headers.fields
      = [⟨"Call-ID", d.callId⟩, ⟨"From", ascii "<" ++ d.localParty ++ ">;tag=" ++ d.localTag⟩,
        ⟨"To", partyField d.remoteParty d.remoteTag⟩,
        ⟨"CSeq", Text.decimal d.cseq.toNat ++ " " ++ Method.bye.name⟩] := rfl

/-- The field with the number has a line for itself. -/
theorem isOneLine_number (n : Nat) :
    Field.IsOneLine ⟨"CSeq", Text.decimal n ++ " " ++ Method.bye.name⟩ := by
  have hname : colon ∉ ascii "CSeq" ∧ Text.lf ∉ ascii "CSeq" := by decide
  have hmethod : Text.lf ∉ ascii " " ∧ Text.lf ∉ Method.bye.name := by decide
  have hnumber : Text.lf ∉ Text.decimal n :=
    fun hmem => absurd (Text.isDigit_of_mem_decimal hmem) (by decide)
  exact ⟨hname.1, hname.2, by simp [hnumber, hmethod]⟩

theorem isOneLine_byeRequest (h : d.IsPrintable) :
    ∀ f ∈ d.byeRequest.headers.fields, f.IsOneLine := by
  have hname : ∀ name ∈ [ascii "Call-ID", ascii "From", ascii "To"],
      colon ∉ name ∧ Text.lf ∉ name := by decide
  have hliteral : ∀ s ∈ [ascii "<", ascii ">;tag=", ascii ">", ascii ";tag="],
      Text.lf ∉ s := by decide
  have hreceiver : Text.lf ∉ partyField d.remoteParty d.remoteTag := by
    unfold partyField
    split
    · simp [hliteral, h.remoteParty]
    · simp [hliteral, h.remoteParty, h.remoteTag]
  rw [fields_byeRequest]
  intro f hf
  simp only [List.mem_cons, List.not_mem_nil, or_false] at hf
  rcases hf with rfl | rfl | rfl | rfl
  · exact ⟨(hname _ (by simp)).1, (hname _ (by simp)).2, h.callId⟩
  · exact ⟨(hname _ (by simp)).1, (hname _ (by simp)).2,
      by simp [hliteral, h.localParty, h.localTag]⟩
  · exact ⟨(hname _ (by simp)).1, (hname _ (by simp)).2, hreceiver⟩
  · exact isOneLine_number d.cseq.toNat

/-- **The request that ends a dialog, as it is read.** -/
theorem parse_bye (h : d.IsPrintable) :
    Message.parse d.bye.1.toText = .ok d.advance.byeRequest.reread :=
  have hnext : d.advance.IsPrintable :=
    ⟨h.target, h.callId, h.localParty, h.remoteParty, h.localTag, h.remoteTag⟩
  Message.parse_toText_eq_reread hnext.target (isOneLine_byeRequest hnext)

/-- What is found in it. -/
theorem get_reread_byeRequest (d : Dialog) :
    d.byeRequest.reread.headers.callId = Text.trim (32 :: d.callId) ∧
    d.byeRequest.reread.headers.sender
      = Text.trim (32 :: (ascii "<" ++ d.localParty ++ ">;tag=" ++ d.localTag)) ∧
    d.byeRequest.reread.headers.receiver
      = Text.trim (32 :: partyField d.remoteParty d.remoteTag) :=
  ⟨rfl, rfl, rfl⟩

/-! ### The dialog that a request opens -/

variable {sender receiver contact : Party}

/-- The party that the request to end a dialog names as its sender. -/
theorem partyField_eq (x : Party) (tag : Text) :
    partyField x.address tag
      = (x.withParams (if tag.isEmpty then [] else ascii ";tag=" ++ tag)).field := rfl

theorem ofRequest_of_names (h : m.Names sender receiver contact) (tag : Text) :
    ofRequest m tag = ⟨m.headers.callId, receiver.address, sender.address, tag,
      tagOf sender.field, contact.address, 1⟩ := by
  have hcontact : contact.field.isEmpty = false := by simp [Party.field_eq]
  rw [ofRequest, h.contact, h.sender, h.receiver]
  simp [start, hcontact, Party.addressOf_field]

theorem isPrintable_ofRequest {t : Text} (hm : Message.parse t = .ok m)
    (h : m.Names sender receiver contact) (htag : ∀ b ∈ tag, Text.isHexDigit b = true) :
    (ofRequest m tag).IsPrintable := by
  have hspace : Text.isSpace Text.lf = true := by decide
  have hword : ∀ x : Party, Text.lf ∉ x.address :=
    fun x hmem => absurd hspace (by simp [x.word _ hmem])
  obtain ⟨callId, hcallId, hget⟩ := Message.get_of_parse hm "Call-ID"
  obtain ⟨party, hparty, hsender⟩ := Message.get_of_parse hm "From"
  rw [ofRequest_of_names h]
  refine ⟨⟨contact.ne_nil, contact.word⟩, ?_, hword receiver, hword sender, ?_, ?_⟩
  · rw [Headers.callId, hget]
    exact fun hmem => hcallId (Text.mem_of_mem_trim hmem)
  · exact fun hmem => absurd (Text.isHexDigit_spec (htag _ hmem)).1 (by simp [hspace])
  · -- the other party's tag is part of a line that was read
    intro hmem
    rw [← h.sender, Headers.sender, hsender] at hmem
    exact hparty (Text.mem_of_mem_trim (mem_of_mem_tagOf hmem))

/-- A tag that has been chosen does not end with a line end. -/
theorem getLast?_of_hex (htag : ∀ b ∈ tag, Text.isHexDigit b = true) :
    ∀ b ∈ tag.getLast?, Text.isLineEnd b = false := fun b hb =>
  Text.not_isLineEnd_of_not_isSpace (Text.isHexDigit_spec (htag b (List.mem_of_mem_getLast? hb))).1

/-- A party with a tag that has been chosen is read as it is written. -/
theorem trim_field_of_hex (x : Party) (hne : tag ≠ [])
    (htag : ∀ b ∈ tag, Text.isHexDigit b = true) :
    Text.trim (32 :: (ascii "<" ++ x.address ++ ">;tag=" ++ tag))
      = (x.withParams (ascii ";tag=" ++ tag)).field := by
  have hfield : ascii "<" ++ x.address ++ ">;tag=" ++ tag
      = (x.withParams (ascii ";tag=" ++ tag)).field := by
    simp [Party.field, Party.withParams, ascii]
  have hlast : ∀ b ∈ (ascii ";tag=" ++ tag).getLast?, Text.isLineEnd b = false := by
    rw [List.getLast?_append_of_ne_nil _ hne]
    exact getLast?_of_hex htag
  rw [hfield, Party.trim_blank_field]
  exact congrArg (fun params => (x.withParams params).field) (Text.rdropWhile_eq_self hlast)

/-- A tag that has been chosen is found where it is the only parameter. -/
theorem isTagOf_of_hex (htag : ∀ b ∈ tag, Text.isHexDigit b = true) :
    IsTagOf (ascii ";tag=" ++ tag) tag := by
  have hcut : Text.IsCut ";tag=" (ascii ";tag=" ++ tag) [] (tag ++ []) :=
    ⟨by simp, fun _ _ _ => Nat.zero_le _⟩
  have hvalue : semicolon ∉ tag := fun hmem => (Text.isHexDigit_spec (htag _ hmem)).2 rfl
  have htrimmed : tag.IsTrimmed := by
    refine ⟨fun b hb => ?_, getLast?_of_hex htag⟩
    have hspace := (Text.isHexDigit_spec (htag b (List.mem_of_mem_head? hb))).1
    exact Text.not_isBlank_of_not_isSpace hspace
  have hfound := IsTagOf.found hcut hvalue (by simp)
  rwa [htrimmed.trim_eq] at hfound

/-- The request that ends the dialog, as the peer reads it: it goes to the contact, is part of the
same call, and names both parties in each other's place. -/
theorem exists_parse_bye {t : Text} (hm : Message.parse t = .ok m)
    (h : m.Names sender receiver contact) (hne : tag ≠ [])
    (htag : ∀ b ∈ tag, Text.isHexDigit b = true) :
    ∃ bye, Message.parse (ofRequest m tag).bye.1.toText = .ok bye ∧
      bye.start = .request .bye contact.address ∧ bye.headers.callId = m.headers.callId ∧
      bye.headers.sender = (receiver.withParams (ascii ";tag=" ++ tag)).field ∧
      addressOf bye.headers.receiver = sender.address := by
  have hd := ofRequest_of_names h tag
  obtain ⟨hcall, hsender, hreceiver⟩ := get_reread_byeRequest (ofRequest m tag).advance
  obtain ⟨callId, -, hcallId⟩ := Message.get_of_parse hm "Call-ID"
  refine ⟨_, parse_bye (isPrintable_ofRequest hm h htag), by rw [hd]; rfl, ?_, ?_, ?_⟩
  · rw [hcall, hd]
    change Text.trim (32 :: m.headers.get "Call-ID") = m.headers.get "Call-ID"
    rw [hcallId]
    exact Text.trim_blank_trim (by decide) callId
  · rw [hsender, hd]
    exact trim_field_of_hex receiver hne htag
  · rw [hreceiver, hd]
    change addressOf (Text.trim (32 :: partyField sender.address (tagOf sender.field))) = _
    rw [partyField_eq, Party.trim_blank_field, Party.addressOf_field]
    rfl

/-- **The peer sees the same dialog**: the request that ends it is read as one that goes to the
contact, and opens a dialog of the same call, in which the parties have changed places.  Each side
has the tag of the other exactly if the other's address does not stand in the way. -/
theorem peer_sees_dialog {t : Text} (hm : Message.parse t = .ok m)
    (h : m.Names sender receiver contact) (hne : tag ≠ [])
    (htag : ∀ b ∈ tag, Text.isHexDigit b = true) :
    let d := ofRequest m tag
    (d.localParty = receiver.address ∧ d.remoteParty = sender.address ∧ d.localTag = tag) ∧
      IsTagOf (sender.address ++ 62 :: sender.params) d.remoteTag ∧
      (IsTagOf sender.params d.remoteTag ↔ sender.IsUnambiguous) ∧
      ∃ bye, Message.parse d.bye.1.toText = .ok bye ∧ bye.start = .request .bye contact.address ∧
        ∀ peerTag, let p := ofRequest bye peerTag
          p.callId = d.callId ∧ p.localParty = d.remoteParty ∧ p.remoteParty = d.localParty ∧
            (p.remoteTag = d.localTag ↔
              (receiver.withParams (ascii ";tag=" ++ tag)).IsUnambiguous) := by
  intro d
  have hd : d = ⟨m.headers.callId, receiver.address, sender.address, tag, tagOf sender.field,
      contact.address, 1⟩ := ofRequest_of_names h tag
  refine ⟨by simp [hd], ?_, ?_, ?_⟩
  · rw [hd]
    exact isTagOf_iff.mpr sender.tagOf_field.symm
  · rw [hd]
    exact sender.isTagOf_tagOf_field_iff
  obtain ⟨bye, hparse, hstart, hcall, hsender, hreceiver⟩ := exists_parse_bye hm h hne htag
  refine ⟨bye, hparse, hstart, fun peerTag => ⟨hcall, ?_, ?_, ?_⟩⟩
  · rw [hd]
    exact hreceiver
  · rw [hd]
    change addressOf bye.headers.sender = receiver.address
    rw [hsender, Party.addressOf_field]
    rfl
  · rw [hd]
    change tagOf bye.headers.sender = tag ↔ _
    have htagged := isTagOf_iff.mp (isTagOf_of_hex htag)
    rw [hsender, ← Party.isTagOf_tagOf_field_iff, isTagOf_iff]
    exact ⟨fun h => htagged.trans h.symm, fun h => h.symm.trans htagged⟩

/-- A request whose sender's address has a parameter of its own. -/
def transportNamed : Text :=
  "INVITE sip:b SIP/2.0\nFrom: <sip:a;transport=tcp>;tag=r\nTo: <sip:b>\nContact: <sip:b>\n\n"

/-- What is read of it. -/
def transportRequest : Message :=
  ⟨.request .invite "sip:b", ⟨[⟨"From", "<sip:a;transport=tcp>;tag=r"⟩, ⟨"To", "<sip:b>"⟩,
    ⟨"Contact", "<sip:b>"⟩]⟩, []⟩

theorem parse_transportNamed : Message.parse transportNamed = .ok transportRequest := by
  decide +kernel

/-- Its sender. -/
def transportParty : Party :=
  ⟨"sip:a;transport=tcp", ";tag=r", by decide +kernel, by decide +kernel, by decide +kernel,
    by decide +kernel⟩

/-- Its receiver, and its contact. -/
def plainParty : Party :=
  ⟨"sip:b", [], by decide +kernel, by decide +kernel, by decide +kernel, by decide +kernel⟩

theorem names_transportRequest : transportRequest.Names transportParty plainParty plainParty :=
  ⟨by decide +kernel, by decide +kernel, by decide +kernel⟩

theorem peer_sees_dialog_transportNamed :
    Message.parse transportNamed = .ok transportRequest ∧
      IsTagOf ";tag=r" (ofRequest transportRequest "0a").remoteTag ∧
      ∃ bye, Message.parse (ofRequest transportRequest "0a").bye.1.toText = .ok bye ∧
        bye.start = .request .bye "sip:b" ∧ (ofRequest bye "1").remoteTag = ascii "0a" := by
  have hsender : transportParty.IsUnambiguous :=
    Party.isUnambiguous_of_no_tag (by decide +kernel)
  have hreceiver : (plainParty.withParams (ascii ";tag=" ++ ascii "0a")).IsUnambiguous :=
    Party.isUnambiguous_of_no_tag (by decide +kernel)
  have hhex : ∀ b ∈ ascii "0a", Text.isHexDigit b = true := by decide +kernel
  obtain ⟨-, -, htag, bye, hbye, hstart, hpeer⟩ :=
    peer_sees_dialog parse_transportNamed names_transportRequest (List.cons_ne_nil _ _) hhex
  exact ⟨parse_transportNamed, htag.mpr hsender, bye, hbye, hstart,
    (hpeer "1").2.2.2.mpr hreceiver⟩

/-- A request whose sender's and receiver's addresses hold what a tag begins with. -/
def tagNamed : Text :=
  "INVITE sip:b SIP/2.0\nFrom: <sip:a;tag=u>;tag=r\nTo: <sip:b;tag=v>\nContact: <sip:b>\n\n"

/-- What is read of it. -/
def tagRequest : Message :=
  ⟨.request .invite "sip:b", ⟨[⟨"From", "<sip:a;tag=u>;tag=r"⟩, ⟨"To", "<sip:b;tag=v>"⟩,
    ⟨"Contact", "<sip:b>"⟩]⟩, []⟩

/-- The tag in an address is taken for the tag, by both sides. -/
theorem not_peer_sees_dialog_tagNamed :
    Message.parse tagNamed = .ok tagRequest ∧
      ¬IsTagOf ";tag=r" (ofRequest tagRequest "0a").remoteTag ∧
      ∃ bye, Message.parse (ofRequest tagRequest "0a").bye.1.toText = .ok bye ∧
        (ofRequest bye "1").remoteTag ≠ ascii "0a" := by
  have hsees : (ofRequest tagRequest "0a").remoteTag = ascii "u>" := by decide +kernel
  have hbye := parse_bye (d := ofRequest tagRequest "0a") <| by
    constructor <;> decide +kernel
  refine ⟨by decide +kernel, ?_, _, hbye, by decide +kernel⟩
  rw [isTagOf_iff, hsees]
  decide +kernel

end Dialog

end FileSharing.Sip
