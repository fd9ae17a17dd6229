import FileSharing.Proofs.Accounts
import FileSharing.Proofs.Watching

/-!
# Places for transfers

The settings may say how many transfers there may be at a time.  The service counts those
that are registered, and refuses a new one when every place is taken.  A place is free again
when its transfer leaves the registry, which transfers do when they end.  So the service
refuses exactly when as many transfers live as there are places: those that have entered the
registry, and have neither ended nor been taken out of it by their names.

## Main definitions

* `World.TransfersServed` — transfers are registered only by the service.
* `World.Fits` — the registered transfers keep to the limits.
* `World.live` — the transfers that have entered, and have neither ended nor been taken out.
* `World.Refuses` — a transfer is refused because every place is taken.

## Main results

* `World.Shifts.fits` — every run keeps to the limits, at each step on its way.
* `refuses_iff` — a transfer is refused exactly when every place is taken.
* `slots_accounted` — **the limits are kept at all times, and a transfer is refused exactly
  when as many live as there are places.**
-/

namespace FileSharing

variable {E : Environment}

/-- Whether transfers are registered only by the service that has made them. -/
def World.TransfersServed (w : World E) : Prop :=
  ∀ r ∈ registrations w.trace, w.stack.isTransfer r = false

instance (w : World E) : Decidable w.TransfersServed :=
  inferInstanceAs (Decidable (∀ r ∈ registrations w.trace, _))

theorem World.TransfersServed.before {w w' : World E} (h : w'.TransfersServed) (hw : w.Grows w') :
    w.TransfersServed := by
  refine fun r hr => Bool.eq_false_iff.mpr fun hkind => ?_
  exact absurd (hw.isTransfer hkind) (by simp [h r (hw.mem_registrations hr)])

/-! ### Limits -/

/-- Whether the registered transfers keep to the limits of some settings. -/
structure Stack.IsWithin (settings : Settings) (s : Stack) : Prop where
  place : 0 < settings.maxSessions → s.transfers.length ≤ settings.maxSessions.toNat
  size : 0 < settings.maxSize →
    ∀ r ∈ s.transfers, (s.transfer r).content.size ≤ settings.maxSize

/-- The limits are those of some settings, and the registered transfers keep to them. -/
structure World.Fits (settings : Settings) (w : World E) : Prop where
  limits : w.stack.settings.limits = settings.limits
  made : ∀ e ∈ w.stack.registry, e.2 < w.stack.sessions.size
  keeps : w.stack.IsWithin settings

namespace World

variable {settings : Settings} {free : Prop} {w w' : World E} {r : Ref}

theorem Fits.maxSize (h : w.Fits settings) : w.stack.settings.maxSize = settings.maxSize :=
  congrArg Prod.fst h.limits

theorem Fits.maxSessions (h : w.Fits settings) :
    w.stack.settings.maxSessions = settings.maxSessions :=
  congrArg Prod.snd h.limits

theorem Narrows.fits (h : w.Narrows w') (hw : w.Fits settings) : w'.Fits settings where
  limits := h.limits.trans hw.limits
  made := h.made hw.made
  keeps := by
    refine ⟨fun hm => ?_, fun hm r hr => ?_⟩
    · exact Nat.le_trans (h.transfers hw.made).length_le (hw.keeps.place hm)
    · have hbefore := (h.transfers hw.made).subset hr
      have hterms := h.grows.terms (Stack.isTransfer_of_mem_transfers hbefore)
      have hcontent : (w'.stack.transfer r).content = (w.stack.transfer r).content :=
        congrArg Terms.content hterms
      rw [hcontent]
      exact hw.keeps.size hm r hbefore

/-- A session enters that is no transfer, or one for which there is room. -/
theorem Fits.enrolling (hw : w.Fits settings) (hr : r < w.stack.sessions.size)
    (hroom : w.stack.isTransfer r = true → w.stack.HasRoom (w.stack.transfer r).content) :
    (w.enrolling r).Fits settings := by
  refine ⟨hw.limits, made_enrolling hw.made hr, fun hm => ?_, fun hm q hq => ?_⟩
  · rw [transfers_enrolling]
    split
    · next hkind =>
      have hplace := (hroom hkind).place
      rw [hw.maxSessions] at hplace
      exact hplace hm
    · exact hw.keeps.place hm
  · rcases mem_transfers_enrolling.mp hq with ⟨rfl, hkind⟩ | hq
    · have hsize := (hroom hkind).size
      rw [hw.maxSize] at hsize
      exact hsize hm
    · exact hw.keeps.size hm q hq

/-- Every step keeps to the limits, where only the service registers transfers. -/
theorem Shift.fits (h : w.Shift free w') (hserved : w'.TransfersServed) (hw : w.Fits settings) :
    w'.Fits settings := by
  cases h with
  | relistens h => exact h.toNarrows.fits hw
  | note n => exact ⟨hw.limits, hw.made, hw.keeps⟩
  | listening _ h => exact h.fits hw
  | @register r hr =>
    have hasked : (w.emit (.asked (.register (some r)))).Fits settings :=
      (Abides.emit w (by simp)).toNarrows.fits hw
    refine hasked.enrolling hr fun hkind => ?_
    have hplain := hserved r (by simp [World.enrolling, registrations, Event.registers,
      Op.registers])
    exact absurd hkind (Bool.eq_false_iff.mp hplain)
  | @enter w' r h hadmits =>
    have hmade : w'.Fits settings := (Abides.ofMade h).toNarrows.fits hw
    refine hmade.enrolling h.lt_size fun _ => ?_
    -- making the session has changed neither the settings nor who is registered
    have hsettings : w'.stack.settings = w.stack.settings := by rw [h.rest]
    have htransfers := (Abides.ofMade h).transfers hw.made
    refine ⟨fun hm => ?_, fun hm => ?_⟩
    · rw [hsettings] at hm ⊢
      exact Nat.lt_of_le_of_lt htransfers.length_le (hadmits.room.place hm)
    · rw [hsettings] at hm ⊢
      exact hadmits.room.size hm

/-- **Every run keeps to the limits**, at each step on its way. -/
theorem Shifts.fits (h : w.Shifts free w') (hserved : w'.TransfersServed) (hw : w.Fits settings) :
    w'.Fits settings := by
  induction h with
  | refl => exact hw
  | tail _ hstep ih => exact hstep.fits hserved (ih (hserved.before hstep.grows))

theorem fits_start (settings : Settings) (client : E.State) :
    (World.start settings client : World E).Fits settings :=
  ⟨rfl, fun _ he => absurd he List.not_mem_nil, fun _ => Nat.zero_le _,
    fun _ _ hr => absurd hr List.not_mem_nil⟩

end World

/-! ### Places -/

namespace Stack

variable {s : Stack} {r : Ref} {id : Text}

/-- No transfer is registered twice. -/
theorem Filed.nodup_transfers (h : s.Filed) : s.transfers.Nodup := by
  refine List.Nodup.filter _ (List.Nodup.map_on (fun e he e' he' hsame => ?_) h.nodup.of_map)
  refine List.inj_on_of_nodup_map h.nodup he he' ?_
  rw [← h.name e he, ← h.name e' he', hsame]

theorem mem_transfers_of_find? (h : s.find? id = some r) (hr : s.isTransfer r = true) :
    r ∈ s.transfers := by
  obtain ⟨l, l', hl, -⟩ := List.lookup_eq_some_iff.mp h
  refine List.mem_filter.mpr ⟨List.mem_map.mpr ⟨(id, r), ?_, rfl⟩, hr⟩
  rw [hl]
  simp

end Stack

namespace World

variable {w : World E} {r : Ref}

/-- The transfers that have entered the registry, and have neither ended nor been taken out. -/
def live (w : World E) : List Ref :=
  (List.range w.stack.sessions.size).filter fun r => w.stack.isTransfer r = true ∧
    Registered r w.trace ∧ r ∉ endings w.trace ∧ ¬TakenOut r w.trace

theorem mem_live : r ∈ w.live ↔ w.stack.isTransfer r = true ∧
    Registered r w.trace ∧ r ∉ endings w.trace ∧ ¬TakenOut r w.trace := by
  rw [live, List.mem_filter, List.mem_range, decide_eq_true_iff]
  exact ⟨fun h => h.2, fun h => ⟨Stack.lt_size_of_isTransfer h.1, h⟩⟩

/-- Where no transfer is registered that has left, and none is on its way out, those that are
registered live. -/
theorem Accounted.mem_live (hw : w.Accounted) (hserved : w.TransfersServed)
    (hclean : ∀ r, w.IsStale r → w.stack.isTransfer r = false) (hending : ∀ r, ¬w.IsEnding r)
    (hr : r ∈ w.stack.transfers) : r ∈ w.live := by
  obtain ⟨hholds, hkind⟩ := List.mem_filter.mp hr
  obtain ⟨e, he, rfl⟩ := List.mem_map.mp hholds
  have hasked : e.2 ∉ registrations w.trace := fun hmem =>
    absurd hkind (by simp [hserved e.2 hmem])
  have hthere : (w.stack.session e.2).removed = false := by
    refine Bool.eq_false_iff.mpr fun hgone => ?_
    exact absurd (hclean e.2 ⟨hholds, hgone⟩) (by simp [hkind])
  refine World.mem_live.mpr ⟨hkind, hw.entered e he, fun hended => ?_, hw.kept e he hasked⟩
  exact hending e.2 ⟨hkind, hended, hthere⟩

/-- Where only sessions end that have a claim to their names, those transfers are registered
that live. -/
theorem Accounted.mem_transfers (hw : w.Accounted) (hd : w.IsTidy) (hr : r ∈ w.live) :
    r ∈ w.stack.transfers := by
  obtain ⟨hkind, hentered, hlasts, hstays⟩ := World.mem_live.mp hr
  have hthere : (w.stack.session r).removed = false :=
    Bool.eq_false_iff.mpr fun hgone => hlasts (hw.ended r hkind hgone)
  exact Stack.mem_transfers_of_find? (hw.found hd r hentered hstays hthere) hkind

end World

/-! ### Refusals -/

/-- Whether a transfer is offered that the service would take in where it has a place. -/
def ServiceOp.Offers (s : Settings) : ServiceOp → Prop
  | .send contact content _ => contact.isNone = false ∧ (0 < s.maxSize → content.size ≤ s.maxSize)
  | .invite i => i.contact.isNone = false ∧ (0 < s.maxSize → i.content.size ≤ s.maxSize)
  | _ => False

theorem ServiceOp.offers_congr {s s' : Settings} (h : s.maxSize = s'.maxSize) {op : ServiceOp} :
    op.Offers s ↔ op.Offers s' := by
  cases op with
  | send | invite => simp only [Offers, h]
  | _ => exact Iff.rfl

/-- Whether an operation is refused because every place is taken, and changes nothing. -/
def World.Refuses (w : World E) (depth : Nat) (op : ServiceOp) : Prop :=
  let answer := (exec E depth (.service op)).run w
  answer.1 = .session (.error (Act.tooMany w.stack.settings)) ∧ answer.2.stack = w.stack

namespace Act

variable {N : Handler E} {R : World E → World E → Prop} {w : World E} {contact : Contact}
  {content : Content} {icon : Option Content} {i : Invitation} {f : Failure}

theorem sendFile_of_full (hc : contact.isNone = false)
    (hfull : result N (checkCapacity content) w = .error f) :
    result N (sendFile contact content icon) w = .error f ∧
      (after N (sendFile contact content icon) w).stack = w.stack := by
  rw [sendFile, if_neg (by simp [hc]), result_bind, after_bind, hfull]
  exact ⟨rfl, (World.Murmurs.checkCapacity content w).stack⟩

theorem invite_of_full (hc : i.contact.isNone = false)
    (hfull : result N (checkCapacity i.content) w = .error f) :
    result N (invite i) w = .error f ∧ (after N (invite i) w).stack = w.stack := by
  rw [invite, if_neg (by simp [hc]), result_bind, after_bind, hfull]
  exact ⟨rfl, (World.Murmurs.checkCapacity i.content w).stack⟩

/-- Where there is room, a session is made for the transfer. -/
theorem size_lt_created {c : Content} {P : Session → Prop} {go : Ref → Act E (Outcome Ref)}
    {o : Outcome Ref} {w' : World E} (hcreation : Creation N contact c P go w o w')
    (hgo : ∀ {r : Ref} {w : World E}, w.stack.isTransfer r = true → P (w.stack.session r) →
      w.Grows (after N (go r) w))
    (hc : contact.isNone = false) (hok : result N (checkCapacity c) w = .ok ()) :
    w.stack.sessions.size < w'.stack.sessions.size := by
  have hlt : ∀ {r w₁}, w.Prepares r w₁ → w.stack.sessions.size < w₁.stack.sessions.size := by
    rintro r w₁ ⟨w₀, h₀, hmade, -⟩
    rw [hmade.size, ← hmade.fresh, h₀.stack]
    exact Nat.lt_succ_self _
  cases hcreation with
  | refused hwhy =>
    rw [hc, hok] at hwhy
    simp at hwhy
  | taken f hprepared => simpa using hlt hprepared
  | @entered r w₁ hprepared hP hfree line =>
    obtain ⟨w₀, -, hmade, -⟩ := id hprepared
    have hgone := hgo (w := (w₁.enrolling r).emit (.log .info line)) hmade.kind hP
    exact Nat.lt_of_lt_of_le (hlt hprepared) hgone.size

end Act

/-- An operation that fails and changes nothing where every place is taken, and makes a session
where there is room, is refused exactly when every place is taken. -/
theorem refuses_iff_of {w : World E} {depth : Nat} {op : ServiceOp} {full : Prop} {s : Stack}
    {o : Outcome Ref} (hresult : ((exec E depth (.service op)).run w).1 = .session o)
    (hstack : ((exec E depth (.service op)).run w).2.stack = s)
    (hfull : full → o = .error (Act.tooMany w.stack.settings) ∧ s = w.stack)
    (hroom : ¬full → w.stack.sessions.size < s.sessions.size) : w.Refuses depth op ↔ full := by
  constructor
  · intro hrefused
    by_contra hfree
    have hlt := hroom hfree
    rw [← hstack, hrefused.2] at hlt
    exact absurd hlt (Nat.lt_irrefl _)
  · intro h
    obtain ⟨rfl, rfl⟩ := hfull h
    exact ⟨hresult, hstack⟩

/-- A transfer that could be taken in is refused exactly when every place is taken. -/
theorem refuses_iff {depth : Nat} {R : World E → World E → Prop} (h : Services (exec E depth) R)
    {w : World E} {op : ServiceOp} (hop : op.Offers w.stack.settings)
    (hm : 0 < w.stack.settings.maxSessions) :
    w.Refuses (depth + 1) op ↔ w.stack.settings.maxSessions.toNat ≤ w.stack.transfers.length := by
  have hcheck : ∀ c : Content, (0 < w.stack.settings.maxSize → c.size ≤ w.stack.settings.maxSize) →
      Act.result (exec E depth) (Act.checkCapacity c) (w.emit (.asked (.service op)))
        = if w.stack.settings.maxSessions.toNat ≤ w.stack.transfers.length then
            .error (Act.tooMany w.stack.settings)
          else .ok () := by
    intro c hsize
    rw [Act.result_checkCapacity, World.emit_stack, if_neg fun hlarge => ?_]
    · simp only [hm, true_and]
    · exact UInt64.not_lt.mpr (hsize hlarge.1) hlarge.2
  cases op with
  | send contact content icon =>
    refine refuses_iff_of rfl rfl (fun hfull => ?_) fun hroom => ?_
    · exact Act.sendFile_of_full hop.1 ((hcheck content hop.2).trans (if_pos hfull))
    · have hfree := (hcheck content hop.2).trans (if_neg hroom)
      have hcreation := Act.creation_sendFile (N := exec E depth) contact content icon
        (w.emit (.asked (.service (.send contact content icon))))
      have hlt := Act.size_lt_created hcreation
        (fun hr hupload => h.grows (h.launch hr hupload.role)) hop.1 hfree
      exact hlt
  | invite i =>
    refine refuses_iff_of rfl rfl (fun hfull => ?_) fun hroom => ?_
    · exact Act.invite_of_full hop.1 ((hcheck i.content hop.2).trans (if_pos hfull))
    · have hfree := (hcheck i.content hop.2).trans (if_neg hroom)
      have hcreation := Act.creation_invite (N := exec E depth) i
        (w.emit (.asked (.service (.invite i))))
      have hlt := Act.size_lt_created hcreation (fun _ _ => .refl _) hop.1 hfree
      exact hlt
  | _ => exact absurd hop not_false

/-! ### Runs -/

/-- **After a run in which only the service registers transfers, those are registered that
live**, where only sessions end that have a claim to their names. -/
theorem transfers_perm_live (settings : Settings) (client : E.State) (depth : Nat) {α : Type}
    (p : Program E.State E.Note α) :
    let w := ((run E depth p).run (.start settings client)).2
    w.TransfersServed → w.IsTidy → w.stack.transfers.Perm w.live := by
  intro w hserved hd
  have hevolves : World.Evolves (.start settings client) w := .run depth p _
  have hconcludes : World.Concludes (fun _ => True) (.start settings client) w := .run depth p _
  have hfresh : (World.start settings client : World E).stack.Filed := Stack.filed_fresh settings
  have hstart : (World.start settings client : World E).Accounted := World.accounted_start ..
  have haccounted := hevolves.accounted hfresh hstart
  have hclean : ∀ r, w.IsStale r → w.stack.isTransfer r = false := by
    -- a session that is registered and has left was registered because that was asked for
    refine fun r hr => hserved r ?_
    rcases hevolves.stale hfresh hr with hbefore | hcount
    · exact absurd hbefore.holds List.not_mem_nil
    · exact List.count_pos_iff.mp (Nat.lt_of_le_of_lt (Nat.zero_le _) hcount)
  have hending : ∀ r, ¬w.IsEnding r := fun r hr =>
    absurd (Stack.lt_size_of_isTransfer
      (hconcludes.concluded hd.registered hstart.made r trivial hr).isTransfer) (Nat.not_lt_zero r)
  have hnodup : w.live.Nodup := List.nodup_range.filter _
  have htransfers := (hevolves.filed hfresh).nodup_transfers
  refine (List.perm_ext_iff_of_nodup htransfers hnodup).mpr fun r => ?_
  exact ⟨haccounted.mem_live hserved hclean hending, haccounted.mem_transfers hd⟩

/-- **The limits are kept at all times, and a transfer is refused exactly when as many live as
there are places.**  A transfer lives from its entrance until it ends, or until somebody takes
its name out of the registry, which makes room for another one. -/
theorem slots_accounted (settings : Settings) (client : E.State) (depth : Nat) {α : Type}
    (p : Program E.State E.Note α) :
    let w : World E.watched := .watched settings client (depth + 1) p
    w.TransfersServed →
      (∀ s, s = w.stack ∨ .note (.inl s) ∈ w.trace → s.IsWithin settings) ∧
      ∀ op : ServiceOp, op.Offers settings → 0 < settings.maxSessions →
        (w.Refuses (depth + 1) op ↔ w.stack.transfers.length = settings.maxSessions.toNat) ∧
        (w.IsTidy → (w.Refuses (depth + 1) op ↔ w.live.length = settings.maxSessions.toNat)) := by
  intro w hserved
  have hE := E.asks_allowed
  have hrun : World.Watches (E := E) True (.start settings client) w :=
    .run hE (depth + 1) p.asks_allowed _
  have hstart := World.fits_start (E := E.watched) settings client
  have hfits : w.Fits settings := hrun.shifts.fits hserved hstart
  refine ⟨fun s hs => ?_, fun op hop hm => ?_⟩
  · rcases hs with rfl | hs
    · exact hfits.keeps
    · rcases hrun.notes s hs with hs | ⟨w₁, hbefore, hafter, rfl⟩
      · exact absurd hs List.not_mem_nil
      · exact (hbefore.fits (hserved.before hafter.grows) hstart).keeps
  · have hoffers : op.Offers w.stack.settings := (ServiceOp.offers_congr hfits.maxSize).mpr hop
    have hservices := World.Watches.services (N := exec E.watched depth) hE
      fun w _ hop => .exec hE depth w hop
    have hrefuses := refuses_iff hservices hoffers (hfits.maxSessions ▸ hm)
    rw [hfits.maxSessions] at hrefuses
    have hplace := hfits.keeps.place hm
    have hfull : w.Refuses (depth + 1) op
        ↔ w.stack.transfers.length = settings.maxSessions.toNat :=
      hrefuses.trans ⟨fun h => Nat.le_antisymm hplace h, fun h => Nat.le_of_eq h.symm⟩
    refine ⟨hfull, fun hd => ?_⟩
    have hperm : w.stack.transfers.Perm w.live :=
      transfers_perm_live (E := E.watched) settings client (depth + 1) p.watched hserved hd
    exact hfull.trans (hperm.length_eq ▸ Iff.rfl)

/-- One transfer may be registered at a time. -/
def onePlace : Settings := { Settings.default with maxSessions := 1 }

/-- A file is offered to somebody. -/
def offer : ServiceOp := .send ⟨"+33612345678"⟩ .empty none

/-- A transfer is made, and taken out of the registry. -/
def sendAndTakeOut {α : Type} (p : Program Unit Unit α) : Program Unit Unit α :=
  .call (.service offer) fun _ => .call (.unregister "transfer") fun _ => p

/-- Another one is made after that. -/
def sendTwice : Program Unit Unit Unit :=
  sendAndTakeOut (.call (.service offer) fun _ => .done ())

/-- The world when that has happened. -/
def replaced : World (Environment.obliging fun _ _ _ => .done none).watched :=
  .watched (E := .obliging fun _ _ _ => .done none) onePlace () 2 sendTwice

/-- The second transfer has the place of the first one, and a third one is refused. -/
theorem slots_accounted_replaced : replaced.live = [1] ∧ replaced.Refuses 2 offer := by
  have hserved : replaced.TransfersServed := by decide +kernel
  have hoffers : offer.Offers onePlace := ⟨rfl, fun _ => by decide⟩
  have htidy : replaced.IsTidy := by
    refine ⟨by decide +kernel, fun r hr => ?_⟩
    have hnone : departures replaced.trace = [] := by decide +kernel
    exact absurd hr (hnone ▸ List.not_mem_nil)
  have hlive : replaced.live = [1] := by decide +kernel
  have haccounted : ∀ op : ServiceOp, op.Offers onePlace → 0 < onePlace.maxSessions →
      (replaced.Refuses 2 op ↔ replaced.stack.transfers.length = onePlace.maxSessions.toNat) ∧
      (replaced.IsTidy →
        (replaced.Refuses 2 op ↔ replaced.live.length = onePlace.maxSessions.toNat)) :=
    (slots_accounted (E := .obliging fun _ _ _ => .done none) onePlace () 1 sendTwice hserved).2
  refine ⟨hlive, ((haccounted offer hoffers (by decide)).2 htidy).mpr ?_⟩
  rw [hlive]
  rfl

/-- A transfer that has been taken out has not ended, but its place is free. -/
theorem not_slots_accounted_takenOut :
    let E := Environment.obliging fun _ _ _ => .done none
    let w := ((run E 2 (sendAndTakeOut (.done ()))).run (.start onePlace ())).2
    w.TransfersServed ∧ offer.Offers onePlace ∧
      ((List.range w.stack.sessions.size).filter fun r =>
        w.stack.isTransfer r ∧ Registered r w.trace ∧ r ∉ endings w.trace) = [0] ∧
      ¬w.Refuses 2 offer ∧ ((exec E 2 (.service offer)).run w).2.stack.transfers = [1] := by
  intro E w
  refine ⟨by decide +kernel, ⟨rfl, fun _ => by decide⟩, by decide +kernel, fun h => ?_,
    by decide +kernel⟩
  have hsame := congrArg (fun s => s.sessions.size) h.2
  exact absurd hsame (by decide +kernel)

end FileSharing
