import FileSharing.Proofs.Concluding

/-!
# What the registry knows

What has been registered can be read off the trace: the sessions that have entered, those
that have ended, and those that have been taken out by their names.  The registry and the
trace keep accounts of each other.

An entry is lost where a session of its name leaves, whichever session that is.  So the
accounts say that a session is there only where a session that ends has a claim to its name.

## Main definitions

* `TakenOut` — that a session is taken out of the registry by its name.
* `World.IsTidy` — only sessions end that have a claim to their names.
* `World.Accounted` — what the registry and the trace know of each other.

## Main results

* `World.Evolves.accounted` — **every run keeps the accounts.**
-/

namespace FileSharing

variable {E : Environment}

/-! ### Claims to names -/

section Claims

variable {ν : Type} {r : Ref} {T S : List (Event ν)}

/-- Whether a name is taken out of the registry under which a session has entered. -/
def TakenOut (r : Ref) (T : List (Event ν)) : Prop :=
  ∃ A id B, T = A ++ .asked (.unregister id) :: B ∧ .registered id r ∈ A

/-- The name that is to be taken out with an event. -/
def Event.takesOut : Event ν → Option Text
  | .asked (.unregister id) => some id
  | _ => none

/-- The session that enters with an event, and its name. -/
def Event.entrance : Event ν → Option (Text × Ref)
  | .registered id r => some (id, r)
  | _ => none

theorem mem_filterMap_entrance {id : Text} :
    (id, r) ∈ T.filterMap Event.entrance ↔ .registered id r ∈ T := by
  rw [List.mem_filterMap]
  constructor
  · rintro ⟨e, he, hr⟩
    cases e with
    | registered name q =>
      obtain ⟨rfl, rfl⟩ := Prod.mk.inj (Option.some.inj hr)
      exact he
    | _ => exact absurd hr (by simp [Event.entrance])
  · exact fun h => ⟨_, h, rfl⟩

theorem throughout_takesOut_iff :
    Throughout (fun A e => ∀ id ∈ e.takesOut, (id, r) ∉ A.filterMap Event.entrance) T
      ↔ ¬TakenOut r T := by
  constructor
  · rintro h ⟨A, id, B, hT, hr⟩
    exact h A _ B hT id rfl (mem_filterMap_entrance.mpr hr)
  · intro h A e B hT id hid hr
    cases e with
    | asked op =>
      cases op with
      | unregister name =>
        obtain rfl : name = id := Option.some.inj hid
        exact h ⟨A, name, B, hT, mem_filterMap_entrance.mp hr⟩
      | _ => exact absurd hid (by simp [Event.takesOut])
    | _ => exact absurd hid (by simp [Event.takesOut])

instance : Decidable (TakenOut r T) :=
  decidable_of_iff _ (Iff.trans (not_congr throughout_takesOut_iff) not_not)

theorem TakenOut.registered (h : TakenOut r T) : Registered r T := by
  obtain ⟨A, id, B, rfl, hr⟩ := h
  exact ⟨id, List.mem_append_left _ hr⟩

theorem TakenOut.mono {T' : List (Event ν)} (h : TakenOut r T) (hT : T <+: T') :
    TakenOut r T' := by
  obtain ⟨A, id, B, rfl, hr⟩ := h
  obtain ⟨C, rfl⟩ := hT
  exact ⟨A, id, B ++ C, by simp, hr⟩

/-- A session is taken out with the last events, or it was before. -/
theorem TakenOut.append (h : TakenOut r (T ++ S)) :
    TakenOut r T ∨ ∃ id, .asked (.unregister id) ∈ S ∧ .registered id r ∈ T ++ S := by
  obtain ⟨A, id, B, hT, hr⟩ := h
  have hentered : .registered id r ∈ T ++ S := hT ▸ List.mem_append_left _ hr
  rcases List.append_eq_append_iff.mp hT with ⟨C, rfl, rfl⟩ | ⟨C, rfl, hC⟩
  · exact .inr ⟨id, by simp, hentered⟩
  · rcases List.cons_eq_append_iff.mp hC with ⟨rfl, rfl⟩ | ⟨D, rfl, -⟩
    · exact .inr ⟨id, List.mem_cons_self, hentered⟩
    · exact .inl ⟨A, id, D, rfl, hr⟩

/-- Where no name is touched, nobody is taken out. -/
theorem TakenOut.ofQuiet {T' : List (Event ν)} (h : TakenOut r T') (hT : T <+: T')
    (hquiet : ∀ id, touchings id T' = touchings id T) : TakenOut r T := by
  obtain ⟨S, rfl⟩ := hT
  refine h.append.resolve_right ?_
  rintro ⟨id, hid, -⟩
  exact touchings_append_eq_iff.mp (hquiet id) _ hid (by simp [Event.touches])

end Claims

/-- Whether no session ends that has no claim to its name: sessions end that have entered, and
where they have been taken out, nobody else enters under their names. -/
structure World.IsTidy (w : World E) : Prop where
  registered : OnlyRegisteredEnd w.trace
  own : ∀ r ∈ departures w.trace, TakenOut r w.trace → ∀ q, Registered q w.trace →
    (w.stack.session q).id = (w.stack.session r).id → q = r

theorem World.IsTidy.before {w w' : World E} (h : w'.IsTidy) (hw : w.Grows w')
    (hmade : w.RegistersMade) : w.IsTidy where
  registered := h.registered.ofPrefix hw.trace
  own r hr hout q hq hname := by
    refine h.own r (departures_subset hw.trace hr) (hout.mono hw.trace) q (hq.mono hw.trace) ?_
    rw [(hw.ages q (hmade q hq)).id, (hw.ages r (hmade r hout.registered)).id, hname]

/-- A session that may leave has ended or was to leave. -/
theorem World.MayLeave.mem_departures {w : World E} {r : Ref} (h : w.MayLeave r) :
    r ∈ departures w.trace := by
  rcases h with hended | ⟨-, hasked⟩
  · exact mem_departures_of_mem_endings hended
  · exact List.mem_filterMap.mpr ⟨_, hasked, rfl⟩

/-! ### Accounts -/

/-- What the registry and the trace know of each other. -/
structure World.Accounted (w : World E) : Prop where
  made : w.RegistersMade
  /-- Sessions enter under their names. -/
  named : ∀ id r, .registered id r ∈ w.trace → (w.stack.session r).id = id
  /-- Only sessions are registered that have entered. -/
  entered : ∀ e ∈ w.stack.registry, Registered e.2 w.trace
  /-- A session is not registered any more when it has been taken out, unless somebody asks
  for it to be registered. -/
  kept : ∀ e ∈ w.stack.registry, e.2 ∉ registrations w.trace → ¬TakenOut e.2 w.trace
  /-- Only transfers have left that have ended. -/
  ended : ∀ r, w.stack.isTransfer r = true → (w.stack.session r).removed = true →
    r ∈ endings w.trace
  /-- A session that has entered is there until it leaves or is taken out, where only sessions
  end that have a claim to their names. -/
  found : w.IsTidy → ∀ r, Registered r w.trace → ¬TakenOut r w.trace →
    (w.stack.session r).removed = false → w.stack.find? (w.stack.session r).id = some r

namespace World

variable {w w' : World E} {r : Ref}

/-- The accounts are kept where nobody enters, no name is touched, and those that leave the
registry have left. -/
theorem Accounted.ofQuiet (hw : w.Accounted) (hgrows : w.Grows w')
    (hquiet : ∀ id, touchings id w'.trace = touchings id w.trace)
    (hregistry : w'.stack.registry ⊆ w.stack.registry)
    (hended : ∀ r, w'.stack.isTransfer r = true → (w'.stack.session r).removed = true →
      r ∈ endings w'.trace)
    (hfound : w.IsTidy → ∀ r, Registered r w.trace → ¬TakenOut r w.trace →
      (w'.stack.session r).removed = false → w'.stack.find? (w.stack.session r).id = some r) :
    w'.Accounted where
  made r hr := Nat.lt_of_lt_of_le (hw.made r (hr.ofQuiet hgrows.trace hquiet)) hgrows.size
  named id r hid := by
    have hbefore := mem_of_touches hgrows.trace (hquiet id) hid (by simp [Event.touches])
    rw [(hgrows.ages r (hw.made r ⟨id, hbefore⟩)).id, hw.named id r hbefore]
  entered e he := (hw.entered e (hregistry he)).mono hgrows.trace
  kept e he hasked hout :=
    hw.kept e (hregistry he) (fun hmem => hasked (hgrows.mem_registrations hmem))
      (hout.ofQuiet hgrows.trace hquiet)
  ended := hended
  found hd r hr hstays hthere := by
    have hentered := hr.ofQuiet hgrows.trace hquiet
    rw [(hgrows.ages r (hw.made r hentered)).id]
    exact hfound (hd.before hgrows hw.made) r hentered
      (fun hout => hstays (hout.mono hgrows.trace)) hthere

theorem Rests.accounted (h : w.Rests w') (hw : w.Accounted) : w'.Accounted := by
  refine hw.ofQuiet h.grows h.quiet (h.registry ▸ List.Subset.refl _) (fun r hkind hgone => ?_)
    fun hd r hentered hstays hthere => ?_
  · rw [h.removed] at hgone
    have hmade := Grows.lt_size_of_removed hgone
    rw [Stack.isTransfer_eq, (h.grows.ages r hmade).isSome, ← Stack.isTransfer_eq] at hkind
    exact endings_subset h.grows.trace (hw.ended r hkind hgone)
  · rw [Stack.find?, h.registry]
    exact hw.found hd r hentered hstays (h.removed r ▸ hthere)

theorem trace_enrolling (w : World E) (r : Ref) :
    ∃ level line, (w.enrolling r).trace
      = w.trace ++ [.registered (w.stack.session r).id r, .log level line] :=
  ⟨_, _, List.append_assoc _ _ _⟩

/-- A session enters, where its name is free; it was asked to be registered, or it is new. -/
theorem Accounted.enrolling (hw : w.Accounted) (hr : r < w.stack.sessions.size)
    (hfree : w.stack.find? (w.stack.session r).id = none)
    (hnew : r ∈ registrations w.trace ∨ ¬Registered r w.trace) : (w.enrolling r).Accounted := by
  have hgrows := w.grows_enrolling r
  have hself : Registered r (w.enrolling r).trace :=
    ⟨(w.stack.session r).id, (registered_prefix_enrolling w r).subset (by simp)⟩
  have hothers : ∀ q, q ≠ r → Registered q (w.enrolling r).trace → Registered q w.trace := by
    rintro q hq ⟨id, hid⟩
    exact ⟨id, by simpa [World.enrolling, hq] using hid⟩
  have htaken : ∀ q, TakenOut q (w.enrolling r).trace → TakenOut q w.trace := by
    intro q hout
    obtain ⟨level, line, htrace⟩ := trace_enrolling w r
    rw [htrace] at hout
    refine hout.append.resolve_right ?_
    rintro ⟨id, hid, -⟩
    exact absurd hid (by simp)
  refine ⟨fun q hq => ?_, fun id q hid => ?_, fun e he => ?_, fun e he hasked hout => ?_,
    fun q hkind hgone => ?_, fun hd q hq hstays hthere => ?_⟩
  · by_cases hqr : q = r
    · exact hqr ▸ hr
    · exact hw.made q (hothers q hqr hq)
  · have hmem : (id = (w.stack.session r).id ∧ q = r) ∨ .registered id q ∈ w.trace := by
      simpa [World.enrolling, or_comm] using hid
    rcases hmem with ⟨rfl, rfl⟩ | hmem
    · rfl
    · exact hw.named id q hmem
  · rcases List.mem_cons.mp he with rfl | he
    · exact hself
    · exact (hw.entered e he).mono hgrows.trace
  · have hasked' : e.2 ∉ registrations w.trace := fun h => hasked (hgrows.mem_registrations h)
    rcases List.mem_cons.mp he with rfl | he
    · exact hnew.elim hasked' fun hnew => hnew (htaken _ hout).registered
    · exact hw.kept e he hasked' (htaken _ hout)
  · exact endings_subset hgrows.trace (hw.ended q hkind hgone)
  · have hsession : (w.enrolling r).stack.session q = w.stack.session q := rfl
    rw [hsession, find?_enrolling]
    by_cases hqr : q = r
    · rw [hqr, if_pos rfl]
    · have hfound := hw.found (hd.before hgrows hw.made) q (hothers q hqr hq)
        (fun hout => hstays (hout.mono hgrows.trace)) hthere
      -- the name of the other session is taken, and that of the new one was free
      rw [if_neg fun hname => by rw [hname, hfree] at hfound; exact absurd hfound (by simp), hfound]

/-- A session leaves that may leave. -/
theorem Accounted.leaving (hw : w.Accounted) (hr : r < w.stack.sessions.size)
    (hmay : w.MayLeave r) (hthere : (w.stack.session r).removed = false) :
    (w.leaving r).Accounted := by
  have hgrows := w.grows_leaving r
  refine hw.ofQuiet hgrows (touchings_leaving w r) ?_ (fun q hkind hgone => ?_)
    fun hd q hentered hstays hthere' => ?_
  · rw [registry_leaving hthere]
    exact List.filter_sublist.subset
  · by_cases hqr : q = r
    · subst hqr
      rw [Stack.isTransfer_eq, (hgrows.ages q hr).isSome, ← Stack.isTransfer_eq] at hkind
      have hended := hmay.resolve_right fun hplain => absurd hkind (by simp [hplain.1])
      exact endings_subset hgrows.trace hended
    · rw [Stack.isTransfer_eq, session_leaving_of_ne hqr, ← Stack.isTransfer_eq] at hkind
      rw [session_leaving_of_ne hqr] at hgone
      exact endings_subset hgrows.trace (hw.ended q hkind hgone)
  · have hqr : q ≠ r := by
      rintro rfl
      exact absurd (removed_leaving hr) (by simp [hthere'])
    have hfound := hw.found hd q hentered hstays (session_leaving_of_ne hqr ▸ hthere')
    have hname : (w.stack.session q).id ≠ (w.stack.session r).id := by
      intro hname
      have hself := hd.registered.registered hmay.mem_departures
      by_cases hout : TakenOut r w.trace
      · -- it has been taken out, so nobody else has its name
        exact hqr (hd.own r hmay.mem_departures hout q hentered hname)
      · -- the entry that goes is its own
        rw [hname, hw.found hd r hself hout hthere] at hfound
        exact hqr (Option.some.inj hfound).symm
    rw [find?_leaving hthere, if_neg hname, hfound]

/-- A name is taken out because that is asked for. -/
theorem Accounted.takenOut (hw : w.Accounted) (hfiled : w.stack.Filed) (id : Text) :
    ((w.emit (.asked (.unregister id))).dismissing id).Accounted := by
  have hasked : w.Grows (w.emit (.asked (.unregister id))) := .emit w _
  have hgrows := hasked.trans (grows_dismissing _ id)
  have hquiet := touchings_dismissing (w.emit (.asked (.unregister id))) id
  have hbefore : ∀ name q,
      .registered name q ∈ ((w.emit (.asked (.unregister id))).dismissing id).trace →
        .registered name q ∈ w.trace := by
    intro name q hname
    have hmem := mem_of_touches (grows_dismissing _ id).trace (hquiet name) hname
      (by simp [Event.touches])
    exact (List.mem_append.mp hmem).resolve_right (by simp)
  have hregistered : ∀ q, Registered q ((w.emit (.asked (.unregister id))).dismissing id).trace →
      Registered q w.trace := by
    rintro q ⟨name, hname⟩
    exact ⟨name, hbefore name q hname⟩
  have hsession : ∀ q, ((w.emit (.asked (.unregister id))).dismissing id).stack.session q
      = w.stack.session q := fun q => by rw [Stack.session, dismissing_sessions]; rfl
  refine ⟨fun q hq => ?_, fun name q hname => ?_, fun e he => ?_, fun e he hasked hout => ?_,
    fun q hkind hgone => ?_, fun hd q hq hstays hthere => ?_⟩
  · exact Nat.lt_of_lt_of_le (hw.made q (hregistered q hq)) hgrows.size
  · rw [hsession]
    exact hw.named name q (hbefore name q hname)
  · rw [registry_dismissing] at he
    exact (hw.entered e (List.mem_of_mem_filter he)).mono hgrows.trace
  · rw [registry_dismissing, List.mem_filter, decide_eq_true_eq] at he
    have hout := hout.ofQuiet (grows_dismissing _ id).trace hquiet
    rcases hout.append with hout | ⟨name, hname, hentered⟩
    · exact hw.kept e he.1 (fun hmem => hasked (hgrows.mem_registrations hmem)) hout
    · -- the name that has been taken out is that of the entry
      obtain rfl : name = id := by simpa using hname
      have hentered : .registered name e.2 ∈ w.trace := by simpa using hentered
      exact he.2 ((hfiled.name e he.1).symm.trans (hw.named name e.2 hentered))
  · rw [Stack.isTransfer_eq, hsession, ← Stack.isTransfer_eq] at hkind
    rw [hsession] at hgone
    exact endings_subset hgrows.trace (hw.ended q hkind hgone)
  · obtain ⟨name, hentered⟩ := hregistered q hq
    rw [hsession] at hthere ⊢
    have hname : (w.stack.session q).id ≠ id := by
      rintro rfl
      obtain ⟨S, hS⟩ := (grows_dismissing (w.emit _) (w.stack.session q).id).trace
      refine hstays ⟨w.trace, _, S, ?_, hw.named name q hentered ▸ hentered⟩
      rw [← hS]
      simp
    rw [find?_dismissing, if_neg hname]
    exact hw.found (hd.before hgrows hw.made) q ⟨name, hentered⟩
      (fun hout => hstays (hout.mono hgrows.trace)) hthere

/-- Every step keeps the accounts. -/
theorem Turnover.accounted (h : w.Turnover w') (hfiled : w.stack.Filed) (hw : w.Accounted) :
    w'.Accounted := by
  cases h with
  | rests h => exact h.accounted hw
  | @leaving r hr hmay =>
    cases hgone : (w.stack.session r).removed with
    | true => rwa [leaving_of_removed hgone]
    | false => exact hw.leaving hr hmay hgone
  | unregister id => exact hw.takenOut hfiled id
  | @register r hr hfree =>
    have hasked : (w.emit (.asked (.register (some r)))).Accounted :=
      (Rests.emit w fun _ => rfl).accounted hw
    exact hasked.enrolling hr hfree (.inl (by simp [registrations, Event.registers, Op.registers]))
  | @enter w' r h hfree =>
    have hmade := (Rests.ofMade h).accounted hw
    refine hmade.enrolling h.lt_size hfree (.inr fun hr => ?_)
    have hbefore := hw.made r ((Rests.ofMade h).registered hr)
    exact absurd (h.fresh ▸ hbefore) (Nat.lt_irrefl _)

/-- **Every run keeps the accounts.** -/
theorem Evolves.accounted (h : w.Evolves w') (hfiled : w.stack.Filed) (hw : w.Accounted) :
    w'.Accounted := by
  induction h with
  | refl => exact hw
  | tail h hstep ih => exact hstep.accounted (Evolves.filed h hfiled) ih

theorem accounted_start (settings : Settings) (client : E.State) :
    (World.start settings client : World E).Accounted := by
  have hnone : ∀ r, ¬Registered r (World.start settings client : World E).trace := by
    rintro r ⟨id, hid⟩
    exact absurd hid List.not_mem_nil
  refine ⟨fun r hr => absurd hr (hnone r), fun id r hid => absurd ⟨id, hid⟩ (hnone r), ?_, ?_,
    fun r _ hgone => ?_, fun _ r hr => absurd hr (hnone r)⟩
  · exact fun e he => absurd he List.not_mem_nil
  · exact fun e he => absurd he List.not_mem_nil
  · exact absurd (Grows.lt_size_of_removed hgone) (Nat.not_lt_zero r)

end World

end FileSharing
