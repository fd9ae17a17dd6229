import FileSharing.Proofs.Fields
import FileSharing.Proofs.Routing

/-!
# Answers to a request to end a dialog

A response belongs to a request by what it repeats of it: the Via fields, by which it finds
its way back, the sender, the call, and the sequence number.  A session repeats all of them,
whether or not it has a dialog; the response for an unknown dialog leaves the Via fields out.

## Main definitions

* `Message.Echoes` — a response that repeats the sender, the call and the sequence number.

## Main results

* `Dialog.echoes_respond`, `Dialog.vias_respond` — a dialog repeats all there is to repeat.
* `bye_answer_echoes` — **the response repeats the Via fields exactly where a session gives
  it**, or where there are none.
-/

namespace FileSharing

variable {E : Environment}

/-! ### Responses -/

namespace Sip

/-- A response repeats the sender, the call and the sequence number of a request. -/
structure Message.Echoes (m request : Message) : Prop where
  sender : m.headers.sender = request.headers.sender
  callId : m.headers.callId = request.headers.callId
  cseq : m.headers.cseq = request.headers.cseq

namespace Dialog

variable (d : Dialog) (request : Message) (code : Int)

theorem echoes_respond : (d.respond request code).Echoes request := by
  constructor
  all_goals
    simp (disch := decide) only [respond, Message.withHeaders, Headers.sender, Headers.callId,
      Headers.cseq, Headers.get_set_of_ne, Headers.get_set_self]

/-- The Via fields of a request are in their canonical spelling, -/
theorem isCanonical_viaFields :
    (⟨request.headers.fields.filter (·.name = ascii "Via")⟩ : Headers).IsCanonical :=
  fun _ hf => ⟨"Via", of_decide_eq_true (List.mem_filter.mp hf).2⟩

/-- and so are all fields of a response. -/
theorem isCanonical_respond : (d.respond request code).headers.IsCanonical :=
  ((((isCanonical_viaFields request).set _ _).set _ _).set _ _).set _ _

/-- The response of a dialog repeats the Via fields, in order. -/
theorem vias_respond : (d.respond request code).headers.vias = request.headers.vias := by
  rw [Headers.vias_eq_values (isCanonical_respond d request code)]
  simp (disch := decide) only [respond, Message.withHeaders, Headers.values_set_of_ne]
  rw [← Headers.vias_eq_values (isCanonical_viaFields request), Headers.vias, Headers.vias,
    List.filter_filter]
  simp only [Bool.and_self]

end Dialog

end Sip

namespace Act

variable (request : Sip.Message)

/-- The response for an unknown dialog repeats all but the Via fields. -/
theorem echoes_unknownDialog : (unknownDialog request).Echoes request := by
  constructor
  all_goals
    simp (disch := decide) only [unknownDialog, Sip.Message.withHeaders, Sip.Headers.sender,
      Sip.Headers.callId, Sip.Headers.cseq, Sip.Headers.get_set_of_ne, Sip.Headers.get_set_self]

theorem vias_unknownDialog : (unknownDialog request).headers.vias = [] := by
  have hempty : Sip.Headers.empty.IsCanonical := fun f hf => absurd hf List.not_mem_nil
  have hcanonical : (unknownDialog request).headers.IsCanonical :=
    (((hempty.set _ _).set _ _).set _ _).set _ _
  rw [Sip.Headers.vias_eq_values hcanonical]
  simp (disch := decide) only [unknownDialog, Sip.Message.withHeaders, Sip.Headers.values_set_of_ne]
  rfl

end Act

/-! ### What is said -/

/-- Whether an event is a response. -/
def Event.isResponse {ν : Type} : Event ν → Bool
  | .response _ _ => true
  | _ => false

theorem not_isResponse_callbacks {ν : Type} {r : Ref} {contact : Contact} {c : Callback}
    {ls : List Listener} : ∀ e ∈ (callbacks r contact c ls : List (Event ν)),
      e.isResponse = false := by
  intro e he
  obtain ⟨l, -, rfl⟩ := List.mem_map.mp he
  rfl

section Answers

open Act

variable {N : Handler E} {w : World E} {r : Ref} (request : Sip.Message)

/-- A session answers in the transaction of the request, whether or not it has a dialog. -/
theorem echoes_byeAnswer (w : World E) (r : Ref) : (w.byeAnswer r request).1.Echoes request := by
  unfold World.byeAnswer
  split
  · exact Sip.Dialog.echoes_respond ..
  · exact Sip.Dialog.echoes_respond ..

theorem vias_byeAnswer (w : World E) (r : Ref) :
    (w.byeAnswer r request).1.headers.vias = request.headers.vias := by
  unfold World.byeAnswer
  split
  · exact Sip.Dialog.vias_respond ..
  · exact Sip.Dialog.vias_respond ..

/-- Whatever a file transfer does after it has answered, what was said stays said. -/
theorem grows_of_answered (levels : Nat) (line : Text) (o : Outcome Unit) (w : World E) (r : Ref) :
    w.Grows (after (exec E levels) (leave r) (after (exec E levels) (notify r (.aborted .byRemote))
      (after (exec E levels) (warnOnFailure line o) w))) := by
  have hlaws := World.Evolves.laws fun (w : World E) op => World.Evolves.exec levels w op
  have hwarned := (hlaws.toSteady.warnOnFailure line o w).grows
  have htold := hwarned.trans
    ((hlaws.toAmbient.notify (r := r) (.aborted .byRemote) _).grows World.Evolves.grows)
  exact htold.trans (grows_leave levels _ r)

/-- Where nobody uses the stack while being told, only callbacks are heard. -/
theorem Environment.IsDiscreet.said_of_answered (h : E.IsDiscreet) (line : Text)
    (o : Outcome Unit) (w : World E) (r : Ref) :
    ∃ contact ls, said (after N (leave r) (after N (notify r (.aborted .byRemote))
      (after N (warnOnFailure line o) w))).trace
        = said w.trace ++ callbacks r contact (.aborted .byRemote) ls := by
  have hwarned := World.Yields.warnOnFailure (N := N) line o w
  have htold := hwarned.hear (World.Yields.notify (N := N) (h.listener · r) _)
  have hleft := htold.trans (World.Yields.leave (N := N) (r := r) _ fun _ => h.removed)
  exact ⟨_, _, by simpa using hleft.said⟩

/-- **A session that gets a request to end its dialog first says its answer**, and does not say
another one unless it is asked to in the meantime. -/
theorem said_bye (levels : Nat) (w : World E) (r : Ref) :
    ∃ T, said (after (exec E levels) (bye r request) w).trace
        = said w.trace ++ .response (some r) (w.byeAnswer r request).1 :: T ∧
      (E.IsDiscreet → ∀ e ∈ T, e.isResponse = false) := by
  by_cases hother : w.stack.isTransfer r = true → (w.stack.session r).interrupted = true
  · have hanswer := (bye_of_other (N := exec E levels) request hother).1
    exact ⟨[], hanswer.said, fun _ e he => absurd he List.not_mem_nil⟩
  · obtain ⟨htransfer, hi⟩ := Classical.not_imp.mp hother
    obtain ⟨line, hafter⟩ :=
      after_bye_of_live (N := exec E levels) request htransfer (Bool.eq_false_iff.mpr hi)
    have hanswer := (World.Yields.answerBye_claiming (N := exec E levels) (r := r) request w).said
    rw [hafter, World.emit_trace, World.change_trace, said_of_not_isSaid rfl]
    generalize after (exec E levels) (answerBye r request) (w.claiming r .bye) = w₁ at hanswer ⊢
    obtain ⟨T, hT⟩ := said_of_prefix (grows_of_answered levels line _ w₁ r).trace
    refine ⟨T, ?_, fun hdiscreet => ?_⟩
    · rw [hT, hanswer, List.append_assoc, List.singleton_append]
    · obtain ⟨contact, ls, hsaid⟩ :=
        hdiscreet.said_of_answered (N := exec E levels) line _ w₁ r
      rw [List.append_cancel_left (hT.symm.trans hsaid)]
      exact not_isResponse_callbacks

end Answers

/-! ### Requests -/

/-- **The response to a request to end a dialog repeats its sender, its call and its sequence
number**, in any world and whoever gives it.  It repeats the Via fields, all of them and in
order, exactly where a session gives it, or where there are none: the response for an unknown
dialog leaves them out.  Those of a request that was read are its fields of that name in any
spelling. -/
theorem bye_answer_echoes (w : World E) (levels : Nat) (request : Sip.Message) :
    (request.isBye = true →
      let w' := ((exec E (levels + 1) (.receiveBye request)).run w).2
      ∃ q m T, said w'.trace = said w.trace ++ .response q m :: T ∧
        (E.IsDiscreet → ∀ e ∈ T, e.isResponse = false) ∧ m.Echoes request ∧
        (m.headers.vias = request.headers.vias ↔
          (∃ r, w.stack.HasCall r request.callId) ∨ request.headers.vias = [])) ∧
    (∀ r < w.stack.sessions.size,
      let w' := ((exec E (levels + 1) (.session r (.bye request))).run w).2
      ∃ m T, said w'.trace = said w.trace ++ .response (some r) m :: T ∧
        (E.IsDiscreet → ∀ e ∈ T, e.isResponse = false) ∧ m.Echoes request ∧
        m.headers.vias = request.headers.vias) ∧
    ∀ s, Sip.Message.parse s = .ok request →
      request.headers.vias = request.headers.values "Via" := by
  refine ⟨fun hbye => ?_, fun r hr => ?_, fun s hread => ?_⟩
  · cases hfound : w.findByCall? request.callId with
    | none =>
      have hnone := Stack.findByCall?_eq_none.mp hfound
      have hsaid := (receiveBye_of_unknown (N := exec E levels) hbye hnone).2.said
      refine ⟨none, Act.unknownDialog request, [], hsaid, fun _ e he => ?_,
        Act.echoes_unknownDialog request, ?_⟩
      · exact absurd he List.not_mem_nil
      · rw [Act.vias_unknownDialog, or_iff_right (not_exists.mpr hnone), eq_comm]
    | some r =>
      obtain ⟨hasked, -, hafter⟩ := receiveBye_of_found (N := exec E levels) hbye hfound
      obtain ⟨T, hT, honce⟩ := said_bye request levels (w.passing r request) r
      rw [← hafter, hasked.said, List.append_nil] at hT
      refine ⟨some r, _, T, hT, honce, echoes_byeAnswer request _ r, ?_⟩
      exact iff_of_true (vias_byeAnswer request _ r) (.inl ⟨r, .ofFound hfound⟩)
  · obtain ⟨T, hT, honce⟩ := said_bye request levels (w.emit (.asked (.session r (.bye request)))) r
    rw [← Act.after_carryOut_bye hr, World.emit_trace, said_of_not_isSaid rfl] at hT
    exact ⟨_, T, hT, honce, echoes_byeAnswer request _ r, vias_byeAnswer request _ r⟩
  · exact Sip.Headers.vias_eq_values (Sip.Headers.isCanonical_parse hread)

/-- Two stations over which a request has come. -/
def stations : List Text := ["SIP/2.0/TCP proxy", "SIP/2.0/TCP edge"]

/-- The request that ends the call, which has come over them. -/
def relayed : Sip.Message :=
  endOfCall.withHeaders fun h => stations.foldl (Sip.Headers.add · "v" ·) h

/-- The invited session repeats both stations. -/
theorem bye_answer_echoes_relayed :
    let w' := ((exec _ (0 + 1) (.receiveBye relayed)).run (invited ["a"])).2
    relayed.isBye = true ∧ 0 < (invited ["a"]).stack.sessions.size ∧
      (invited ["a"]).stack.HasCall 0 relayed.callId ∧
      ∃ q m T, said w'.trace = said (invited ["a"]).trace ++ .response q m :: T ∧
        m.headers.vias = stations := by
  have hbye : relayed.isBye = true := rfl
  have hcall : relayed.callId = endOfCall.callId := by decide +kernel
  have hhas : (invited ["a"]).stack.HasCall 0 relayed.callId :=
    hcall ▸ (hasCall_invited_iff 0).mpr rfl
  obtain ⟨q, m, T, hsaid, -, -, hvias⟩ := (bye_answer_echoes (invited ["a"]) 0 relayed).1 hbye
  have hstations : relayed.headers.vias = stations := by decide +kernel
  refine ⟨hbye, by decide +kernel, hhas, q, m, T, hsaid, ?_⟩
  rw [hvias.mpr (.inl ⟨0, hhas⟩), hstations]

/-- Where nobody was invited, the answer repeats no station. -/
theorem not_bye_answer_echoes_relayed :
    let w' := ((exec _ 1 (.receiveBye relayed)).run (invited [])).2
    relayed.isBye = true ∧
      (w'.trace.filterMap fun e => match e with
        | .response _ m => some (m.status?, m.headers.vias)
        | _ => none) = [(some 481, [])] ∧
      relayed.headers.vias = stations := by
  decide +kernel

end FileSharing
