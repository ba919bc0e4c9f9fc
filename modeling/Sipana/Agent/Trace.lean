import Sipana.Agent.Accountability

/-!
# Trace decomposition

The handler builds a session message by message in a table shared by all calls.
Read back from the run, a session that reaches the sender is a slice of the
trace: all messages with its Call-ID from the request that opened it to the
response that closed it. The slices of two sessions of one Call-ID do not
overlap.
-/

namespace Sipana

namespace SIPHandler

/-- Call number `i` of the run allocates the object `r`. -/
def Opens (calls : List Call) (i : Nat) (r : SessionRef) : Prop :=
  i < calls.length ∧ (run (calls.take i)).next = r ∧
    (run (calls.take (i + 1))).next = r + 1

/-- Call number `j` of the run passes the object `r`, with content `s`, to
`messageSender.send`. -/
def HandsOver (calls : List Call) (j : Nat) (r : SessionRef)
    (s : SIPSession) : Prop :=
  (run (calls.take (j + 1))).sent =
    (run (calls.take j)).sent ++ [.session r s]

instance (calls : List Call) (j : Nat) (r : SessionRef) (s : SIPSession) :
    Decidable (HandsOver calls j r s) :=
  inferInstanceAs (Decidable (_ = _))

/-- The messages number `i` to `j` of the run that carry the Call-ID `c`. -/
def slice (calls : List Call) (c : String) (i j : Nat) : List SIPMessage :=
  (((calls.map Call.message).drop i).take (j + 1 - i)).filter (·.callID = c)

/-- `s` is the content `r` is sent with, and its messages are the slice of the
run between the request that opens `r` and the response that closes it. -/
structure Segment (calls : List Call) (r : SessionRef) (s : SIPSession)
    (i j : Nat) : Prop where
  opens : Opens calls i r
  handsOver : HandsOver calls j r s
  before : i < j
  request : ∃ q, (calls.map Call.message)[i]? = some (.request q) ∧
    q.callID = s.callId
  response : ∃ p, (calls.map Call.message)[j]? = some (.response p) ∧
    p.callID = s.callId
  messages : s.messages = slice calls s.callId i j

/-! ## Live sessions -/

theorem opens_append {calls : List Call} {i : Nat} {r : SessionRef}
    (h : Opens calls i r) (post : List Call) : Opens (calls ++ post) i r := by
  obtain ⟨hi, hnext, hsucc⟩ := h
  refine ⟨by rw [List.length_append]; omega, ?_, ?_⟩
  · rwa [List.take_append_of_le_length (by omega)]
  · rwa [List.take_append_of_le_length (by omega)]

theorem message_append {calls : List Call} {i : Nat} {m : SIPMessage}
    (h : (calls.map Call.message)[i]? = some m) (post : List Call) :
    ((calls ++ post).map Call.message)[i]? = some m := by
  have hi : i < (calls.map Call.message).length := by
    rw [List.getElem?_eq_some_iff] at h
    exact h.1
  rwa [List.map_append, List.getElem?_append_left hi]

/-- The messages of a Call-ID from number `i` on, with one more call. -/
theorem messages_since_snoc {calls : List Call} {i : Nat}
    (hi : i ≤ calls.length) (call : Call) (c : String) :
    (((calls ++ [call]).map Call.message).drop i).filter (·.callID = c) =
      ((calls.map Call.message).drop i).filter (·.callID = c) ++
        if call.message.callID = c then [call.message] else [] := by
  have hlen : i ≤ (calls.map Call.message).length := by
    rw [List.length_map]
    exact hi
  rw [List.map_append, List.drop_append_of_le_length hlen, List.filter_append]
  by_cases hc : call.message.callID = c
  · simp [hc]
  · simp [hc]

/-- A slice up to a call does not depend on the calls after it. -/
theorem slice_upto {pre post : List Call} {call : Call} {i : Nat}
    (hi : i ≤ pre.length) (c : String) :
    slice (pre ++ call :: post) c i pre.length =
      (((pre ++ [call]).map Call.message).drop i).filter (·.callID = c) := by
  have htake : (pre ++ call :: post).take (pre.length + 1) = pre ++ [call] := by
    simp [List.take_append]
  have hend : pre.length + 1 - i + i = pre.length + 1 := by
    omega
  rw [slice, List.take_drop, ← List.map_take, Nat.add_comm, hend, htake]

/-- The messages of a live session are all messages of its Call-ID since the
request that opened it. -/
theorem live_slice (calls : List Call) (c : String) (r : SessionRef)
    (h : (run calls).getSession c = some r) :
    ∃ i, Opens calls i r ∧
      (∃ q, (calls.map Call.message)[i]? = some (.request q) ∧
        q.callID = ((run calls).heap r).callId) ∧
      ((run calls).heap r).messages =
        ((calls.map Call.message).drop i).filter
          (·.callID = ((run calls).heap r).callId) := by
  refine live_induction (fun calls r s => ∃ i, Opens calls i r ∧
      (∃ q, (calls.map Call.message)[i]? = some (.request q) ∧
        q.callID = s.callId) ∧
      s.messages = ((calls.map Call.message).drop i).filter
        (·.callID = s.callId)) ?_ ?_ ?_ calls c r h
  · intro calls call q hm _ hrun
    refine ⟨calls.length, ⟨by simp, by simp, ?_⟩, ⟨q, ?_, rfl⟩, ?_⟩
    · rw [List.take_of_length_le (by simp), hrun, openSession_next]
    · simp [hm]
    · simp [hm, SIPSession.ofRequest]
  · intro calls call r s hslice _ hid _ _
    obtain ⟨i, hopens, ⟨q, hq, hqid⟩, hmsgs⟩ := hslice
    refine ⟨i, opens_append hopens _,
      ⟨q, message_append hq _, by rwa [SIPSession.absorb_callId]⟩, ?_⟩
    rw [messages_since_snoc (Nat.le_of_lt hopens.1), SIPSession.absorb_callId,
      if_pos hid, ← hmsgs, SIPSession.absorb_messages]
  · intro calls call r s hslice hid
    obtain ⟨i, hopens, ⟨q, hq, hqid⟩, hmsgs⟩ := hslice
    refine ⟨i, opens_append hopens _, ⟨q, message_append hq _, hqid⟩, ?_⟩
    rw [messages_since_snoc (Nat.le_of_lt hopens.1), if_neg hid,
      List.append_nil, ← hmsgs]

/-! ## Hand-overs -/

/-- What a hand-over says about the state before it. -/
theorem HandsOver.live {calls : List Call} {j : Nat} {r : SessionRef}
    {s : SIPSession} (h : HandsOver calls j r s) :
    ∃ call, calls[j]? = some call ∧
      (run (calls.take j)).getSession call.message.callID = some r ∧
      call.message.closes = true ∧
      s = ((run (calls.take j)).heap r).absorb call.message ∧
      s.callId = call.message.callID := by
  unfold HandsOver at h
  cases hcall : calls[j]? with
  | none =>
    -- past the end of the run nothing is handed over
    have hlen : calls.length ≤ j := List.getElem?_eq_none_iff.mp hcall
    rw [List.take_of_length_le hlen, List.take_of_length_le (by omega)] at h
    exact absurd h (by simp)
  | some call =>
    rw [run, machine.run_take_succ hcall] at h
    have hsent := process_sent (wf_run (calls.take j)) call
    have hone : (run (calls.take j)).handOver call.message =
        [.session r s] :=
      List.append_cancel_left (hsent.symm.trans h)
    obtain ⟨hlive, hclose, rfl⟩ :=
      session_mem_handOver.mp (hone ▸ List.mem_singleton_self _)
    refine ⟨call, rfl, hlive, hclose, rfl, ?_⟩
    rw [SIPSession.absorb_callId]
    exact (wf_run _).keyed _ _ hlive

/-- After its hand-over the Call-ID of a session is free. -/
theorem HandsOver.free {calls : List Call} {j : Nat} {r : SessionRef}
    {s : SIPSession} (h : HandsOver calls j r s) :
    (run (calls.take (j + 1))).getSession s.callId = none := by
  obtain ⟨call, hcall, hlive, hclose, -, hid⟩ := h.live
  have hwf := wf_run (calls.take j)
  rw [run, machine.run_take_succ hcall, hid]
  have heff := process_effect hwf call
  show ((run (calls.take j)).process call).getSession _ = none
  generalize call.message = m, (run (calls.take j)).process call = τ
    at heff hlive hclose ⊢
  cases heff with
  | ignored hnone => exact hnone
  | standalone hnone => exact hnone
  | opened => simp [SIPMessage.closes] at hclose
  | absorbed _ _ hkeep => simp [hkeep] at hclose
  | closed hs => rw [getSession_closed hwf hs, if_pos rfl]

theorem Opens.next_lt {calls : List Call} {i k : Nat} {r : SessionRef}
    (h : Opens calls i r) (hik : i < k) : r < (run (calls.take k)).next := by
  obtain ⟨bs, hbs⟩ := machine.run_take_of_le calls hik
  have hle := next_le_exec (wf_run (calls.take (i + 1))) bs
  rw [h.2.2] at hle
  show r < (machine.run (calls.take k)).next
  rw [hbs]
  exact hle

theorem Opens.unique {calls : List Call} {i i' : Nat} {r : SessionRef}
    (h : Opens calls i r) (h' : Opens calls i' r) : i = i' := by
  rcases Nat.lt_trichotomy i i' with hlt | heq | hgt
  · exact absurd h'.2.1 (Nat.ne_of_gt (h.next_lt hlt))
  · exact heq
  · exact absurd h.2.1 (Nat.ne_of_gt (h'.next_lt hgt))

/-- The session of a later hand-over is opened after the earlier hand-over. -/
theorem Segment.opens_after {calls : List Call} {r r' : SessionRef}
    {s s' : SIPSession} {i j i' j' : Nat} (h : Segment calls r s i j)
    (h' : Segment calls r' s' i' j') (hid : s.callId = s'.callId)
    (hj : j < j') : j < i' := by
  by_contra hle
  -- opened in time, `r'` would be live where the Call-ID was just freed
  have hr' := h'.opens.next_lt (Nat.lt_succ_of_le (Nat.le_of_not_lt hle))
  obtain ⟨call, -, hlive, -, -, hid'⟩ := h'.handsOver.live
  obtain ⟨bs, hbs⟩ := machine.run_take_of_le calls (Nat.succ_le_of_lt hj)
  change ((machine.run (calls.take j')).getSession _ = _) at hlive
  rw [hbs] at hlive
  have hwas := (exec_absorbs (wf_run (calls.take (j + 1))) hr'
    (fun _ _ _ _ _ _ => trivial) bs hlive (P := fun _ => True)).1
  rw [← hid', ← hid, h.handsOver.free] at hwas
  cases hwas

/-! ## The decomposition -/

theorem exists_segment (calls : List Call) (r : SessionRef) (s : SIPSession)
    (h : .session r s ∈ (run calls).sent) : ∃ i j, Segment calls r s i j := by
  obtain ⟨pre, call, post, rfl, hmem⟩ := (mem_sent_iff calls _).mp h
  obtain ⟨hlive, hclose, hs⟩ := session_mem_handOver.mp hmem
  obtain ⟨i, hopens, ⟨q, hq, hqid⟩, hmsgs⟩ := live_slice pre _ r hlive
  have hi : i < pre.length := hopens.1
  have hkey : ((run pre).heap r).callId = s.callId := by
    rw [hs, SIPSession.absorb_callId]
  have hid : s.callId = call.message.callID :=
    hkey.symm.trans ((wf_run pre).keyed _ _ hlive)
  refine ⟨i, pre.length, opens_append hopens _, ?_, hi,
    ⟨q, message_append hq _, hqid.trans hkey⟩, ?_, ?_⟩
  · have htake : (pre ++ call :: post).take (pre.length + 1) =
        pre ++ [call] := by simp [List.take_append]
    have hone : (run pre).handOver call.message = [.session r s] := by
      simp [handOver, hlive, hclose, hs]
    rw [HandsOver, htake, run_snoc, process_sent (wf_run pre), hone]
    simp
  · cases hm : call.message with
    | request q => simp [hm, SIPMessage.closes] at hclose
    | response p => exact ⟨p, by simp [hm], by rw [hid, hm]; rfl⟩
  · rw [slice_upto (Nat.le_of_lt hi), messages_since_snoc (Nat.le_of_lt hi),
      if_pos hid.symm, ← hkey, ← hmsgs, hs, SIPSession.absorb_messages]

/-- Every session that reaches the sender is a slice of the trace, and two
slices of one Call-ID are the same hand-over or do not overlap. -/
theorem trace_decomposition (calls : List Call) :
    (∀ r s, .session r s ∈ (run calls).sent →
      ∃ i j, Segment calls r s i j) ∧
    (∀ r s i j r' s' i' j', Segment calls r s i j →
      Segment calls r' s' i' j' → s.callId = s'.callId →
      (r = r' ∧ i = i' ∧ j = j') ∨ j < i' ∨ j' < i) := by
  refine ⟨exists_segment calls, ?_⟩
  intro r s i j r' s' i' j' h h' hid
  rcases Nat.lt_trichotomy j j' with hlt | rfl | hgt
  · exact Or.inr (Or.inl (h.opens_after h' hid hlt))
  · have hentry := List.append_cancel_left
      (h.handsOver.symm.trans h'.handsOver)
    simp only [List.cons.injEq, Sent.session.injEq, and_true] at hentry
    obtain ⟨rfl, -⟩ := hentry
    exact Or.inl ⟨rfl, h.opens.unique h'.opens, rfl⟩
  · exact Or.inr (Or.inr (h'.opens_after h hid.symm hgt))

end SIPHandler

end Sipana
