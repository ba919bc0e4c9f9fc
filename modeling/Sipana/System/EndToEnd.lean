import Sipana.Agent.Isolation
import Sipana.Lib.Multiplicity
import Sipana.Server.StoredSessions

/-!
# From the wire to the table

The handler of an agent turns captured messages into sessions and standalone
messages, and the bean of the server turns what it takes from the queue into
rows of a table. Between them objects may be lost or held back. Two results hold
of both ends together:

* `stored_in_order` — as long as the order of the hand-overs is kept, the
  messages in the rows of a call, read row by row, are messages of that call in
  the order they were captured;
* `stored_at_most_once` — in whatever order the objects arrive, no message is
  stored more often than it was captured.
-/

namespace Sipana

def SIPMessage.IsResponse : SIPMessage → Prop
  | .request _ => False
  | .response _ => True

/-- The message of the queue that carries what is passed to
`messageSender.send`. -/
def Sent.jms : Sent → JMSMessage
  | .session _ s => .objectMessage (.session s)
  | .message m => .objectMessage (.message m)

/-! ## What a tracker passes on -/

def Delivery.messages : Delivery → List SIPMessage
  | .session s => s.messages
  | .message m => [m]

namespace CallTrack

/-- The messages of the live session. -/
def held (t : CallTrack) : List SIPMessage :=
  (t.live.map SIPSession.messages).getD []

/-- What was passed on and what is still held. -/
def trace (t : CallTrack) : List SIPMessage :=
  t.delivered.flatMap Delivery.messages ++ t.held

theorem trace_step (t : CallTrack) (m : SIPMessage) :
    (t.step m).trace.Sublist (t.trace ++ [m]) := by
  obtain ⟨live, delivered⟩ := t
  -- a session that is opened may displace the live one
  have hopened : ∀ q, (CallTrack.mk (some (SIPSession.ofRequest q))
      delivered).trace.Sublist
        ((CallTrack.mk live delivered).trace ++ [.request q]) := by
    intro q
    simp only [trace, held, Option.map_some, Option.getD_some,
      SIPSession.ofRequest, List.append_assoc]
    exact (List.sublist_append_right _ _).append_left _
  cases m with
  | request q =>
    cases live with
    | none =>
      unfold step request
      simp only
      split
      · exact hopened q
      · exact List.sublist_append_left _ _
    | some s =>
      unfold step request
      simp only
      split
      · exact hopened q
      · simp [trace, held]
  | response p =>
    cases live with
    | none => simp [step, response, trace, held, Delivery.messages]
    | some s =>
      unfold step response
      simp only
      split <;> simp [trace, held, Delivery.messages]

/-- The messages a tracker has passed on or holds are messages it was given, in
order. -/
theorem trace_run (ms : List SIPMessage) : (machine.run ms).trace.Sublist ms := by
  induction ms using List.reverseRecOn with
  | nil => exact List.Sublist.refl _
  | append_singleton ms m ih =>
    rw [machine.run_snoc]
    exact (trace_step _ m).trans (ih.append (List.Sublist.refl _))

end CallTrack

namespace SIPHandler

open SIPSessionMDB

/-! ## What the handler passes on -/

theorem contents_ofCall (xs : List Sent) (c : String) :
    ((xs.map Sent.jms).filter (ofCall c)).flatMap contents =
      (xs.filterMap (delivery c)).flatMap Delivery.messages := by
  induction xs with
  | nil => rfl
  | cons x xs ih =>
    rw [List.map_cons, List.filter_cons, List.filterMap_cons]
    cases x with
    | session r s =>
      by_cases hc : s.callId = c <;>
        simp [Sent.jms, ofCall, delivery, contents, Delivery.messages, hc, ih]
    | message m =>
      by_cases hc : m.callID = c <;>
        simp [Sent.jms, ofCall, delivery, contents, Delivery.messages, hc, ih]

/-- What the handler passes on for a call are messages of the call, in order. -/
theorem contents_sublist (calls : List Call) (c : String) :
    ((((run calls).sent.map Sent.jms).filter (ofCall c)).flatMap
      contents).Sublist (messagesOf calls c) := by
  have hview : track c (run calls) = CallTrack.machine.run (messagesOf calls c) :=
    trackers.view_run c calls
  have htrace := CallTrack.trace_run (messagesOf calls c)
  rw [← hview] at htrace
  rw [contents_ofCall]
  exact (List.sublist_append_left _ _).trans htrace

/-- The messages in a hand-over are of its call. -/
theorem ofCall_of_mem_contents {calls : List Call} {x : Sent}
    (hx : x ∈ (run calls).sent) {m : SIPMessage} (hm : m ∈ contents x.jms) :
    ofCall m.callID x.jms = true := by
  obtain ⟨c, hc⟩ : ∃ c, ofCall c x.jms = true := by
    cases x with
    | session r s => exact ⟨s.callId, by simp [Sent.jms, ofCall]⟩
    | message m => exact ⟨m.callID, by simp [Sent.jms, ofCall]⟩
  have hin : m ∈ messagesOf calls c := by
    apply (contents_sublist calls c).subset
    rw [List.mem_flatMap]
    exact ⟨x.jms, List.mem_filter.mpr ⟨List.mem_map_of_mem hx, hc⟩, hm⟩
  obtain rfl : m.callID = c := by
    simpa [messagesOf] using (List.mem_filter.mp hin).2
  exact hc

/-- The handler passes no message on more often than it was captured. -/
theorem count_contents (calls : List Call) (m : SIPMessage) :
    (((run calls).sent.map Sent.jms).flatMap contents).count m ≤
      (calls.map Call.message).count m := by
  have hown : (((run calls).sent.map Sent.jms).flatMap contents).count m =
      ((((run calls).sent.map Sent.jms).filter (ofCall m.callID)).flatMap
        contents).count m := by
    apply Multiplicity.count_flatMap_filter
    intro a ha hm
    obtain ⟨x, hx, rfl⟩ := List.mem_map.mp ha
    exact ofCall_of_mem_contents hx hm
  calc (((run calls).sent.map Sent.jms).flatMap contents).count m
      = _ := hown
    _ ≤ (messagesOf calls m.callID).count m :=
        (contents_sublist calls m.callID).count_le m
    _ ≤ (calls.map Call.message).count m :=
        List.filter_sublist.count_le m

/-- What the handler passes on without a session are responses. -/
theorem isResponse_of_sent {calls : List Call} {m : SIPMessage}
    (h : .message m ∈ (run calls).sent) : m.IsResponse := by
  obtain ⟨pre, call, post, -, hmem⟩ := (mem_sent_iff calls _).mp h
  unfold handOver at hmem
  split at hmem
  · split at hmem <;> simp at hmem
  · split at hmem
    · cases hmem
    · obtain rfl : m = _ := by simpa using hmem
      trivial

theorem id_of_live (calls : List Call) (c : String) (r : SessionRef)
    (h : (run calls).getSession c = some r) : ((run calls).heap r).id = 0 := by
  refine live_induction (fun _ _ s => s.id = 0) ?_ ?_ ?_ calls c r h
  · intro _ _ _ _ _ _
    rfl
  · intro _ call _ s hs _ _ _ _
    rwa [SIPSession.absorb_id]
  · intro _ _ _ _ hs _
    exact hs

/-- The sessions the handler passes on have not been saved. -/
theorem unsaved_of_sent {calls : List Call} {x : Sent}
    (hx : x ∈ (run calls).sent) : Unsaved x.jms := by
  cases x with
  | message m => trivial
  | session r s =>
    have hid := (forall_sent_iff calls (·.id = 0)).mpr
    refine hid ?_ r s hx
    intro pre call post _ p r _ hs _
    rw [SIPSession.absorb_id]
    exact id_of_live pre _ r hs

theorem unsaved_jms {calls : List Call} {taken : List Sent}
    (h : taken ⊆ (run calls).sent) : ∀ a ∈ taken.map Sent.jms, Unsaved a := by
  intro a ha
  obtain ⟨x, hx, rfl⟩ := List.mem_map.mp ha
  exact unsaved_of_sent (h hx)

end SIPHandler

/-! ## What the bean stores -/

namespace SIPSessionMDB

variable {messages : List JMSMessage}

theorem storedOf_run (h : ∀ a ∈ messages, Unsaved a) (c : String) :
    (storedOf (run messages) c).Sublist
      ((messages.filter (ofCall c)).flatMap contents) := by
  induction messages using List.reverseRecOn with
  | nil => exact List.Sublist.refl _
  | append_singleton messages a ih =>
    have hstep : run (messages ++ [a]) = onMessage (run messages) a :=
      machine.run_snoc messages a
    have hbefore := ih fun b hb => h b (by simp [hb])
    rw [hstep, List.filter_append, List.flatMap_append]
    refine (storedOf_onMessage _ (h a (by simp)) c).trans ?_
    refine hbefore.append ?_
    cases hc : ofCall c a <;> simp [hc]

theorem count_storedMessages_run (h : ∀ a ∈ messages, Unsaved a)
    (m : SIPMessage) :
    (storedMessages (run messages)).count m ≤
      (messages.flatMap contents).count m := by
  induction messages using List.reverseRecOn with
  | nil => exact Nat.le_refl _
  | append_singleton messages a ih =>
    have hstep : run (messages ++ [a]) = onMessage (run messages) a :=
      machine.run_snoc messages a
    have hbefore := ih fun b hb => h b (by simp [hb])
    have hadded := count_storedMessages_onMessage (run messages)
      (h a (by simp)) m
    rw [hstep, List.flatMap_append, List.count_append, List.flatMap_singleton]
    omega

end SIPSessionMDB

/-! ## Both ends -/

namespace SIPHandler

open SIPSessionMDB

/-- If the objects that arrive keep the order of the hand-overs, the stored
messages of a call, row by row, are captured messages of it in order. -/
theorem stored_in_order (calls : List Call) (taken : List Sent)
    (h : taken.Sublist (run calls).sent) (c : String) :
    (storedOf (SIPSessionMDB.run (taken.map Sent.jms)) c).Sublist
      (messagesOf calls c) := by
  have hstored := storedOf_run (unsaved_jms h.subset) c
  have hpassed : (((taken.map Sent.jms).filter (ofCall c)).flatMap
      contents).Sublist ((((run calls).sent.map Sent.jms).filter
        (ofCall c)).flatMap contents) :=
    ((h.map Sent.jms).filter (ofCall c)).flatMap contents
  exact (hstored.trans hpassed).trans (contents_sublist calls c)

/-- However the hand-overs are reordered on their way, no message is stored more
often than it was captured. -/
theorem stored_at_most_once (calls : List Call) (taken : List Sent)
    (h : taken.Subperm (run calls).sent) (m : SIPMessage) :
    (storedMessages (SIPSessionMDB.run (taken.map Sent.jms))).count m ≤
      (calls.map Call.message).count m := by
  have hstored := count_storedMessages_run (unsaved_jms h.subset) m
  have hpassed := (Multiplicity.subperm_flatMap
    (Multiplicity.subperm_map h Sent.jms) contents).count_le m
  have hcaptured := count_contents calls m
  omega

/-- A call that is authenticated, with a late response in between. -/
def authenticatedCall : List Call :=
  [.request "INVITE" "a" 1, .response 407 "INVITE" "a" 2,
    .response 407 "INVITE" "a" 3, .request "INVITE" "a" 4,
    .response 486 "INVITE" "a" 5]

theorem authenticated_in_order :
    (storedOf (SIPSessionMDB.run
      ((run authenticatedCall).sent.map Sent.jms)) "a").Sublist
      (messagesOf authenticatedCall "a") :=
  stored_in_order _ _ (List.Sublist.refl _) "a"

theorem authenticated_reversed :
    (storedMessages (SIPSessionMDB.run
      ((run authenticatedCall).sent.reverse.map Sent.jms))).count
        (.request { callID := "a", time := 1, method := "INVITE" }) ≤
      (authenticatedCall.map Call.message).count
        (.request { callID := "a", time := 1, method := "INVITE" }) :=
  stored_at_most_once _ _ (List.reverse_perm _).subperm _

end SIPHandler

end Sipana
