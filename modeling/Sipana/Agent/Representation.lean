import Sipana.Agent.Runs

/-!
# Live sessions represent open calls

`Represents` ties the fields of a live session to each other and to the
messages it has absorbed: which milestones are set follows from the state, and
each milestone is the time of the message that marks it.
-/

namespace Sipana

/-- `s` represents an open call with Call-ID `c`. -/
structure Represents (c : String) (s : SIPSession) : Prop where
  callId : s.callId = c
  messages : ∀ m ∈ s.messages, m.callID = c
  /-- The first message is the request that opened the session. -/
  first : ∃ q, s.messages.head? = some (.request q) ∧
    s.requestMethod = q.method ∧
    (q.method ≠ Request.ACK ∧ q.method ≠ Request.BYE ∧
      q.method ≠ Request.CANCEL) ∧
    s.startTime = q.time
  endTime : s.endTime = 0
  state : s.state = .initiated ∨ s.state = .provisioned ∨
    s.state = .established ∨ s.state = .disconnecting
  initiated : s.state = .initiated →
    s.setupTime = 0 ∧ s.establishedTime = 0 ∧ s.disconnectionStart = 0
  provisioned : s.state = .provisioned →
    s.establishedTime = 0 ∧ s.disconnectionStart = 0 ∧
    ∃ p, .response p ∈ s.messages ∧
      (p.statusCode = Response.RINGING ∨
        p.statusCode = Response.SESSION_PROGRESS) ∧
      s.setupTime = p.time
  established : s.state = .established →
    s.disconnectionStart = 0 ∧
    ∃ p, .response p ∈ s.messages ∧ p.statusCode = Response.OK ∧
      p.relatedRequestMethod = Request.INVITE ∧ s.establishedTime = p.time
  disconnecting : s.state = .disconnecting →
    ∃ q, .request q ∈ s.messages ∧
      (q.method = Request.BYE ∨ q.method = Request.CANCEL) ∧
      s.disconnectionStart = q.time

namespace Represents

variable {c : String} {s : SIPSession}

theorem ofRequest {q : SIPRequest} (h : q.kind = .other ∨ q.kind = .invite) :
    Represents q.callID (SIPSession.ofRequest q) where
  callId := rfl
  messages := by simp [SIPSession.ofRequest]
  first := ⟨q, rfl, rfl, SIPRequest.kind_opens h, rfl⟩
  endTime := rfl
  state := Or.inl rfl
  initiated := fun _ => ⟨rfl, rfl, rfl⟩
  provisioned := by simp [SIPSession.ofRequest]
  established := by simp [SIPSession.ofRequest]
  disconnecting := by simp [SIPSession.ofRequest]

/-- Recording one more message of the call. -/
theorem addMessage (h : Represents c s) {m : SIPMessage} (hm : m.callID = c) :
    Represents c (s.addMessage m) where
  callId := h.callId
  messages := by
    intro m' hm'
    rcases List.mem_append.mp hm' with hold | hnew
    · exact h.messages m' hold
    · rw [List.mem_singleton.mp hnew, hm]
  first := by
    obtain ⟨q, hhead, hrest⟩ := h.first
    exact ⟨q, by simp [SIPSession.addMessage, List.head?_append, hhead], hrest⟩
  endTime := h.endTime
  state := h.state
  initiated := h.initiated
  provisioned := fun hs => by
    obtain ⟨he, hd, p, hp, hrest⟩ := h.provisioned hs
    exact ⟨he, hd, p, List.mem_append_left _ hp, hrest⟩
  established := fun hs => by
    obtain ⟨hd, p, hp, hrest⟩ := h.established hs
    exact ⟨hd, p, List.mem_append_left _ hp, hrest⟩
  disconnecting := fun hs => by
    obtain ⟨q, hq, hrest⟩ := h.disconnecting hs
    exact ⟨q, List.mem_append_left _ hq, hrest⟩

/-- The time of the first response is not tied to anything. -/
theorem noteResponse (h : Represents c s) (t : Int) :
    Represents c (s.noteResponse t) := by
  unfold SIPSession.noteResponse
  split
  · exact ⟨h.callId, h.messages, h.first, h.endTime, h.state, h.initiated,
      h.provisioned, h.established, h.disconnecting⟩
  · exact h

theorem ring (h : Represents c s) {p : SIPResponse}
    (hp : .response p ∈ s.messages) (hkind : p.kind = .ringing) :
    Represents c (s.settle .ringing p.time) := by
  unfold SIPSession.settle
  by_cases hs : s.state = .initiated
  · obtain ⟨-, hest, hdisc⟩ := h.initiated hs
    simp only [if_pos hs]
    refine ⟨h.callId, h.messages, h.first, h.endTime, Or.inr (Or.inl rfl),
      ?_, ?_, ?_, ?_⟩ <;> intro hstate
    · cases hstate
    · exact ⟨hest, hdisc, p, hp, SIPResponse.kind_ringing hkind, rfl⟩
    · cases hstate
    · cases hstate
  · simp only [if_neg hs]
    exact h

theorem answer (h : Represents c s) {p : SIPResponse}
    (hp : .response p ∈ s.messages) (hkind : p.kind = .inviteOK) :
    Represents c (s.settle .inviteOK p.time) := by
  obtain ⟨hcode, hmethod⟩ := SIPResponse.kind_inviteOK hkind
  unfold SIPSession.settle
  cases hs : s.state with
  | initiated =>
    obtain ⟨-, -, hdisc⟩ := h.initiated hs
    refine ⟨h.callId, h.messages, h.first, h.endTime,
      Or.inr (Or.inr (Or.inl rfl)), ?_, ?_, ?_, ?_⟩ <;> intro hstate
    · cases hstate
    · cases hstate
    · exact ⟨hdisc, p, hp, hcode, hmethod, rfl⟩
    · cases hstate
  | provisioned =>
    obtain ⟨-, hdisc, -⟩ := h.provisioned hs
    refine ⟨h.callId, h.messages, h.first, h.endTime,
      Or.inr (Or.inr (Or.inl rfl)), ?_, ?_, ?_, ?_⟩ <;> intro hstate
    · cases hstate
    · cases hstate
    · exact ⟨hdisc, p, hp, hcode, hmethod, rfl⟩
    · cases hstate
  | _ => simpa only [hs] using h

theorem disconnect (h : Represents c s) {q : SIPRequest}
    (hq : .request q ∈ s.messages) (hkind : q.kind = .disconnect) :
    Represents c
      { s with disconnectionStart := q.time, state := .disconnecting } := by
  refine ⟨h.callId, h.messages, h.first, h.endTime,
    Or.inr (Or.inr (Or.inr rfl)), ?_, ?_, ?_, ?_⟩ <;> intro hstate
  · cases hstate
  · cases hstate
  · cases hstate
  · exact ⟨q, hq, SIPRequest.kind_disconnect hkind, rfl⟩

/-- A session that absorbs a message and stays open still represents its
call. -/
theorem absorb (h : Represents c s) {m : SIPMessage} (hm : m.callID = c)
    (hclose : m.closes = false) : Represents c (s.absorb m) := by
  have hadd := h.addMessage hm
  have hmem : m ∈ (s.addMessage m).messages :=
    List.mem_append_right _ (List.mem_singleton_self m)
  cases m with
  | request q =>
    by_cases hkind : q.kind = .disconnect
    · rw [SIPSession.absorb_disconnect s hkind]
      exact hadd.disconnect hmem hkind
    · rw [SIPSession.absorb_request s hkind]
      exact hadd
  | response p =>
    rw [SIPSession.absorb_response]
    have hnote := hadd.noteResponse p.time
    have hmem' : SIPMessage.response p ∈
        ((s.addMessage (.response p)).noteResponse p.time).messages := by
      rwa [SIPSession.noteResponse_messages]
    cases hkind : p.kind with
    | ringing => exact hnote.ring hmem' hkind
    | inviteOK => exact hnote.answer hmem' hkind
    | passive => exact hnote
    | _ => simp [SIPMessage.closes, hkind, ResponseKind.closes] at hclose

theorem not_failed (h : Represents c s) : s.state ≠ .failed := by
  rcases h.state with hs | hs | hs | hs <;> simp [hs]

end Represents

namespace SIPHandler

theorem represents_of_live (calls : List Call) (c : String) (r : SessionRef)
    (h : (run calls).getSession c = some r) :
    Represents c ((run calls).heap r) := by
  have hself : Represents ((run calls).heap r).callId ((run calls).heap r) := by
    refine live_induction (fun _ _ s => Represents s.callId s)
      ?_ ?_ ?_ calls c r h
    · intro _ _ q _ hkind _
      exact Represents.ofRequest hkind
    · intro _ call _ s hs _ hid hclose _
      rw [SIPSession.absorb_callId]
      exact hs.absorb hid hclose
    · intro _ _ _ s hs _
      exact hs
  rwa [(wf_run calls).keyed c r h] at hself

/-- Every live session represents its call in every reachable state. In
particular no ACK finds a FAILED session, and `processAck` terminates none. -/
theorem representation_invariant (calls : List Call) :
    (∀ c r, (run calls).getSession c = some r →
      Represents c ((run calls).heap r)) ∧
    (∀ result ack r, (run calls).getSession ack.callID = some r →
      (((run calls).modify r (·.addMessage (.request ack))).heap r).state ≠
        .failed ∧
      (run calls).processAck result ack =
        (run calls).modify r (·.addMessage (.request ack))) := by
  refine ⟨represents_of_live calls, ?_⟩
  intro result ack r h
  have hstate := (represents_of_live calls _ r h).not_failed
  refine ⟨?_, processAck_live result h hstate⟩
  rw [heap_modify_self]
  exact hstate

end SIPHandler

end Sipana
