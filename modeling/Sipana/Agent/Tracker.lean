import Sipana.Lib.Machine
import Sipana.Protocol.SIPSession

/-!
# What one message does to its call

The abstract view of the handler: one tracker per Call-ID, with no references,
no shared table and no sender. A message is classified by the role it plays in
a call (`RequestKind`, `ResponseKind`); a session absorbs the messages of its
call one by one (`SIPSession.absorb`) until a response closes it.

`SIPSessionState.rank` orders the states. A session only moves up until it is
closed (`SIPSession.absorb_rank_le`), which is what makes most milestones
write-once.
-/

namespace Sipana

/-! ## Roles -/

inductive RequestKind
  | invite
  | ack
  | disconnect
  | other
deriving DecidableEq, Repr

def SIPRequest.kind (q : SIPRequest) : RequestKind :=
  if q.method = Request.INVITE then .invite
  else if q.method = Request.ACK then .ack
  else if q.method = Request.BYE ∨ q.method = Request.CANCEL then .disconnect
  else .other

inductive ResponseKind
  | ringing
  | inviteOK
  | cancelOK
  | byeOK
  | otherOK
  | failure
  /-- Recorded, but no milestone of the call. -/
  | passive
deriving DecidableEq, Repr

def SIPResponse.kind (p : SIPResponse) : ResponseKind :=
  if p.statusCode = Response.RINGING ∨
      p.statusCode = Response.SESSION_PROGRESS then .ringing
  else if p.statusCode = Response.OK then
    if p.relatedRequestMethod = Request.INVITE then .inviteOK
    else if p.relatedRequestMethod = Request.CANCEL then .cancelOK
    else if p.relatedRequestMethod = Request.BYE then .byeOK
    else .otherOK
  else if 400 ≤ p.statusCode ∧ p.statusCode < 700 then .failure
  else .passive

def ResponseKind.closes : ResponseKind → Bool
  | .cancelOK | .byeOK | .otherOK | .failure => true
  | .ringing | .inviteOK | .passive => false

namespace SIPRequest

theorem kind_disconnect {q : SIPRequest} (h : q.kind = .disconnect) :
    q.method = Request.BYE ∨ q.method = Request.CANCEL := by
  unfold kind at h
  split_ifs at h with _ _ hdis
  exact hdis

theorem kind_disconnect_iff {q : SIPRequest} :
    q.kind = .disconnect ↔
      q.method = Request.BYE ∨ q.method = Request.CANCEL := by
  refine ⟨kind_disconnect, ?_⟩
  intro h
  have hother : q.method ≠ Request.INVITE ∧ q.method ≠ Request.ACK := by
    rcases h with h | h <;> rw [h] <;> decide
  rw [kind, if_neg hother.1, if_neg hother.2, if_pos h]

/-- A request that opens a session is none of ACK, BYE and CANCEL. -/
theorem kind_opens {q : SIPRequest} (h : q.kind = .other ∨ q.kind = .invite) :
    q.method ≠ Request.ACK ∧ q.method ≠ Request.BYE ∧
      q.method ≠ Request.CANCEL := by
  unfold kind at h
  split_ifs at h with hinv hack hdis
  · rw [hinv]
    decide
  · simp at h
  · simp at h
  · exact ⟨hack, fun e => hdis (Or.inl e), fun e => hdis (Or.inr e)⟩

end SIPRequest

namespace SIPResponse

theorem kind_ringing {p : SIPResponse} (h : p.kind = .ringing) :
    p.statusCode = Response.RINGING ∨
      p.statusCode = Response.SESSION_PROGRESS := by
  unfold kind at h
  split_ifs at h with hring
  exact hring

theorem kind_inviteOK {p : SIPResponse} (h : p.kind = .inviteOK) :
    p.statusCode = Response.OK ∧ p.relatedRequestMethod = Request.INVITE := by
  unfold kind at h
  split_ifs at h with _ hok hinv
  exact ⟨hok, hinv⟩

/-- A session is closed by any failure and by a 200 to anything but INVITE. -/
theorem kind_closes {p : SIPResponse} :
    p.kind.closes = true ↔
      (p.statusCode = Response.OK ∧
        p.relatedRequestMethod ≠ Request.INVITE) ∨
      (400 ≤ p.statusCode ∧ p.statusCode < 700) := by
  have hvalues := Response.values
  unfold kind
  split_ifs with hring h200 hinv hcan hbye hfail
  · simp only [ResponseKind.closes, Bool.false_eq_true, false_iff, not_or]
    exact ⟨fun h => by omega, by omega⟩
  · simp only [ResponseKind.closes, Bool.false_eq_true, false_iff, not_or]
    exact ⟨fun h => h.2 hinv, by omega⟩
  · simp [ResponseKind.closes, h200, hinv]
  · simp [ResponseKind.closes, h200, hinv]
  · simp [ResponseKind.closes, h200, hinv]
  · simp [ResponseKind.closes, hfail]
  · simp [ResponseKind.closes, h200, hfail]

/-- No status code is both provisional and final. -/
theorem not_ringing_of_final {p : SIPResponse} (h : 200 ≤ p.statusCode) :
    ¬ (p.statusCode = Response.RINGING ∨
      p.statusCode = Response.SESSION_PROGRESS) := by
  have hvalues := Response.values
  omega

theorem kind_of_failure {p : SIPResponse}
    (h : 400 ≤ p.statusCode ∧ p.statusCode < 700) : p.kind = .failure := by
  have hvalues := Response.values
  rw [kind, if_neg (by omega), if_neg (by omega), if_pos h]

theorem kind_failure_iff {p : SIPResponse} :
    p.kind = .failure ↔ 400 ≤ p.statusCode ∧ p.statusCode < 700 := by
  refine ⟨?_, kind_of_failure⟩
  intro h
  unfold kind at h
  split_ifs at h with _ _ _ _ _ hfail
  exact hfail

/-- What a 200 means is decided by the method it is related to. -/
theorem kind_of_ok {p : SIPResponse} (h : p.statusCode = Response.OK) :
    p.kind =
      if p.relatedRequestMethod = Request.INVITE then .inviteOK
      else if p.relatedRequestMethod = Request.CANCEL then .cancelOK
      else if p.relatedRequestMethod = Request.BYE then .byeOK
      else .otherOK := by
  have hvalues := Response.values
  rw [kind, if_neg (by omega), if_pos h]

/-- Outside the classes 1xx, 2xx and 4xx to 6xx a response means nothing. -/
theorem kind_of_unhandled {p : SIPResponse}
    (h1 : ¬ (100 ≤ p.statusCode ∧ p.statusCode < 200))
    (h2 : ¬ (200 ≤ p.statusCode ∧ p.statusCode < 300))
    (h4 : ¬ (400 ≤ p.statusCode ∧ p.statusCode < 700)) :
    p.kind = .passive := by
  have hvalues := Response.values
  rw [kind, if_neg (by omega), if_neg (by omega), if_neg h4]

theorem closes_of_provisional {p : SIPResponse} (h : p.statusCode < 200) :
    p.kind.closes = false := by
  rw [Bool.eq_false_iff, ne_eq, kind_closes]
  intro hclose
  have hvalues := Response.values
  rcases hclose with ⟨hcode, -⟩ | hcode <;> omega

/-- The responses that set the setup time when they close a session. -/
def SetsUp (p : SIPResponse) : Prop :=
  (p.statusCode = Response.OK ∧ p.relatedRequestMethod ≠ Request.INVITE ∧
    p.relatedRequestMethod ≠ Request.CANCEL ∧
    p.relatedRequestMethod ≠ Request.BYE) ∨
  (400 ≤ p.statusCode ∧ p.statusCode < 700)

instance (p : SIPResponse) : Decidable p.SetsUp :=
  inferInstanceAs (Decidable (_ ∨ _))

theorem kind_setsUp {p : SIPResponse} :
    p.kind = .otherOK ∨ p.kind = .failure ↔ p.SetsUp := by
  have hvalues := Response.values
  unfold kind SetsUp
  split_ifs with hring h200 hinv hcan hbye hfail
  · simp
    omega
  · simp [h200, hinv]
    omega
  · simp [h200, hcan]
    omega
  · simp [h200, hbye]
    omega
  · simp [h200, hinv, hcan, hbye]
  · simp [hfail]
  · simp [h200, hfail]

theorem SetsUp.closes {p : SIPResponse} (h : p.SetsUp) :
    p.kind.closes = true := by
  rcases kind_setsUp.mpr h with hkind | hkind <;> rw [hkind] <;> rfl

end SIPResponse

namespace SIPMessage

/-- The message starts a session whether or not one is live. -/
def reopens : SIPMessage → Bool
  | request q => q.kind = .other
  | response _ => false

/-- The message ends the session it finds. -/
def closes : SIPMessage → Bool
  | request _ => false
  | response p => p.kind.closes

@[simp] theorem closes_setTime (t : Int) (m : SIPMessage) :
    (m.setTime t).closes = m.closes := by
  cases m <;> rfl

end SIPMessage

/-! ## Sessions absorb messages -/

namespace SIPSession

/-- The milestone a response of kind `k` received at time `t` marks. -/
def settle (s : SIPSession) (k : ResponseKind) (t : Int) : SIPSession :=
  match k with
  | .ringing =>
    if s.state = .initiated then
      { s with setupTime := t, state := .provisioned }
    else s
  | .inviteOK =>
    match s.state with
    | .initiated =>
      { s with setupTime := t, establishedTime := t, state := .established }
    | .provisioned => { s with establishedTime := t, state := .established }
    | _ => s
  | .cancelOK => { s with endTime := t, state := .canceled }
  | .byeOK => { s with endTime := t, state := .completed }
  | .otherOK => { s with setupTime := t, endTime := t, state := .completed }
  | .failure => { s with setupTime := t, endTime := t, state := .failed }
  | .passive => s

/-- The first response leaves its time. -/
def noteResponse (s : SIPSession) (t : Int) : SIPSession :=
  if s.firstResponseTime = 0 then { s with firstResponseTime := t } else s

/-- The session after one more message of its call. -/
def absorb (s : SIPSession) : SIPMessage → SIPSession
  | .request q =>
    match q.kind with
    | .disconnect =>
      { s.addMessage (.request q) with
        disconnectionStart := q.time, state := .disconnecting }
    | _ => s.addMessage (.request q)
  | .response p =>
    ((s.addMessage (.response p)).noteResponse p.time).settle p.kind p.time

theorem absorb_disconnect (s : SIPSession) {q : SIPRequest}
    (h : q.kind = .disconnect) :
    s.absorb (.request q) = { s.addMessage (.request q) with
      disconnectionStart := q.time, state := .disconnecting } := by
  simp [absorb, h]

theorem absorb_request (s : SIPSession) {q : SIPRequest}
    (h : q.kind ≠ .disconnect) :
    s.absorb (.request q) = s.addMessage (.request q) := by
  cases hkind : q.kind with
  | disconnect => exact absurd hkind h
  | _ => simp [absorb, hkind]

theorem absorb_response (s : SIPSession) (p : SIPResponse) :
    s.absorb (.response p) =
      ((s.addMessage (.response p)).noteResponse p.time).settle p.kind
        p.time := rfl

/-! ### What absorbing leaves alone -/

@[simp] theorem noteResponse_callId (s : SIPSession) (t : Int) :
    (s.noteResponse t).callId = s.callId := by
  unfold noteResponse; split <;> rfl

@[simp] theorem noteResponse_messages (s : SIPSession) (t : Int) :
    (s.noteResponse t).messages = s.messages := by
  unfold noteResponse; split <;> rfl

@[simp] theorem noteResponse_state (s : SIPSession) (t : Int) :
    (s.noteResponse t).state = s.state := by
  unfold noteResponse; split <;> rfl

@[simp] theorem noteResponse_startTime (s : SIPSession) (t : Int) :
    (s.noteResponse t).startTime = s.startTime := by
  unfold noteResponse; split <;> rfl

@[simp] theorem noteResponse_setupTime (s : SIPSession) (t : Int) :
    (s.noteResponse t).setupTime = s.setupTime := by
  unfold noteResponse; split <;> rfl

@[simp] theorem noteResponse_establishedTime (s : SIPSession) (t : Int) :
    (s.noteResponse t).establishedTime = s.establishedTime := by
  unfold noteResponse; split <;> rfl

theorem noteResponse_firstResponseTime (s : SIPSession) (t : Int) :
    (s.noteResponse t).firstResponseTime =
      if s.firstResponseTime = 0 then t else s.firstResponseTime := by
  unfold noteResponse; split <;> rfl

@[simp] theorem settle_startTime (s : SIPSession) (k : ResponseKind)
    (t : Int) : (s.settle k t).startTime = s.startTime := by
  unfold settle; cases k <;> simp only <;> split <;> rfl

@[simp] theorem settle_firstResponseTime (s : SIPSession) (k : ResponseKind)
    (t : Int) : (s.settle k t).firstResponseTime = s.firstResponseTime := by
  unfold settle; cases k <;> simp only <;> split <;> rfl

@[simp] theorem settle_callId (s : SIPSession) (k : ResponseKind) (t : Int) :
    (s.settle k t).callId = s.callId := by
  unfold settle; cases k <;> simp only <;> split <;> rfl

@[simp] theorem settle_messages (s : SIPSession) (k : ResponseKind) (t : Int) :
    (s.settle k t).messages = s.messages := by
  unfold settle; cases k <;> simp only <;> split <;> rfl

@[simp] theorem absorb_callId (s : SIPSession) (m : SIPMessage) :
    (s.absorb m).callId = s.callId := by
  cases m with
  | request q => unfold absorb; simp only; split <;> rfl
  | response p => simp [absorb, addMessage]

@[simp] theorem absorb_messages (s : SIPSession) (m : SIPMessage) :
    (s.absorb m).messages = s.messages ++ [m] := by
  cases m with
  | request q => unfold absorb; simp only; split <;> rfl
  | response p => simp [absorb, addMessage]

@[simp] theorem noteResponse_id (s : SIPSession) (t : Int) :
    (s.noteResponse t).id = s.id := by
  unfold noteResponse; split <;> rfl

@[simp] theorem settle_id (s : SIPSession) (k : ResponseKind) (t : Int) :
    (s.settle k t).id = s.id := by
  unfold settle; cases k <;> simp only <;> split <;> rfl

@[simp] theorem absorb_id (s : SIPSession) (m : SIPMessage) :
    (s.absorb m).id = s.id := by
  cases m with
  | request q => unfold absorb; simp only; split <;> rfl
  | response p => simp [absorb, addMessage]

/-- Recording a response does not bear on the milestone it marks. -/
theorem settle_congr {s t : SIPSession} (hstate : t.state = s.state)
    (hsetup : t.setupTime = s.setupTime)
    (hest : t.establishedTime = s.establishedTime) (k : ResponseKind)
    (u : Int) :
    (t.settle k u).state = (s.settle k u).state ∧
      (t.settle k u).setupTime = (s.settle k u).setupTime ∧
      (t.settle k u).establishedTime = (s.settle k u).establishedTime := by
  cases k with
  | ringing =>
    by_cases hs : s.state = .initiated <;>
      simp [settle, hs, hstate, hsetup, hest]
  | inviteOK => cases hs : s.state <;> simp_all [settle]
  | _ => simp [settle, hstate, hsetup, hest]

theorem absorb_milestones (s : SIPSession) (p : SIPResponse) :
    (s.absorb (.response p)).state = (s.settle p.kind p.time).state ∧
      (s.absorb (.response p)).setupTime =
        (s.settle p.kind p.time).setupTime ∧
      (s.absorb (.response p)).establishedTime =
        (s.settle p.kind p.time).establishedTime := by
  rw [absorb_response]
  apply settle_congr
  · exact noteResponse_state _ _
  · exact noteResponse_setupTime _ _
  · exact noteResponse_establishedTime _ _

end SIPSession

/-! ## Progress -/

/-- How far a session is. The three ways a session can be closed are alike. -/
def SIPSessionState.rank : SIPSessionState → Nat
  | .initiated => 0
  | .provisioned => 1
  | .established => 2
  | .disconnecting => 3
  | .completed | .canceled | .failed | .timeout => 4

namespace SIPSession

def IsOpen (s : SIPSession) : Prop := s.state.rank < 4

theorem isOpen_ofRequest (q : SIPRequest) : (ofRequest q).IsOpen := by
  simp [IsOpen, ofRequest, SIPSessionState.rank]

theorem IsOpen.not_failed {s : SIPSession} (h : s.IsOpen) :
    s.state ≠ .failed := by
  intro hf
  simp [IsOpen, hf, SIPSessionState.rank] at h

theorem settle_rank_le {s : SIPSession} (h : s.IsOpen) (k : ResponseKind)
    (t : Int) : s.state.rank ≤ (s.settle k t).state.rank := by
  unfold IsOpen at h
  unfold settle
  cases k <;> cases hs : s.state <;>
    simp_all [SIPSessionState.rank]

/-- A session that absorbs a message does not fall back. -/
theorem absorb_rank_le {s : SIPSession} (h : s.IsOpen) (m : SIPMessage) :
    s.state.rank ≤ (s.absorb m).state.rank := by
  cases m with
  | request q =>
    unfold absorb
    simp only
    split
    · exact Nat.le_of_lt_succ h
    · exact Nat.le_refl _
  | response p =>
    have hnote : ((s.addMessage (.response p)).noteResponse p.time).state =
        s.state := noteResponse_state _ _
    have hopen : ((s.addMessage (.response p)).noteResponse p.time).IsOpen := by
      simpa only [IsOpen, hnote] using h
    have hstep := settle_rank_le hopen p.kind p.time
    rw [hnote] at hstep
    exact hstep

theorem settle_isOpen {s : SIPSession} (h : s.IsOpen) {k : ResponseKind}
    (hk : k.closes = false) (t : Int) : (s.settle k t).IsOpen := by
  unfold IsOpen at *
  unfold settle
  cases k <;> cases hs : s.state <;>
    simp_all [SIPSessionState.rank, ResponseKind.closes]

/-- Only a closing response ends a session. -/
theorem absorb_isOpen {s : SIPSession} (h : s.IsOpen) {m : SIPMessage}
    (hm : m.closes = false) : (s.absorb m).IsOpen := by
  cases m with
  | request q =>
    unfold absorb
    simp only
    split
    · simp [IsOpen, SIPSessionState.rank]
    · exact h
  | response p =>
    have hopen : ((s.addMessage (.response p)).noteResponse p.time).IsOpen := by
      simpa [IsOpen, addMessage] using h
    exact settle_isOpen hopen hm p.time

end SIPSession

/-! ## One tracker per call -/

/-- What the sender is given. -/
inductive Delivery
  | session (session : SIPSession)
  | message (message : SIPMessage)
deriving DecidableEq, Repr

/-- The live session of one call, and what was delivered for it so far. -/
structure CallTrack where
  live : Option SIPSession
  delivered : List Delivery
deriving DecidableEq, Repr

namespace CallTrack

def request (t : CallTrack) (q : SIPRequest) : CallTrack :=
  match t.live with
  | none =>
    if q.kind = .other ∨ q.kind = .invite then
      { t with live := some (SIPSession.ofRequest q) }
    else t
  | some s =>
    if q.kind = .other then { t with live := some (SIPSession.ofRequest q) }
    else { t with live := some (s.absorb (.request q)) }

def response (t : CallTrack) (p : SIPResponse) : CallTrack :=
  match t.live with
  | none => { t with delivered := t.delivered ++ [.message (.response p)] }
  | some s =>
    if p.kind.closes then
      { live := none
        delivered := t.delivered ++ [.session (s.absorb (.response p))] }
    else { t with live := some (s.absorb (.response p)) }

def step (t : CallTrack) : SIPMessage → CallTrack
  | .request q => t.request q
  | .response p => t.response p

/-- The tracker of one call, as a machine over the messages of that call. -/
def machine : Machine CallTrack SIPMessage := ⟨⟨none, []⟩, step⟩

end CallTrack

end Sipana
