import Sipana.Agent.SIPHandler
import Sipana.Agent.Tracker

/-!
# What one call does to the handler

`process_effect` is the inversion lemma of `SIPHandler.process`: a call either
changes nothing, sends a standalone response, opens a session, lets the live
session of its Call-ID absorb the message, or lets it absorb the message and
closes it. Every invariant of the handler is derived from this lemma; nothing
after this module unfolds a `process…` function again.

`Wf` is the invariant of the session table the lemma needs: entries are filed
under the Call-ID of their object, refer to allocated objects, and are in one
of the four open states.
-/

namespace Sipana

namespace SIPHandler

/-! ## The table operations -/

@[simp] theorem modify_next (σ : SIPHandler) (r : SessionRef)
    (f : SIPSession → SIPSession) : (σ.modify r f).next = σ.next := rfl

@[simp] theorem modify_sent (σ : SIPHandler) (r : SessionRef)
    (f : SIPSession → SIPSession) : (σ.modify r f).sent = σ.sent := rfl

@[simp] theorem modify_sessionList (σ : SIPHandler) (r : SessionRef)
    (f : SIPSession → SIPSession) :
    (σ.modify r f).sessionList = σ.sessionList := rfl

@[simp] theorem getSession_modify (σ : SIPHandler) (r : SessionRef)
    (f : SIPSession → SIPSession) (c : String) :
    (σ.modify r f).getSession c = σ.getSession c := rfl

@[simp] theorem heap_modify_self (σ : SIPHandler) (r : SessionRef)
    (f : SIPSession → SIPSession) :
    (σ.modify r f).heap r = f (σ.heap r) := by
  simp [modify]

theorem heap_modify_ne (σ : SIPHandler) {r r' : SessionRef} (h : r' ≠ r)
    (f : SIPSession → SIPSession) :
    (σ.modify r f).heap r' = σ.heap r' := by
  simp [modify, h]

/-- Two mutations of one object are one mutation. -/
@[simp] theorem modify_modify (σ : SIPHandler) (r : SessionRef)
    (f g : SIPSession → SIPSession) :
    (σ.modify r f).modify r g = σ.modify r (fun s => g (f s)) := by
  simp [modify]

/-- A mutation that keeps the content keeps the handler. -/
theorem modify_eq_self (σ : SIPHandler) (r : SessionRef)
    {f : SIPSession → SIPSession} (h : f (σ.heap r) = σ.heap r) :
    σ.modify r f = σ := by
  simp [modify, h]

/-- A mutation only depends on what it does to the current content. -/
theorem modify_congr (σ : SIPHandler) (r : SessionRef)
    {f g : SIPSession → SIPSession} (h : f (σ.heap r) = g (σ.heap r)) :
    σ.modify r f = σ.modify r g := by
  simp [modify, h]

@[simp] theorem getSession_send (σ : SIPHandler) (x : Sent) (c : String) :
    (σ.send x).getSession c = σ.getSession c := rfl

/-- A new session for `q`, entered into the table. -/
def openSession (σ : SIPHandler) (q : SIPRequest) : SIPHandler :=
  (σ.createSession q).1.addSession (σ.createSession q).2

/-- The hand-over of a session and its removal from the table. -/
def finish (σ : SIPHandler) (r : SessionRef) : SIPHandler :=
  (σ.send (.session r (σ.heap r))).removeSession r

@[simp] theorem openSession_next (σ : SIPHandler) (q : SIPRequest) :
    (σ.openSession q).next = σ.next + 1 := rfl

@[simp] theorem openSession_sent (σ : SIPHandler) (q : SIPRequest) :
    (σ.openSession q).sent = σ.sent := rfl

@[simp] theorem heap_openSession_self (σ : SIPHandler) (q : SIPRequest) :
    (σ.openSession q).heap σ.next = SIPSession.ofRequest q := by
  simp [openSession, createSession, addSession]

theorem heap_openSession_ne (σ : SIPHandler) (q : SIPRequest) {r : SessionRef}
    (h : r ≠ σ.next) : (σ.openSession q).heap r = σ.heap r := by
  simp [openSession, createSession, addSession, h]

@[simp] theorem getSession_openSession_self (σ : SIPHandler) (q : SIPRequest) :
    (σ.openSession q).getSession q.callID = some σ.next := by
  simp [openSession, createSession, addSession, getSession,
    SIPSession.ofRequest]

theorem getSession_openSession_ne (σ : SIPHandler) (q : SIPRequest)
    {c : String} (h : c ≠ q.callID) :
    (σ.openSession q).getSession c = σ.getSession c := by
  simp [openSession, createSession, addSession, getSession,
    SIPSession.ofRequest, Finmap.lookup_insert_of_ne _ h]

@[simp] theorem finish_next (σ : SIPHandler) (r : SessionRef) :
    (σ.finish r).next = σ.next := rfl

@[simp] theorem finish_heap (σ : SIPHandler) (r : SessionRef) :
    (σ.finish r).heap = σ.heap := rfl

@[simp] theorem finish_sent (σ : SIPHandler) (r : SessionRef) :
    (σ.finish r).sent = σ.sent ++ [.session r (σ.heap r)] := rfl

theorem getSession_finish_self (σ : SIPHandler) (r : SessionRef) :
    (σ.finish r).getSession (σ.heap r).callId = none :=
  Finmap.lookup_erase _ _

theorem getSession_finish_ne (σ : SIPHandler) (r : SessionRef) {c : String}
    (h : c ≠ (σ.heap r).callId) :
    (σ.finish r).getSession c = σ.getSession c :=
  Finmap.lookup_erase_ne h

/-- Both ways `messageSender.send` can end lead to the removal. -/
@[simp] theorem terminateSession_eq (result : SendResult) (σ : SIPHandler)
    (r : SessionRef) : σ.terminateSession result r = σ.finish r := by
  cases result <;> rfl

/-! ## The invariant of the session table -/

structure Wf (σ : SIPHandler) : Prop where
  keyed : ∀ c r, σ.getSession c = some r → (σ.heap r).callId = c
  allocated : ∀ c r, σ.getSession c = some r → r < σ.next
  isOpen : ∀ c r, σ.getSession c = some r → (σ.heap r).IsOpen

/-- No two Call-IDs share an object. -/
theorem Wf.injective {σ : SIPHandler} (hwf : Wf σ) {c c' : String}
    {r : SessionRef} (h : σ.getSession c = some r)
    (h' : σ.getSession c' = some r) : c = c' :=
  (hwf.keyed c r h).symm.trans (hwf.keyed c' r h')

/-! ## One lemma for each handler -/

theorem processInvite_new {σ : SIPHandler} {q : SIPRequest}
    (hs : σ.getSession q.callID = none) :
    σ.processInvite q = σ.openSession q := by
  simp only [processInvite, hs]
  rfl

theorem processInvite_live {σ : SIPHandler} {q : SIPRequest} {r : SessionRef}
    (hs : σ.getSession q.callID = some r) :
    σ.processInvite q = σ.modify r (·.addMessage (.request q)) := by
  simp only [processInvite, hs]

theorem processAck_unknown {σ : SIPHandler} {q : SIPRequest}
    (result : SendResult) (hs : σ.getSession q.callID = none) :
    σ.processAck result q = σ := by
  simp only [processAck, hs]

/-- An ACK only leaves its mark in the message list, unless it finds a FAILED
session. -/
theorem processAck_live {σ : SIPHandler} {q : SIPRequest} {r : SessionRef}
    (result : SendResult) (hs : σ.getSession q.callID = some r)
    (hstate : (σ.heap r).state ≠ .failed) :
    σ.processAck result q = σ.modify r (·.addMessage (.request q)) := by
  simp [processAck, hs, SIPSession.addMessage, hstate]

theorem processDisconnectRequest_unknown {σ : SIPHandler} {q : SIPRequest}
    (hs : σ.getSession q.callID = none) :
    σ.processDisconnectRequest q = σ := by
  simp only [processDisconnectRequest, hs]

theorem processDisconnectRequest_live {σ : SIPHandler} {q : SIPRequest}
    {r : SessionRef} (hs : σ.getSession q.callID = some r) :
    σ.processDisconnectRequest q = σ.modify r (fun s =>
      { s.addMessage (.request q) with
        disconnectionStart := q.time, state := .disconnecting }) := by
  simp only [processDisconnectRequest, hs, modify_modify]

theorem processProvisionalResponse_eq (σ : SIPHandler) (r : SessionRef)
    {p : SIPResponse} (hcode : p.statusCode < 200) :
    σ.processProvisionalResponse r p =
      σ.modify r (·.settle p.kind p.time) := by
  unfold processProvisionalResponse SIPResponse.kind
  by_cases hring : p.statusCode = Response.RINGING ∨
      p.statusCode = Response.SESSION_PROGRESS
  · rw [if_pos hring, if_pos hring]
    by_cases hstate : (σ.heap r).state = .initiated
    · rw [if_pos hstate, modify_modify]
      exact σ.modify_congr r (by simp [SIPSession.settle, hstate])
    · rw [if_neg hstate]
      exact (σ.modify_eq_self r (by simp [SIPSession.settle, hstate])).symm
  · have hok : p.statusCode ≠ Response.OK := by
      have hvalues := Response.values
      omega
    have hfail : ¬ (400 ≤ p.statusCode ∧ p.statusCode < 700) := by omega
    rw [if_neg hring, if_neg hring, if_neg hok, if_neg hfail]
    exact (σ.modify_eq_self r rfl).symm

theorem processInviteOK_eq (σ : SIPHandler) (r : SessionRef)
    (p : SIPResponse) :
    σ.processInviteOK r p = σ.modify r (·.settle .inviteOK p.time) := by
  unfold processInviteOK
  cases hstate : (σ.heap r).state with
  | initiated =>
    simp only [hstate, if_true, heap_modify_self, reduceCtorEq, false_or,
      modify_modify]
    exact σ.modify_congr r (by simp [SIPSession.settle, hstate])
  | provisioned =>
    simp only [hstate, reduceCtorEq, if_false, true_or, if_true,
      modify_modify]
    exact σ.modify_congr r (by simp [SIPSession.settle, hstate])
  | _ =>
    simp only [hstate, reduceCtorEq, if_false, or_self]
    exact (σ.modify_eq_self r (by simp [SIPSession.settle, hstate])).symm

/-- The end of a response handler: hand the session over or keep it. -/
def settleAndClose (σ : SIPHandler) (r : SessionRef) (k : ResponseKind)
    (t : Int) : SIPHandler :=
  if k.closes then (σ.modify r (·.settle k t)).finish r
  else σ.modify r (·.settle k t)

theorem processSucessfulResponse_eq (result : SendResult) (σ : SIPHandler)
    (r : SessionRef) {p : SIPResponse}
    (hcode : 200 ≤ p.statusCode ∧ p.statusCode < 300) :
    σ.processSucessfulResponse result r p =
      σ.settleAndClose r p.kind p.time := by
  have hring := SIPResponse.not_ringing_of_final hcode.1
  have hfail : ¬ (400 ≤ p.statusCode ∧ p.statusCode < 700) := by omega
  unfold processSucessfulResponse SIPResponse.kind settleAndClose
  simp only [if_neg hring, if_neg hfail]
  by_cases hok : p.statusCode = Response.OK
  · simp only [if_pos hok]
    by_cases hinv : p.relatedRequestMethod = Request.INVITE
    · simp only [if_pos hinv, ResponseKind.closes, processInviteOK_eq]
      rfl
    by_cases hcan : p.relatedRequestMethod = Request.CANCEL
    · simp only [if_neg hinv, if_pos hcan, processCancelOK, modify_modify,
        terminateSession_eq]
      rfl
    by_cases hbye : p.relatedRequestMethod = Request.BYE
    · simp only [if_neg hinv, if_neg hcan, if_pos hbye, processByeOK,
        modify_modify, terminateSession_eq]
      rfl
    · simp only [if_neg hinv, if_neg hcan, if_neg hbye, modify_modify,
        terminateSession_eq]
      rfl
  · simp only [if_neg hok]
    rw [if_neg (by simp [ResponseKind.closes])]
    exact (σ.modify_eq_self r rfl).symm

/-- FAILED is written before it is compared with ESTABLISHED, so the setup time
is overwritten whatever the state was. -/
theorem processFailureResponse_eq (result : SendResult) (σ : SIPHandler)
    (r : SessionRef) (p : SIPResponse) :
    σ.processFailureResponse result r p =
      σ.settleAndClose r .failure p.time := by
  simp [processFailureResponse, settleAndClose, ResponseKind.closes,
    SIPSession.settle]

theorem processResponse_unknown {σ : SIPHandler} {p : SIPResponse}
    (result : SendResult) (hs : σ.getSession p.callID = none) :
    σ.processResponse result p = σ.send (.message (.response p)) := by
  unfold processResponse
  rw [hs]
  cases result <;> rfl

/-- The beginning of `processResponse`: the message and the time of the first
response are recorded. -/
theorem noteFirstResponse_eq (σ : SIPHandler) (r : SessionRef)
    (p : SIPResponse) :
    (if ((σ.modify r (·.addMessage (.response p))).heap r).firstResponseTime =
        0 then
      (σ.modify r (·.addMessage (.response p))).modify r
        ({ · with firstResponseTime := p.time })
    else σ.modify r (·.addMessage (.response p))) =
      σ.modify r fun s =>
        (s.addMessage (.response p)).noteResponse p.time := by
  by_cases hfirst : (σ.heap r).firstResponseTime = 0
  · rw [if_pos (by simpa [SIPSession.addMessage] using hfirst), modify_modify]
    exact σ.modify_congr r
      (by simp [SIPSession.noteResponse, SIPSession.addMessage, hfirst])
  · rw [if_neg (by simpa [SIPSession.addMessage] using hfirst)]
    exact σ.modify_congr r
      (by simp [SIPSession.noteResponse, SIPSession.addMessage, hfirst])

theorem settleAndClose_passive (σ : SIPHandler) (r : SessionRef) (t : Int) :
    σ.settleAndClose r .passive t = σ := by
  rw [settleAndClose, if_neg (by simp [ResponseKind.closes])]
  exact σ.modify_eq_self r rfl

/-- The dispatch on the class of the status code. -/
theorem dispatch_eq (result : SendResult) (σ : SIPHandler) (r : SessionRef)
    (p : SIPResponse) :
    (if 100 ≤ p.statusCode ∧ p.statusCode < 200 then
      σ.processProvisionalResponse r p
    else if 200 ≤ p.statusCode ∧ p.statusCode < 300 then
      σ.processSucessfulResponse result r p
    else if 300 ≤ p.statusCode ∧ p.statusCode < 400 then
      σ.processRedirectionResponse r p
    else if 400 ≤ p.statusCode ∧ p.statusCode < 700 then
      σ.processFailureResponse result r p
    else σ) = σ.settleAndClose r p.kind p.time := by
  by_cases h1 : 100 ≤ p.statusCode ∧ p.statusCode < 200
  · rw [if_pos h1, processProvisionalResponse_eq σ r h1.2, settleAndClose,
      SIPResponse.closes_of_provisional h1.2]
    rfl
  rw [if_neg h1]
  by_cases h2 : 200 ≤ p.statusCode ∧ p.statusCode < 300
  · rw [if_pos h2, processSucessfulResponse_eq result σ r h2]
  rw [if_neg h2]
  by_cases h4 : 400 ≤ p.statusCode ∧ p.statusCode < 700
  · rw [if_neg (by omega), if_pos h4, processFailureResponse_eq,
      SIPResponse.kind_of_failure h4]
  · -- redirections and unknown codes do nothing
    rw [if_neg h4, SIPResponse.kind_of_unhandled h1 h2 h4,
      settleAndClose_passive]
    split <;> rfl

/-- A response to a live session is absorbed, and closes the session according
to its kind. -/
theorem processResponse_live {σ : SIPHandler} {p : SIPResponse}
    {r : SessionRef} (result : SendResult)
    (hs : σ.getSession p.callID = some r) :
    σ.processResponse result p =
      if p.kind.closes then
        (σ.modify r (·.absorb (.response p))).finish r
      else σ.modify r (·.absorb (.response p)) := by
  unfold processResponse
  simp only [hs, noteFirstResponse_eq, ge_iff_le, dispatch_eq]
  simp only [settleAndClose, modify_modify]
  rfl

/-! ## The inversion lemma -/

/-- Everything a call with message `m` can do to `σ`. -/
inductive Effect (σ : SIPHandler) : SIPMessage → SIPHandler → Prop
  /-- An ACK, BYE or CANCEL of an unknown call. -/
  | ignored {q : SIPRequest} : σ.getSession q.callID = none →
      q.kind = .ack ∨ q.kind = .disconnect → Effect σ (.request q) σ
  /-- A response of an unknown call. -/
  | standalone {p : SIPResponse} : σ.getSession p.callID = none →
      Effect σ (.response p) (σ.send (.message (.response p)))
  | opened {q : SIPRequest} :
      q.kind = .other ∨ (q.kind = .invite ∧ σ.getSession q.callID = none) →
      Effect σ (.request q) (σ.openSession q)
  | absorbed {m : SIPMessage} {r : SessionRef} :
      σ.getSession m.callID = some r → m.reopens = false → m.closes = false →
      Effect σ m (σ.modify r (·.absorb m))
  | closed {m : SIPMessage} {r : SessionRef} :
      σ.getSession m.callID = some r → m.closes = true →
      Effect σ m ((σ.modify r (·.absorb m)).finish r)

/-- A request that does not disconnect is absorbed by being recorded. -/
theorem modify_addMessage (σ : SIPHandler) (r : SessionRef) {q : SIPRequest}
    (h : q.kind ≠ .disconnect) :
    σ.modify r (·.addMessage (.request q)) =
      σ.modify r (·.absorb (.request q)) :=
  σ.modify_congr r (SIPSession.absorb_request _ h).symm

theorem processRequest_effect {σ : SIPHandler} (hwf : Wf σ)
    (result : SendResult) (q : SIPRequest) :
    Effect σ (.request q) (σ.processRequest result q) := by
  unfold processRequest
  simp only
  by_cases hinv : q.method = Request.INVITE
  · have hkind : q.kind = .invite := by simp [SIPRequest.kind, hinv]
    rw [if_pos hinv]
    cases hs : σ.getSession q.callID with
    | none =>
      rw [processInvite_new hs]
      exact .opened (Or.inr ⟨hkind, hs⟩)
    | some r =>
      rw [processInvite_live hs, modify_addMessage σ r (by simp [hkind])]
      exact .absorbed hs (by simp [SIPMessage.reopens, hkind]) rfl
  rw [if_neg hinv]
  by_cases hack : q.method = Request.ACK
  · have hkind : q.kind = .ack := by
      rw [SIPRequest.kind, if_neg hinv, if_pos hack]
    rw [if_pos hack]
    cases hs : σ.getSession q.callID with
    | none =>
      rw [processAck_unknown result hs]
      exact .ignored hs (Or.inl hkind)
    | some r =>
      -- no live session is FAILED, so the ACK terminates nothing
      rw [processAck_live result hs (hwf.isOpen _ _ hs).not_failed,
        modify_addMessage σ r (by simp [hkind])]
      exact .absorbed hs (by simp [SIPMessage.reopens, hkind]) rfl
  rw [if_neg hack]
  by_cases hdis : q.method = Request.BYE ∨ q.method = Request.CANCEL
  · have hkind : q.kind = .disconnect := by
      rw [SIPRequest.kind, if_neg hinv, if_neg hack, if_pos hdis]
    rw [if_pos hdis]
    cases hs : σ.getSession q.callID with
    | none =>
      rw [processDisconnectRequest_unknown hs]
      exact .ignored hs (Or.inr hkind)
    | some r =>
      have habs : σ.modify r (fun s =>
            { s.addMessage (.request q) with
              disconnectionStart := q.time, state := .disconnecting }) =
          σ.modify r (·.absorb (.request q)) :=
        σ.modify_congr r (by simp [SIPSession.absorb, hkind])
      rw [processDisconnectRequest_live hs, habs]
      exact .absorbed hs (by simp [SIPMessage.reopens, hkind]) rfl
  · have hkind : q.kind = .other := by
      rw [SIPRequest.kind, if_neg hinv, if_neg hack, if_neg hdis]
    rw [if_neg hdis]
    exact .opened (Or.inl hkind)

theorem processResponse_effect (σ : SIPHandler) (result : SendResult)
    (p : SIPResponse) :
    Effect σ (.response p) (σ.processResponse result p) := by
  cases hs : σ.getSession p.callID with
  | none =>
    rw [processResponse_unknown result hs]
    exact .standalone hs
  | some r =>
    rw [processResponse_live result hs]
    cases hclose : p.kind.closes with
    | true => exact .closed hs hclose
    | false => exact .absorbed hs rfl hclose

/-- The inversion lemma. -/
theorem process_effect {σ : SIPHandler} (hwf : Wf σ) (call : Call) :
    Effect σ call.message (σ.process call) := by
  unfold process
  cases call.message with
  | request q => exact processRequest_effect hwf call.result q
  | response p => exact processResponse_effect σ call.result p

end SIPHandler

end Sipana
