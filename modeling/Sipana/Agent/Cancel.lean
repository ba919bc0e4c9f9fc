import Sipana.Agent.Runs

/-!
# Canceled calls

A caller that gives up sends CANCEL, and gets a 200 for the CANCEL and a 487
for the INVITE. They belong to different transactions and may arrive in either
order. The handler does not match responses with transactions: the first of the
two closes the session and decides on its final state, the second finds no
session and is passed on as a standalone message.
-/

namespace Sipana

namespace SIPHandler

variable {σ : SIPHandler}

/-- The session `r` was opened by INVITE and is DISCONNECTING because of a
CANCEL. -/
structure Canceling (σ : SIPHandler) (c : String) (r : SessionRef) : Prop where
  live : σ.getSession c = some r
  invite : (σ.heap r).requestMethod = Request.INVITE
  disconnecting : (σ.heap r).state = .disconnecting
  cancel : ∃ q, .request q ∈ (σ.heap r).messages ∧
    q.method = Request.CANCEL ∧ (σ.heap r).disconnectionStart = q.time

/-- The 200 response to the CANCEL of `c`. -/
def CancelOK (c : String) (p : SIPResponse) : Prop :=
  p.callID = c ∧ p.statusCode = Response.OK ∧
    p.relatedRequestMethod = Request.CANCEL

/-- A response that rejects the INVITE of `c`. -/
def InviteFailure (c : String) (p : SIPResponse) : Prop :=
  p.callID = c ∧ (400 ≤ p.statusCode ∧ p.statusCode < 700) ∧
    p.relatedRequestMethod = Request.INVITE

theorem CancelOK.kind {c : String} {p : SIPResponse} (h : CancelOK c p) :
    p.kind = .cancelOK := by
  obtain ⟨-, hok, hrel⟩ := h
  rw [SIPResponse.kind_of_ok hok, hrel]
  decide

/-- What a closing response hands over when it finds a session. -/
theorem handOver_closing {c : String} {r : SessionRef}
    (hs : σ.getSession c = some r) {p : SIPResponse} (hid : p.callID = c)
    (hclose : p.kind.closes = true) :
    σ.handOver (.response p) =
      [.session r ((σ.heap r).absorb (.response p))] := by
  subst hid
  unfold handOver
  rw [show σ.getSession (SIPMessage.response p).callID = some r from hs]
  exact if_pos hclose

theorem getSession_closing (hwf : Wf σ) {c : String} {r : SessionRef}
    (hs : σ.getSession c = some r) {p : SIPResponse} (hid : p.callID = c)
    (hclose : p.kind.closes = true) (result : SendResult) :
    (σ.process ⟨.response p, result⟩).getSession c = none := by
  subst hid
  show (σ.processResponse result p).getSession p.callID = none
  rw [processResponse_live result hs, if_pos hclose,
    getSession_closed (m := .response p) hwf hs]
  exact if_pos rfl

/-- Of two responses to one call, the one that comes first closes the session
and the other is sent by itself. -/
theorem sent_two_responses (calls : List Call) {c : String} {r : SessionRef}
    (hs : (run calls).getSession c = some r) {p q : SIPResponse}
    (hp : p.callID = c) (hq : q.callID = c) (hclose : p.kind.closes = true)
    (result result' : SendResult) :
    (run (calls ++ [⟨.response p, result⟩, ⟨.response q, result'⟩])).sent =
      (run calls).sent ++
        [.session r (((run calls).heap r).absorb (.response p)),
          .message (.response q)] := by
  have hwf := wf_run calls
  have hgone := getSession_closing hwf hs hp hclose result
  have hrun : run (calls ++ [⟨.response p, result⟩, ⟨.response q, result'⟩]) =
      ((run calls).process ⟨.response p, result⟩).process
        ⟨.response q, result'⟩ := by
    rw [← run_snoc, ← run_snoc, List.append_assoc]
    rfl
  rw [hrun, process_sent (wf_process hwf _), process_sent hwf,
    handOver_closing hs hp hclose, handOver_late (hq ▸ hgone),
    List.append_assoc]
  rfl

/-- Whichever of the two responses comes first, one session is handed over and
the response that comes second is passed on. The one that comes first decides
between CANCELED and FAILED. The session only has to be live: neither the way it
was opened nor the CANCEL matters. -/
theorem first_response_decides (calls : List Call) (c : String)
    (r : SessionRef) (h : (run calls).getSession c = some r)
    (ok fail : SIPResponse) (hok : CancelOK c ok) (hfail : InviteFailure c fail)
    (result result' : SendResult) :
    (∃ s, (run (calls ++ [⟨.response ok, result⟩,
        ⟨.response fail, result'⟩])).sent =
          (run calls).sent ++ [.session r s, .message (.response fail)] ∧
      s.callId = c ∧ s.state = .canceled) ∧
    (∃ s, (run (calls ++ [⟨.response fail, result⟩,
        ⟨.response ok, result'⟩])).sent =
          (run calls).sent ++ [.session r s, .message (.response ok)] ∧
      s.callId = c ∧ s.state = .failed) := by
  have hkey := (wf_run calls).keyed c r h
  have hcancel := hok.kind
  have hfailure := SIPResponse.kind_of_failure hfail.2.1
  refine ⟨⟨_, sent_two_responses calls h hok.1 hfail.1 ?_ _ _, ?_, ?_⟩,
    ⟨_, sent_two_responses calls h hfail.1 hok.1 ?_ _ _, ?_, ?_⟩⟩
  · rw [hcancel]
    rfl
  · rw [SIPSession.absorb_callId, hkey]
  · rw [SIPSession.absorb_response, hcancel]
    rfl
  · rw [hfailure]
    rfl
  · rw [SIPSession.absorb_callId, hkey]
  · rw [SIPSession.absorb_response, hfailure]
    rfl

/-- A call that is canceled while it rings. -/
theorem first_response_decides_ringing :
    ∃ s m, (run [.request "INVITE" "a" 1, .response 180 "INVITE" "a" 2,
        .request "CANCEL" "a" 3, .response 487 "INVITE" "a" 4,
        .response 200 "CANCEL" "a" 5]).sent = [.session 0 s, .message m] ∧
      s.callId = "a" ∧ s.state = .failed := by
  obtain ⟨s, hs⟩ := (first_response_decides [.request "INVITE" "a" 1,
    .response 180 "INVITE" "a" 2, .request "CANCEL" "a" 3] "a" 0
    (by decide)
    { callID := "a", time := 5, statusCode := 200,
      relatedRequestMethod := "CANCEL" }
    { callID := "a", time := 4, statusCode := 487,
      relatedRequestMethod := "INVITE" }
    ⟨rfl, rfl, rfl⟩ ⟨rfl, by decide, rfl⟩ .returns .returns).2
  exact ⟨s, _, hs⟩

/-- The final state of a canceled call depends on the order of the two
responses. -/
theorem cancel_outcome_depends_on_order :
    ¬ ∀ calls c r, Canceling (run calls) c r → ∀ ok fail, CancelOK c ok →
      InviteFailure c fail → ∃ s s',
        (run (calls ++ [⟨.response ok, .returns⟩,
          ⟨.response fail, .returns⟩])).sentSessions =
            (run calls).sentSessions ++ [(r, s)] ∧
        (run (calls ++ [⟨.response fail, .returns⟩,
          ⟨.response ok, .returns⟩])).sentSessions =
            (run calls).sentSessions ++ [(r, s')] ∧
        s.state = s'.state := by
  intro h
  obtain ⟨s, s', hs, hs', hstate⟩ := h
    [.request "INVITE" "a" 1, .request "CANCEL" "a" 2] "a" 0
    ⟨by decide, by decide, by decide,
      { callID := "a", time := 2, method := "CANCEL" }, by decide, rfl,
      by decide⟩
    { callID := "a", time := 3, statusCode := 200,
      relatedRequestMethod := "CANCEL" }
    { callID := "a", time := 4, statusCode := 487,
      relatedRequestMethod := "INVITE" }
    ⟨rfl, rfl, rfl⟩ ⟨rfl, by decide, rfl⟩
  have hlast := congrArg (fun l => l.getLast?.map (·.2.state)) hs
  have hlast' := congrArg (fun l => l.getLast?.map (·.2.state)) hs'
  simp only [List.getLast?_append, List.getLast?_singleton, Option.some_or,
    Option.map_some] at hlast hlast'
  rw [hstate, ← hlast'] at hlast
  exact absurd hlast (by decide)

end SIPHandler

end Sipana
