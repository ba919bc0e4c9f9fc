import Sipana.Agent.Runs

/-!
# Completed transactions

Which final responses take a session out of the table. A failure does, and a
200 to the request that opened the session. Other 2xx codes are "not
implemented" and redirections are ignored on purpose: the session stays live.
-/

namespace Sipana

/-- `p` is a final response that completes the transaction `s` was opened by:
any final status to a non-INVITE request, and any final status from 300 on to
an INVITE that was never answered 200. -/
def Completes (s : SIPSession) (p : SIPResponse) : Prop :=
  (s.requestMethod ≠ Request.INVITE ∧
    p.relatedRequestMethod = s.requestMethod ∧
    200 ≤ p.statusCode ∧ p.statusCode < 700) ∨
  (s.requestMethod = Request.INVITE ∧
    p.relatedRequestMethod = Request.INVITE ∧
    (∀ a, .response a ∈ s.messages →
      ¬ (a.statusCode = Response.OK ∧
        a.relatedRequestMethod = Request.INVITE)) ∧
    300 ≤ p.statusCode ∧ p.statusCode < 700)

theorem Completes.closes_iff {s : SIPSession} {p : SIPResponse}
    (h : Completes s p) :
    p.kind.closes = true ↔
      p.statusCode = Response.OK ∨ 400 ≤ p.statusCode := by
  rw [SIPResponse.kind_closes]
  rcases h with ⟨hmethod, hrel, -, hlt⟩ | ⟨-, -, -, hge, hlt⟩
  · rw [hrel]
    refine ⟨?_, ?_⟩
    · exact fun hc => hc.imp And.left And.left
    · exact fun hc => hc.imp (⟨·, hmethod⟩) (⟨·, hlt⟩)
  · have hok : p.statusCode ≠ Response.OK := by
      have hvalues := Response.values
      omega
    refine ⟨?_, ?_⟩
    · exact fun hc => hc.imp And.left And.left
    · exact fun hc => Or.inr ⟨hc.resolve_left hok, hlt⟩

namespace SIPHandler

variable {σ : SIPHandler}

/-- The session `r` is in the table no more and was handed over. -/
def LeftTable (σ : SIPHandler) (r : SessionRef) : Prop :=
  (∀ c, σ.getSession c ≠ some r) ∧ ∃ s, .session r s ∈ σ.sent

theorem getCurrentSessionNumber_closed (hwf : Wf σ) {m : SIPMessage}
    {r : SessionRef} (hs : σ.getSession m.callID = some r) :
    ((σ.modify r (·.absorb m)).finish r).getCurrentSessionNumber + 1 =
      σ.getCurrentSessionNumber := by
  have hkey : (σ.heap r).callId = m.callID := hwf.keyed _ _ hs
  have hmem : m.callID ∈ σ.sessionList.keys :=
    Finmap.mem_keys.mpr (Finmap.mem_iff.mpr ⟨r, hs⟩)
  have hkeys : ((σ.modify r (·.absorb m)).finish r).sessionList.keys =
      σ.sessionList.keys.erase m.callID := by
    rw [← Finmap.keys_erase, ← hkey]
    simp [finish, removeSession, send]
  rw [getCurrentSessionNumber, hkeys, getCurrentSessionNumber,
    Finset.card_erase_add_one hmem]

theorem leftTable_closed (hwf : Wf σ) {m : SIPMessage} {r : SessionRef}
    (hs : σ.getSession m.callID = some r) :
    LeftTable ((σ.modify r (·.absorb m)).finish r) r :=
  ⟨getSession_closed_ne hwf hs, (σ.heap r).absorb m, by simp⟩

/-- A final response that completes its transaction takes the session out of the
table when its status is 200 or a failure, and leaves it there otherwise. -/
theorem completed_leaves_table (calls : List Call) (result : SendResult)
    (p : SIPResponse) (r : SessionRef)
    (hlive : (run calls).getSession p.callID = some r)
    (hp : Completes ((run calls).heap r) p) :
    (p.statusCode = Response.OK ∨ 400 ≤ p.statusCode →
      LeftTable (run (calls ++ [⟨.response p, result⟩])) r ∧
      (run (calls ++ [⟨.response p, result⟩])).getCurrentSessionNumber + 1 =
        (run calls).getCurrentSessionNumber) ∧
    (p.statusCode ≠ Response.OK → p.statusCode < 400 →
      (run (calls ++ [⟨.response p, result⟩])).sessionList =
        (run calls).sessionList ∧
      (run (calls ++ [⟨.response p, result⟩])).sent = (run calls).sent) := by
  have hwf := wf_run calls
  have hrun : run (calls ++ [⟨.response p, result⟩]) =
      (run calls).processResponse result p := run_snoc calls _
  rw [hrun, processResponse_live result hlive]
  refine ⟨?_, ?_⟩
  · intro hcode
    rw [if_pos (hp.closes_iff.mpr hcode)]
    exact ⟨leftTable_closed (m := .response p) hwf hlive,
      getCurrentSessionNumber_closed (m := .response p) hwf hlive⟩
  · intro hok hlt
    have hopen : ¬ p.kind.closes = true := by
      rw [hp.closes_iff]
      intro hclosing
      rcases hclosing with h | h
      · exact hok h
      · omega
    rw [if_neg hopen]
    exact ⟨rfl, rfl⟩

/-- A REGISTER answered 200. -/
theorem completed_leaves_table_register :
    LeftTable (run [.request "REGISTER" "a" 1,
      .response 200 "REGISTER" "a" 2]) 0 :=
  ((completed_leaves_table [.request "REGISTER" "a" 1] .returns
    { callID := "a", time := 2, statusCode := 200,
      relatedRequestMethod := "REGISTER" } 0 (by decide)
    (Or.inl (by decide))).1 (Or.inl rfl)).1

/-- A SUBSCRIBE answered 202 keeps its session. -/
theorem accepted_subscribe_stays :
    ¬ ∀ (calls : List Call) (result : SendResult) (p : SIPResponse)
      (r : SessionRef), (run calls).getSession p.callID = some r →
      Completes ((run calls).heap r) p →
      LeftTable (run (calls ++ [⟨.response p, result⟩])) r := by
  intro h
  have hleft := h [.request "SUBSCRIBE" "a" 1] .returns
    { callID := "a", time := 2, statusCode := 202,
      relatedRequestMethod := "SUBSCRIBE" } 0 (by decide) (Or.inl (by decide))
  exact hleft.1 "a" (by decide)

end SIPHandler

end Sipana
