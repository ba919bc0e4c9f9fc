import Sipana.Agent.Runs

/-!
# Late messages

A message that belongs to a call whose session has ended finds nothing in the
session table. `processResponse` passes such a response to the sender as a
standalone message. The handlers of ACK, BYE and CANCEL look the session up in
the same way, but have nothing except a line of debug output for the case that
it is gone. The ACK of a rejected INVITE always meets this case:
`processFailureResponse` terminates the session at once, and the test for
FAILED in `processAck`, which would terminate it with the ACK on record, is
never true.
-/

namespace Sipana

namespace SIPHandler

/-- The Call-ID had a session at some moment of the run. -/
def Known (calls : List Call) (c : String) : Prop :=
  ∃ pre, pre <+: calls ∧ ∃ r, (run pre).getSession c = some r

/-- The next message belongs to a call that is known but has no live session,
and does not create one. -/
structure Late (calls : List Call) (call : Call) : Prop where
  known : Known calls call.message.callID
  unlisted : (run calls).getSession call.message.callID = none
  creates : (run (calls ++ [call])).next = (run calls).next

/-- The next message is passed to the sender by itself. -/
def SentStandalone (calls : List Call) (call : Call) : Prop :=
  (run (calls ++ [call])).sent = (run calls).sent ++ [.message call.message]

instance (calls : List Call) (call : Call) :
    Decidable (SentStandalone calls call) :=
  inferInstanceAs (Decidable (_ = _))

/-- `P` of the messages before it and the message holds at each late message of
the run. -/
def AtLate (P : List Call → Call → Prop) (calls : List Call) : Prop :=
  ∀ pre call post, calls = pre ++ call :: post → Late pre call → P pre call

variable {calls : List Call}

/-- A late request leaves no trace. -/
theorem late_request {call : Call} (h : Late calls call) {q : SIPRequest}
    (hq : call.message = .request q) :
    run (calls ++ [call]) = run calls := by
  have hcreates := h.creates
  have hunlisted := h.unlisted
  have heff := process_effect (wf_run calls) call
  rw [run_snoc] at hcreates ⊢
  rw [hq] at heff hunlisted
  generalize (run calls).process call = τ at heff hcreates ⊢
  cases heff with
  | ignored => rfl
  | opened => exact absurd hcreates (Nat.succ_ne_self _)
  | absorbed hs => exact absurd (hs.symm.trans hunlisted) nofun
  | closed hs => exact absurd (hs.symm.trans hunlisted) nofun

theorem late_response {call : Call} (h : Late calls call) {p : SIPResponse}
    (hp : call.message = .response p) : SentStandalone calls call := by
  have hunlisted := h.unlisted
  rw [hp] at hunlisted
  rw [SentStandalone, run_snoc, process_sent (wf_run calls), hp,
    handOver_late hunlisted]

/-- A late message is sent exactly when it is a response. -/
theorem sentStandalone_iff {call : Call} (h : Late calls call) :
    SentStandalone calls call ↔ ∃ p, call.message = .response p := by
  cases hm : call.message with
  | request q =>
    rw [SentStandalone, late_request h hm]
    simp
  | response p => exact iff_of_true (late_response h hm) ⟨p, rfl⟩

/-- All late messages of a run are passed on exactly when no ACK, BYE or CANCEL
is among them. -/
theorem late_messages_sent_iff (calls : List Call) :
    AtLate SentStandalone calls ↔
      AtLate (fun _ call => ∃ p, call.message = .response p) calls := by
  refine ⟨?_, ?_⟩
  · intro h pre call post heq hlate
    exact (sentStandalone_iff hlate).mp (h pre call post heq hlate)
  · intro h pre call post heq hlate
    exact (sentStandalone_iff hlate).mpr (h pre call post heq hlate)

/-- The ACK of a rejected INVITE is dropped. -/
theorem ack_of_rejected_invite_dropped :
    ¬ ∀ calls, AtLate SentStandalone calls := by
  intro h
  let before : List Call :=
    [.request "INVITE" "a" 1, .response 486 "INVITE" "a" 2]
  let ack : Call := .request "ACK" "a" 3
  have hlate : Late before ack :=
    ⟨⟨[.request "INVITE" "a" 1], ⟨_, rfl⟩, 0, by decide⟩, by decide, by decide⟩
  have hsent := h (before ++ [ack]) before ack [] rfl hlate
  exact absurd hsent (by decide)

end SIPHandler

end Sipana
