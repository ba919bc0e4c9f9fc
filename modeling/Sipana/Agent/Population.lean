import Mathlib.Data.Finset.Card
import Sipana.Agent.Accountability

/-!
# How many sessions there are

Every session object the handler has created is in the table, was handed to the
sender or was replaced. So the three numbers add up to the number of sessions
created, in every run; and that number is the number of requests that open a
session.
-/

namespace Sipana

namespace SIPHandler

variable {σ : SIPHandler}

/-- A request that replaces the live session of its Call-ID. -/
def replaces (σ : SIPHandler) (call : Call) : Bool :=
  call.message.reopens && (σ.getSession call.message.callID).isSome

/-- A request that opens a session: an INVITE of an unknown call, or any request
but INVITE, ACK, BYE and CANCEL. -/
def opens (σ : SIPHandler) (call : Call) : Bool :=
  match call.message with
  | .request q =>
    q.kind = .other || q.kind = .invite && (σ.getSession q.callID).isNone
  | .response _ => false

/-! ## The size of the table -/

theorem card_openSession (σ : SIPHandler) (q : SIPRequest) :
    (σ.openSession q).getCurrentSessionNumber = σ.getCurrentSessionNumber +
      if (σ.getSession q.callID).isSome then 0 else 1 := by
  have hkeys : (σ.openSession q).sessionList.keys =
      insert q.callID σ.sessionList.keys := by
    ext c
    simp [openSession, createSession, addSession, SIPSession.ofRequest,
      Finmap.mem_keys, Finmap.mem_insert]
  have hmem : q.callID ∈ σ.sessionList.keys ↔
      (σ.getSession q.callID).isSome := by
    rw [Finmap.mem_keys, getSession, Finmap.lookup_isSome]
  unfold getCurrentSessionNumber
  rw [hkeys]
  split
  · next hlive =>
    rw [Finset.insert_eq_of_mem (hmem.mpr hlive), Nat.add_zero]
  · next hnone =>
    rw [Finset.card_insert_of_notMem (mt hmem.mp hnone)]

theorem card_finish {r : SessionRef}
    (h : σ.getSession (σ.heap r).callId = some r) :
    (σ.finish r).getCurrentSessionNumber + 1 = σ.getCurrentSessionNumber := by
  have hkeys : (σ.finish r).sessionList.keys =
      σ.sessionList.keys.erase (σ.heap r).callId := by
    ext c
    simp [finish, send, removeSession, Finmap.mem_keys]
  have hmem : (σ.heap r).callId ∈ σ.sessionList.keys := by
    rw [Finmap.mem_keys, ← Finmap.lookup_isSome]
    exact Option.isSome_iff_exists.mpr ⟨r, h⟩
  unfold getCurrentSessionNumber
  rw [hkeys, Finset.card_erase_of_mem hmem]
  have hpos := Finset.card_pos.mpr ⟨_, hmem⟩
  omega

/-! ## One step -/

/-- What one call does to the numbers. -/
theorem population_process (hwf : Wf σ) (call : Call) :
    (σ.process call).next = σ.next + (σ.opens call).toNat ∧
    (σ.process call).sentSessions.length +
        (σ.process call).getCurrentSessionNumber + (σ.replaces call).toNat =
      σ.sentSessions.length + σ.getCurrentSessionNumber +
        (σ.opens call).toNat := by
  have heff := process_effect hwf call
  unfold opens replaces
  generalize call.message = m, σ.process call = τ at heff ⊢
  cases heff with
  | @ignored q hnone hkind =>
    have hcallID : (SIPMessage.request q).callID = q.callID := rfl
    rcases hkind with hkind | hkind <;>
      simp [hnone, hkind, hcallID]
  | @standalone p hnone =>
    simp [SIPMessage.reopens, send, sentSessions, getCurrentSessionNumber]
  | @opened q hkind =>
    have hcard := card_openSession σ q
    have hcallID : (SIPMessage.request q).callID = q.callID := rfl
    have hsent : (σ.openSession q).sentSessions = σ.sentSessions := rfl
    rw [hsent, hcard]
    rcases hkind with hother | ⟨hinvite, hnone⟩
    · cases hs : σ.getSession q.callID <;>
        simp [SIPMessage.reopens, hother, hs, hcallID]
      omega
    · simp [SIPMessage.reopens, hinvite, hnone, hcallID]
      omega
  | @absorbed m r hs hreopens hcloses =>
    have hsent : (σ.modify r (·.absorb m)).sentSessions = σ.sentSessions := rfl
    have hnumber : (σ.modify r (·.absorb m)).getCurrentSessionNumber =
        σ.getCurrentSessionNumber := rfl
    rw [hsent, hnumber, hreopens, modify_next]
    cases m with
    | response p => exact ⟨rfl, rfl⟩
    | request q =>
      have hlive : σ.getSession q.callID = some r := hs
      have hkind : q.kind ≠ .other := of_decide_eq_false hreopens
      simp [hlive, hkind]
  | @closed m r hs hcloses =>
    have hfiled : (σ.modify r (·.absorb m)).getSession
        ((σ.modify r (·.absorb m)).heap r).callId = some r := by
      rw [heap_modify_self, SIPSession.absorb_callId, hwf.keyed _ _ hs]
      exact hs
    have hcard := card_finish hfiled
    have hnumber : (σ.modify r (·.absorb m)).getCurrentSessionNumber =
        σ.getCurrentSessionNumber := rfl
    have hsent : ((σ.modify r (·.absorb m)).finish r).sentSessions.length =
        σ.sentSessions.length + 1 := by
      simp [sentSessions, finish_sent]
    rw [hnumber] at hcard
    cases m with
    | request q => exact absurd hcloses Bool.false_ne_true
    | response p =>
      rw [hsent]
      simp only [SIPMessage.reopens, Bool.false_and, Bool.toNat_false,
        Nat.add_zero, finish_next, modify_next, true_and]
      omega

/-- The sessions that were created are those that were handed over, those in the
table and those that were replaced. -/
theorem sessions_add_up (calls : List Call) :
    (run calls).next = machine.tally opens new calls ∧
    machine.tally opens new calls =
      (run calls).sentSessions.length + (run calls).getCurrentSessionNumber +
        machine.tally replaces new calls := by
  have hstep := fun calls call => population_process (wf_run calls) call
  have hnext : (run calls).next + 0 +
        machine.tally (fun _ _ => false) new calls =
      0 + 0 + machine.tally opens new calls :=
    machine.tally_balance (·.next) (fun _ => 0) opens (fun _ _ => false)
      (fun calls call => (hstep calls call).1) calls
  have hsum : (run calls).sentSessions.length +
        (run calls).getCurrentSessionNumber + 0 +
        machine.tally replaces new calls =
      0 + 0 + machine.tally opens new calls :=
    machine.tally_balance
      (fun σ => σ.sentSessions.length + σ.getCurrentSessionNumber) (fun _ => 0)
      opens replaces (fun calls call => (hstep calls call).2) calls
  rw [machine.tally_false, Nat.zero_add] at hnext
  refine ⟨hnext, ?_⟩
  omega

end SIPHandler

end Sipana
