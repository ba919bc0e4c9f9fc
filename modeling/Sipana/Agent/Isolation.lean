import Sipana.Agent.Runs
import Sipana.Lib.Keyed

/-!
# Call isolation

The handler is the product of one `CallTrack` per Call-ID: a step reads and
writes the entry of its own Call-ID only, whether or not the sender throws. So
the order in which messages of different calls are interleaved does not matter.
-/

namespace Sipana

namespace SIPHandler

variable {σ : SIPHandler}

/-- The part of a log entry that concerns the Call-ID `c`. -/
def delivery (c : String) : Sent → Option Delivery
  | .session _ s => if s.callId = c then some (.session s) else none
  | .message m => if m.callID = c then some (.message m) else none

/-- The value `sessionList` has for `c`. -/
def sessionOf (σ : SIPHandler) (c : String) : Option SIPSession :=
  (σ.getSession c).map σ.heap

/-- What was handed to the sender for `c`, in order. -/
def deliveries (σ : SIPHandler) (c : String) : List Delivery :=
  σ.sent.filterMap (delivery c)

/-- The handler seen from one Call-ID. -/
def track (c : String) (σ : SIPHandler) : CallTrack :=
  ⟨σ.sessionOf c, σ.deliveries c⟩

@[simp] theorem sessionOf_send (x : Sent) (c : String) :
    (σ.send x).sessionOf c = σ.sessionOf c := rfl

theorem deliveries_send (x : Sent) (c : String) :
    (σ.send x).deliveries c = σ.deliveries c ++ (delivery c x).toList := by
  simp only [deliveries, send, List.filterMap_append]
  cases hx : delivery c x <;> simp [hx]

/-! ## A step seen from its own Call-ID -/

theorem track_absorbed_own {m : SIPMessage} {r : SessionRef}
    (hs : σ.getSession m.callID = some r) :
    track m.callID (σ.modify r (·.absorb m)) =
      ⟨some ((σ.heap r).absorb m), σ.deliveries m.callID⟩ := by
  simp [track, sessionOf, deliveries, hs]

theorem track_closed_own (hwf : Wf σ) {m : SIPMessage} {r : SessionRef}
    (hs : σ.getSession m.callID = some r) :
    track m.callID ((σ.modify r (·.absorb m)).finish r) =
      ⟨none, σ.deliveries m.callID ++ [.session ((σ.heap r).absorb m)]⟩ := by
  have hkey : (σ.heap r).callId = m.callID := hwf.keyed _ _ hs
  simp [track, sessionOf, deliveries, getSession_closed hwf hs, delivery, hkey]

theorem track_process_own (hwf : Wf σ) (call : Call) :
    track call.message.callID (σ.process call) =
      (track call.message.callID σ).step call.message := by
  have heff := process_effect hwf call
  generalize call.message = m, σ.process call = τ at heff ⊢
  cases heff with
  | @ignored q hs hkind =>
    have hstay : ¬ (q.kind = .other ∨ q.kind = .invite) := by
      rcases hkind with hkind | hkind <;> simp [hkind]
    have hlive : (track q.callID σ).live = none := by
      simp [track, sessionOf, show σ.getSession q.callID = none from hs]
    simp [CallTrack.step, CallTrack.request, hlive, hstay]
  | @standalone p hs =>
    have hs' : σ.getSession p.callID = none := hs
    simp [CallTrack.step, CallTrack.response, track, sessionOf, hs',
      deliveries_send, delivery]
  | @opened q hq =>
    have hlive : track q.callID (σ.openSession q) =
        ⟨some (SIPSession.ofRequest q), σ.deliveries q.callID⟩ := by
      simp [track, sessionOf, deliveries]
    rw [SIPMessage.callID_request, hlive, CallTrack.step, CallTrack.request]
    cases hs : σ.getSession q.callID with
    | none =>
      have hopen : q.kind = .other ∨ q.kind = .invite := hq.imp_right And.left
      simp [track, sessionOf, hs, hopen]
    | some r =>
      have hother : q.kind = .other := by
        simpa [hs] using hq
      simp [track, sessionOf, hs, hother]
  | @absorbed m r hs hre hclose =>
    rw [track_absorbed_own hs]
    cases m with
    | request q =>
      have hother : q.kind ≠ .other := by simpa [SIPMessage.reopens] using hre
      have hs' : σ.getSession q.callID = some r := hs
      simp [CallTrack.step, CallTrack.request, track, sessionOf, hs', hother]
    | response p =>
      have hopen : p.kind.closes = false := hclose
      have hs' : σ.getSession p.callID = some r := hs
      simp [CallTrack.step, CallTrack.response, track, sessionOf, hs', hopen]
  | @closed m r hs hclose =>
    rw [track_closed_own hwf hs]
    cases m with
    | request q => simp [SIPMessage.closes] at hclose
    | response p =>
      have hclose' : p.kind.closes = true := hclose
      have hs' : σ.getSession p.callID = some r := hs
      simp [CallTrack.step, CallTrack.response, track, sessionOf, hs', hclose']

/-! ## A step seen from another Call-ID -/

theorem track_process_other (hwf : Wf σ) (call : Call) {c : String}
    (hc : call.message.callID ≠ c) :
    track c (σ.process call) = track c σ := by
  have heff := process_effect hwf call
  generalize call.message = m, σ.process call = τ at heff hc ⊢
  cases heff with
  | ignored => rfl
  | @standalone p _ =>
    have hc' : p.callID ≠ c := hc
    simp [track, deliveries_send, delivery, hc']
  | @opened q _ =>
    have hlive : (σ.openSession q).sessionOf c = σ.sessionOf c := by
      rw [sessionOf, getSession_openSession_ne σ q hc.symm, sessionOf]
      refine Option.map_congr fun r hr => heap_openSession_ne σ q ?_
      exact Nat.ne_of_lt (hwf.allocated c r hr)
    simp [track, deliveries, hlive]
  | @absorbed m r hs _ _ =>
    have hlive : (σ.modify r (·.absorb m)).sessionOf c = σ.sessionOf c := by
      rw [sessionOf, getSession_modify, sessionOf]
      exact Option.map_congr fun r' hr' =>
        heap_closed_of_live hwf hs hc.symm hr'
    simp [track, deliveries, hlive]
  | @closed m r hs _ =>
    have hkey : (σ.heap r).callId = m.callID := hwf.keyed _ _ hs
    have hlive : ((σ.modify r (·.absorb m)).finish r).sessionOf c =
        σ.sessionOf c := by
      rw [sessionOf, getSession_closed hwf hs, if_neg hc.symm, sessionOf]
      exact Option.map_congr fun r' hr' =>
        heap_closed_of_live hwf hs hc.symm hr'
    simp [track, deliveries, hlive, delivery, hkey, hc]

/-- The handler is a product of call trackers. -/
def trackers : Machine.KeyedView machine CallTrack.machine
    SIPMessage.callID where
  Good := Wf
  input := Call.message
  view := track
  good_init := wf_new
  good_step := fun _ call hwf => wf_process hwf call
  view_init := fun _ => rfl
  view_own := fun _ call hwf => track_process_own hwf call
  view_other := fun _ call _ hwf hc => track_process_other hwf call hc

/-- The messages of a run that carry the Call-ID `c`. -/
def messagesOf (calls : List Call) (c : String) : List SIPMessage :=
  (calls.map Call.message).filter (·.callID = c)

/-- Two runs with the same messages for every Call-ID, in whatever order across
Call-IDs and whichever hand-overs throw, end with the same session table and
have handed over the same objects for every Call-ID. -/
theorem call_isolation (calls calls' : List Call)
    (h : ∀ c, messagesOf calls c = messagesOf calls' c) :
    (run calls).sessionList.keys = (run calls').sessionList.keys ∧
    (∀ c, (run calls).sessionOf c = (run calls').sessionOf c) ∧
    (∀ c, (run calls).deliveries c = (run calls').deliveries c) := by
  have hview : ∀ c, track c (run calls) = track c (run calls') :=
    fun c => trackers.view_run_congr (h c)
  have hlive : ∀ c, (run calls).sessionOf c = (run calls').sessionOf c :=
    fun c => congrArg CallTrack.live (hview c)
  refine ⟨?_, hlive, fun c => congrArg CallTrack.delivered (hview c)⟩
  ext c
  have hsome := congrArg Option.isSome (hlive c)
  simp only [sessionOf, Option.isSome_map, getSession] at hsome
  rw [Finmap.mem_keys, Finmap.mem_keys, ← Finmap.lookup_isSome,
    ← Finmap.lookup_isSome, hsome]

/-- Two calls interleaved in both orders, one of the hand-overs failing. -/
theorem call_isolation_two_calls :
    (run [.request "REGISTER" "a" 1, .request "INVITE" "b" 2,
      .response 200 "REGISTER" "a" 3 .returns]).sessionList.keys =
    (run [.request "INVITE" "b" 2, .request "REGISTER" "a" 1,
      .response 200 "REGISTER" "a" 3 .throws]).sessionList.keys :=
  (call_isolation _ _ (by
    intro c
    by_cases ha : c = "a"
    · subst ha
      decide
    · by_cases hb : c = "b"
      · subst hb
        decide
      · have ha' : "a" ≠ c := fun e => ha e.symm
        have hb' : "b" ≠ c := fun e => hb e.symm
        simp [messagesOf, Call.request, Call.response, ha', hb'])).1

end SIPHandler

end Sipana
