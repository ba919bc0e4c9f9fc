import Sipana.Agent.Timing

/-!
# Retransmissions

The same packet may be captured more than once. Two runs that differ in one
duplicate are compared: they are twins, equal up to the message list of the
session that took the duplicate (`Twins`), as long as the duplicate itself
changed nothing else. Every handler is guarded against duplicates but two:
`processDisconnectRequest` moves the start of the disconnection, and
`processRequest` replaces the session when the method is none of INVITE, ACK,
BYE and CANCEL.
-/

namespace Sipana

/-! ## Sessions up to their messages -/

namespace SIPSession

def withMessages (s : SIPSession) (ms : List SIPMessage) : SIPSession :=
  { s with messages := ms }

@[simp] theorem withMessages_withMessages (s : SIPSession)
    (ms ms' : List SIPMessage) :
    (s.withMessages ms).withMessages ms' = s.withMessages ms' := rfl

theorem addMessage_eq (s : SIPSession) (m : SIPMessage) :
    s.addMessage m = s.withMessages (s.messages ++ [m]) := rfl

theorem noteResponse_withMessages (s : SIPSession) (ms : List SIPMessage)
    (t : Int) : (s.withMessages ms).noteResponse t =
      (s.noteResponse t).withMessages ms := by
  unfold noteResponse withMessages
  simp only
  split <;> rfl

theorem settle_withMessages (s : SIPSession) (ms : List SIPMessage)
    (k : ResponseKind) (t : Int) :
    (s.withMessages ms).settle k t = (s.settle k t).withMessages ms := by
  unfold settle withMessages
  cases k <;> simp only <;> split <;> rfl

/-- Absorbing does not look at the messages collected so far. -/
theorem absorb_withMessages (s : SIPSession) (ms : List SIPMessage)
    (m : SIPMessage) :
    (s.withMessages ms).absorb m = (s.absorb m).withMessages (ms ++ [m]) := by
  cases m with
  | request q =>
    by_cases hkind : q.kind = .disconnect
    · rw [absorb_disconnect _ hkind, absorb_disconnect _ hkind]
      rfl
    · rw [absorb_request _ hkind, absorb_request _ hkind]
      rfl
  | response p =>
    simp only [absorb_response, addMessage_eq, noteResponse_withMessages,
      settle_withMessages, withMessages_withMessages]
    rfl

/-- Equal but for the message list. -/
def Alike (s t : SIPSession) : Prop := ∃ ms, t = s.withMessages ms

theorem Alike.refl (s : SIPSession) : Alike s s := ⟨s.messages, rfl⟩

theorem Alike.absorb {s t : SIPSession} (h : Alike s t) (m : SIPMessage) :
    Alike (s.absorb m) (t.absorb m) := by
  obtain ⟨ms, rfl⟩ := h
  exact ⟨ms ++ [m], s.absorb_withMessages ms m⟩

end SIPSession

/-! ## Duplicates -/

/-- What a session keeps of a message it has absorbed. -/
def Marked (m : SIPMessage) (s : SIPSession) : Prop :=
  match m with
  | .request q => q.kind = .disconnect → 3 ≤ s.state.rank
  | .response p => s.firstResponseTime ≠ 0 ∧
      (p.kind = .ringing → 1 ≤ s.state.rank) ∧
      (p.kind = .inviteOK → 2 ≤ s.state.rank)

/-- A duplicate that a live session takes without harm: any response, an INVITE
or ACK, and a BYE or CANCEL captured when the disconnection started. -/
def Harmless (s : SIPSession) : SIPMessage → Prop
  | .request q =>
    match q.kind with
    | .invite | .ack => True
    | .disconnect => q.time = s.disconnectionStart
    | .other => False
  | .response _ => True

namespace SIPSession

theorem noteResponse_noop {s : SIPSession} (h : s.firstResponseTime ≠ 0)
    (t : Int) : s.noteResponse t = s := if_neg h

theorem noteResponse_sets (s : SIPSession) {t : Int} (ht : t ≠ 0) :
    (s.noteResponse t).firstResponseTime ≠ 0 := by
  unfold noteResponse
  split
  · exact ht
  · assumption

theorem absorb_keeps_first {s : SIPSession} (h : s.firstResponseTime ≠ 0)
    (m : SIPMessage) : (s.absorb m).firstResponseTime ≠ 0 := by
  cases m with
  | request q =>
    by_cases hkind : q.kind = .disconnect
    · rw [s.absorb_disconnect hkind]
      exact h
    · rw [s.absorb_request hkind]
      exact h
  | response p =>
    rw [s.absorb_response, settle_firstResponseTime,
      noteResponse_noop (s := s.addMessage _) h]
    exact h

/-- A response of a kind the session is past settles nothing. -/
theorem settle_noop {s : SIPSession} {k : ResponseKind}
    (hk : k.closes = false) (hring : k = .ringing → 1 ≤ s.state.rank)
    (hok : k = .inviteOK → 2 ≤ s.state.rank) (t : Int) :
    s.settle k t = s := by
  cases k with
  | ringing =>
    apply if_neg
    intro hstate
    have hrank := hring rfl
    simp [hstate, SIPSessionState.rank] at hrank
  | inviteOK =>
    have hrank := hok rfl
    unfold settle
    cases hstate : s.state <;> simp_all [SIPSessionState.rank]
  | passive => rfl
  | cancelOK | byeOK | otherOK | failure => simp [ResponseKind.closes] at hk

/-- A session that has absorbed a ringing or an OK response is past it. -/
theorem settle_rank (s : SIPSession) (t : Int) :
    1 ≤ (s.settle .ringing t).state.rank ∧
      2 ≤ (s.settle .inviteOK t).state.rank := by
  unfold settle
  cases hstate : s.state <;> simp [hstate, SIPSessionState.rank]

end SIPSession

theorem marked_self {s : SIPSession} {m : SIPMessage} (ht : 0 < m.time) :
    Marked m (s.absorb m) := by
  cases m with
  | request q =>
    intro hkind
    rw [s.absorb_disconnect hkind]
    exact Nat.le_refl 3
  | response p =>
    refine ⟨?_, fun hring => ?_, fun hok => ?_⟩
    · rw [s.absorb_response, SIPSession.settle_firstResponseTime]
      exact SIPSession.noteResponse_sets _ (Int.ne_of_gt ht)
    · rw [s.absorb_response, hring]
      exact (SIPSession.settle_rank _ _).1
    · rw [s.absorb_response, hok]
      exact (SIPSession.settle_rank _ _).2

theorem Marked.absorb {s : SIPSession} {m : SIPMessage} (h : Marked m s)
    (hopen : s.IsOpen) (m' : SIPMessage) : Marked m (s.absorb m') := by
  have hrank := SIPSession.absorb_rank_le hopen m'
  cases m with
  | request q => exact fun hkind => Nat.le_trans (h hkind) hrank
  | response p =>
    obtain ⟨hfirst, hring, hok⟩ := h
    exact ⟨SIPSession.absorb_keeps_first hfirst m',
      fun hkind => Nat.le_trans (hring hkind) hrank,
      fun hkind => Nat.le_trans (hok hkind) hrank⟩

/-- A harmless duplicate only lengthens the message list. -/
theorem alike_absorb_duplicate {s : SIPSession} {m : SIPMessage} {t : Int}
    (hmark : Marked m s) (hopen : s.IsOpen) (hclose : m.closes = false)
    (hsafe : Harmless s (m.setTime t)) : s.Alike (s.absorb (m.setTime t)) := by
  refine ⟨s.messages ++ [m.setTime t], ?_⟩
  cases m with
  | request q =>
    by_cases hkind : q.kind = .disconnect
    · have hkind' : ({ q with time := t } : SIPRequest).kind = .disconnect :=
        hkind
      have htime : t = s.disconnectionStart := by
        simpa [Harmless, SIPMessage.setTime, hkind'] using hsafe
      have hstate : s.state = .disconnecting := by
        have hrank := hmark hkind
        unfold SIPSession.IsOpen at hopen
        cases hstate : s.state <;> simp_all [SIPSessionState.rank]
      rw [SIPMessage.setTime, s.absorb_disconnect hkind']
      simp [SIPSession.addMessage, SIPSession.withMessages, htime, ← hstate]
    · rw [SIPMessage.setTime, s.absorb_request (by exact hkind)]
      rfl
  | response p =>
    obtain ⟨hfirst, hring, hok⟩ := hmark
    rw [SIPMessage.setTime, s.absorb_response,
      SIPSession.noteResponse_noop (by exact hfirst),
      SIPSession.settle_noop (by exact hclose) (by exact hring)
        (by exact hok)]
    rfl

namespace SIPHandler

variable {σ τ : SIPHandler}

/-! ## Twin runs -/

/-- What a call does, as a function of its message. -/
def react (σ : SIPHandler) : SIPMessage → SIPHandler
  | .request q =>
    if q.kind = .other ∨ (q.kind = .invite ∧ σ.getSession q.callID = none) then
      σ.openSession q
    else
      match σ.getSession q.callID with
      | none => σ
      | some r => σ.modify r (·.absorb (.request q))
  | .response p =>
    match σ.getSession p.callID with
    | none => σ.send (.message (.response p))
    | some r =>
      let σ' := σ.modify r (·.absorb (.response p))
      if p.kind.closes then σ'.finish r else σ'

theorem process_eq_react (hwf : Wf σ) (call : Call) :
    σ.process call = σ.react call.message := by
  have heff := process_effect hwf call
  generalize call.message = m, σ.process call = τ at heff ⊢
  cases heff with
  | ignored hs hkind =>
    rcases hkind with hkind | hkind <;> simp [react, hs, hkind]
  | standalone hs => simp [react, hs]
  | opened hq => rw [react, if_pos hq]
  | @absorbed m r hs hre hclose =>
    cases m with
    | request q =>
      rw [SIPMessage.callID_request] at hs
      have hother : q.kind ≠ .other := by simpa [SIPMessage.reopens] using hre
      simp [react, hs, hother]
    | response p =>
      rw [SIPMessage.callID_response] at hs
      have hkind : p.kind.closes = false := hclose
      simp [react, hs, hkind]
  | @closed m r hs hclose =>
    cases m with
    | request q => simp [SIPMessage.closes] at hclose
    | response p =>
      rw [SIPMessage.callID_response] at hs
      have hkind : p.kind.closes = true := hclose
      simp [react, hs, hkind]

/-- Two handlers that differ in the message list of one object, and in what
they have sent. -/
structure Twins (r : SessionRef) (σ τ : SIPHandler) : Prop where
  next : τ.next = σ.next
  sessionList : τ.sessionList = σ.sessionList
  apart : ∀ r' ≠ r, τ.heap r' = σ.heap r'
  alike : (σ.heap r).Alike (τ.heap r)

namespace Twins

variable {r : SessionRef}

theorem getSession (h : Twins r σ τ) (c : String) :
    τ.getSession c = σ.getSession c := by
  rw [SIPHandler.getSession, h.sessionList]
  rfl

theorem heap (h : Twins r σ τ) (r' : SessionRef) :
    (σ.heap r').Alike (τ.heap r') := by
  by_cases hr : r' = r
  · rw [hr]
    exact h.alike
  · rw [h.apart r' hr]
    exact SIPSession.Alike.refl _

theorem callId (h : Twins r σ τ) (r' : SessionRef) :
    (τ.heap r').callId = (σ.heap r').callId := by
  obtain ⟨ms, hms⟩ := h.heap r'
  rw [hms]
  rfl

theorem modify (h : Twins r σ τ) (r' : SessionRef) (m : SIPMessage) :
    Twins r (σ.modify r' (·.absorb m)) (τ.modify r' (·.absorb m)) := by
  refine ⟨h.next, h.sessionList, fun a ha => ?_, ?_⟩
  · by_cases hr : a = r'
    · subst hr
      rw [heap_modify_self, heap_modify_self, h.apart a ha]
    · rw [heap_modify_ne _ hr, heap_modify_ne _ hr, h.apart a ha]
  · by_cases hr : r = r'
    · subst hr
      rw [heap_modify_self, heap_modify_self]
      exact h.alike.absorb m
    · rw [heap_modify_ne _ hr, heap_modify_ne _ hr]
      exact h.alike

theorem openSession (h : Twins r σ τ) (q : SIPRequest) :
    Twins r (σ.openSession q) (τ.openSession q) := by
  have hsame : ∀ a, (τ.openSession q).heap a = (σ.openSession q).heap a ∨
      ((τ.openSession q).heap a = τ.heap a ∧
        (σ.openSession q).heap a = σ.heap a) := by
    intro a
    by_cases ha : a = σ.next
    · have hself := heap_openSession_self τ q
      rw [h.next] at hself
      rw [ha, hself, heap_openSession_self]
      exact Or.inl rfl
    · rw [heap_openSession_ne σ q ha, heap_openSession_ne τ q (h.next ▸ ha)]
      exact Or.inr ⟨rfl, rfl⟩
  refine ⟨congrArg (· + 1) h.next, ?_, fun a ha => ?_, ?_⟩
  · simp [SIPHandler.openSession, createSession, addSession, h.next,
      h.sessionList]
  · rcases hsame a with heq | ⟨hτ, hσ⟩
    · exact heq
    · rw [hτ, hσ, h.apart a ha]
  · rcases hsame r with heq | ⟨hτ, hσ⟩
    · rw [heq]
      exact SIPSession.Alike.refl _
    · rw [hτ, hσ]
      exact h.alike

theorem finish (h : Twins r σ τ) (r' : SessionRef) :
    Twins r (σ.finish r') (τ.finish r') := by
  refine ⟨h.next, ?_, h.apart, h.alike⟩
  simp [SIPHandler.finish, removeSession, send, h.sessionList, h.callId r']

theorem react (h : Twins r σ τ) (m : SIPMessage) :
    Twins r (σ.react m) (τ.react m) := by
  cases m with
  | request q =>
    unfold SIPHandler.react
    simp only [h.getSession]
    split
    · exact h.openSession q
    · split
      · exact h
      · exact h.modify _ _
  | response p =>
    unfold SIPHandler.react
    simp only [h.getSession]
    split
    · exact ⟨h.next, h.sessionList, h.apart, h.alike⟩
    · split
      · exact (h.modify _ _).finish _
      · exact h.modify _ _

/-- Twins stay twins, whatever calls follow. -/
theorem exec (h : Twins r σ τ) (hσ : Wf σ) (hτ : Wf τ) (calls : List Call) :
    Twins r (machine.exec σ calls) (machine.exec τ calls) := by
  refine (machine.exec_lockstep machine
    (R := fun σ τ => Wf σ ∧ Wf τ ∧ Twins r σ τ) ?_ ⟨hσ, hτ, h⟩ calls).2.2
  intro σ τ call hboth
  obtain ⟨hσ, hτ, h⟩ := hboth
  refine ⟨wf_process hσ call, wf_process hτ call, ?_⟩
  have hreact := h.react call.message
  rwa [← process_eq_react hσ, ← process_eq_react hτ] at hreact

end Twins

/-- The call `c` is as well off in `τ` as in `σ`: its session `r` is live in
both or in neither, and its state and milestones agree. -/
structure Undisturbed (c : String) (r : SessionRef) (σ τ : SIPHandler) :
    Prop where
  live : τ.getSession c = some r ↔ σ.getSession c = some r
  state : (τ.heap r).state = (σ.heap r).state
  startTime : (τ.heap r).startTime = (σ.heap r).startTime
  firstResponseTime :
    (τ.heap r).firstResponseTime = (σ.heap r).firstResponseTime
  setupTime : (τ.heap r).setupTime = (σ.heap r).setupTime
  establishedTime : (τ.heap r).establishedTime = (σ.heap r).establishedTime
  disconnectionStart :
    (τ.heap r).disconnectionStart = (σ.heap r).disconnectionStart

theorem Twins.undisturbed {r : SessionRef} (h : Twins r σ τ) (c : String) :
    Undisturbed c r σ τ := by
  obtain ⟨ms, hms⟩ := h.alike
  constructor <;> simp [h.getSession, hms, SIPSession.withMessages]

/-! ## Runs with a duplicate -/

/-- The session that is live after `m` has absorbed `m`, or was opened by it. -/
theorem marked_of_received (hwf : Wf σ) {m : Call} {r : SessionRef}
    (ht : 0 < m.message.time)
    (hrecv : (σ.process m).getSession m.message.callID = some r) :
    m.message.closes = false ∧ Marked m.message ((σ.process m).heap r) := by
  have heff := process_effect hwf m
  generalize m.message = μ, σ.process m = τ at heff ht hrecv ⊢
  cases heff with
  | ignored hs => exact absurd (hs.symm.trans hrecv) (by simp)
  | standalone hs =>
    rw [getSession_send] at hrecv
    exact absurd (hs.symm.trans hrecv) (by simp)
  | @opened q hq =>
    refine ⟨rfl, fun hkind => ?_⟩
    rcases hq with hq | ⟨hq, -⟩ <;> simp [hkind] at hq
  | @absorbed m r' hs _ hclose =>
    rw [getSession_modify, hs, Option.some.injEq] at hrecv
    subst hrecv
    rw [heap_modify_self]
    exact ⟨hclose, marked_self ht⟩
  | closed hs =>
    rw [getSession_closed hwf hs, if_pos rfl] at hrecv
    cases hrecv

/-- As long as it is live the session keeps its mark. -/
theorem marked_of_live {pre mid : List Call} {m : Call} {r : SessionRef}
    (ht : 0 < m.message.time)
    (hrecv : (run (pre ++ [m])).getSession m.message.callID = some r)
    (hlive : (run (pre ++ m :: mid)).getSession m.message.callID = some r) :
    m.message.closes = false ∧
      Marked m.message ((run (pre ++ m :: mid)).heap r) := by
  have hwf := wf_run (pre ++ [m])
  have hsplit : run (pre ++ m :: mid) =
      machine.exec (run (pre ++ [m])) mid := by
    rw [run, machine.run_append_cons, ← machine.run_snoc]
    rfl
  rw [hsplit] at hlive ⊢
  have habs := exec_absorbs hwf (hwf.allocated _ r hrecv)
    (P := Marked m.message) (c := m.message.callID)
    (fun s m' hmark hopen _ _ => hmark.absorb hopen m') mid hlive
  rw [run_snoc] at hrecv
  obtain ⟨hclose, hmark⟩ := marked_of_received (wf_run pre) ht hrecv
  rw [← run_snoc] at hmark
  exact ⟨hclose, habs.2 hmark⟩

theorem twins_of_harmless (hwf : Wf σ) {dup : Call} {m : SIPMessage} {t : Int}
    {r : SessionRef} (hdup : dup.message = m.setTime t)
    (hlive : σ.getSession m.callID = some r) (hclose : m.closes = false)
    (hmark : Marked m (σ.heap r))
    (hsafe : Harmless (σ.heap r) dup.message) :
    Twins r σ (σ.process dup) := by
  have heff := process_effect hwf dup
  have hid : dup.message.callID = m.callID := by simp [hdup]
  have hopen := hwf.isOpen _ _ hlive
  rw [← hid] at hlive
  generalize hμ : dup.message = μ, σ.process dup = τ at heff hlive hsafe ⊢
  rw [hμ] at hdup
  cases heff with
  | ignored hs => exact absurd (hs.symm.trans hlive) (by simp)
  | standalone hs => exact absurd (hs.symm.trans hlive) (by simp)
  | @opened q hq =>
    rcases hq with hother | ⟨-, hs⟩
    · simp [Harmless, hother] at hsafe
    · exact absurd (hs.symm.trans hlive) (by simp)
  | @absorbed m' r' hs _ _ =>
    obtain rfl := Option.some.inj (hs.symm.trans hlive)
    refine ⟨rfl, rfl, fun a ha => heap_modify_ne σ ha _, ?_⟩
    rw [heap_modify_self, hdup]
    exact alike_absorb_duplicate hmark hopen hclose (hdup ▸ hsafe)
  | closed _ hclose' => simp [hdup, hclose] at hclose'

/-- A duplicate that is not harmless shows at once. -/
theorem harmless_of_undisturbed (hwf : Wf σ) {dup : Call} {r : SessionRef}
    (hlive : σ.getSession dup.message.callID = some r)
    (h : Undisturbed dup.message.callID r σ (σ.process dup)) :
    Harmless (σ.heap r) dup.message := by
  have hreact := process_eq_react hwf dup
  rw [hreact] at h
  cases hμ : dup.message with
  | response p => trivial
  | request q =>
    rw [hμ, SIPMessage.callID_request] at hlive h
    cases hkind : q.kind with
    | invite | ack => simp [Harmless, hkind]
    | disconnect =>
      have hdisc := h.disconnectionStart
      rw [show σ.react (.request q) = σ.modify r (·.absorb (.request q)) by
        simp [react, hkind, hlive], heap_modify_self,
        SIPSession.absorb_disconnect _ hkind] at hdisc
      simpa [Harmless, hkind] using hdisc
    | other =>
      have hnew := h.live.mpr hlive
      rw [show σ.react (.request q) = σ.openSession q by
        simp [react, hkind], getSession_openSession_self,
        Option.some.injEq] at hnew
      exact absurd hnew (Nat.ne_of_gt (hwf.allocated _ _ hlive))

/-- A duplicate of `m`, processed while the session that received `m` is live,
leaves the call undisturbed, whatever follows, exactly when it is harmless. -/
theorem undisturbed_iff_harmless (pre mid : List Call) (m dup : Call) (t : Int)
    (r : SessionRef) (htimed : Timed (pre ++ m :: mid ++ [dup]))
    (hdup : dup.message = m.message.setTime t)
    (hrecv : (run (pre ++ [m])).getSession m.message.callID = some r)
    (hlive : (run (pre ++ m :: mid)).getSession m.message.callID = some r) :
    (∀ post, Timed (pre ++ m :: mid ++ dup :: post) →
      Undisturbed m.message.callID r (run (pre ++ m :: mid ++ post))
        (run (pre ++ m :: mid ++ dup :: post))) ↔
      Harmless ((run (pre ++ m :: mid)).heap r) dup.message := by
  have hwf := wf_run (pre ++ m :: mid)
  have hid : dup.message.callID = m.message.callID := by simp [hdup]
  refine ⟨?_, ?_⟩
  · intro h
    have hnow := h [] htimed
    rw [List.append_nil, run_snoc, ← hid] at hnow
    exact harmless_of_undisturbed hwf (hid ▸ hlive) hnow
  · intro hsafe post _
    have ht := htimed.of_append.next.1
    obtain ⟨hclose, hmark⟩ := marked_of_live ht hrecv hlive
    have htwins := twins_of_harmless hwf hdup hlive hclose hmark hsafe
    have hexec := htwins.exec hwf (wf_process hwf dup) post
    have hdupRun : run (pre ++ m :: mid ++ dup :: post) =
        machine.exec ((run (pre ++ m :: mid)).process dup) post :=
      machine.run_append_cons _ _ _
    rw [hdupRun, run, machine.run_append]
    exact hexec.undisturbed _

/-- A 180 seen twice, in a call that is answered and hung up later. -/
theorem undisturbed_by_second_ringing :
    Undisturbed "a" 0
      (run [.request "INVITE" "a" 1, .response 180 "INVITE" "a" 2,
        .response 200 "INVITE" "a" 4, .request "BYE" "a" 5])
      (run [.request "INVITE" "a" 1, .response 180 "INVITE" "a" 2,
        .response 180 "INVITE" "a" 3, .response 200 "INVITE" "a" 4,
        .request "BYE" "a" 5]) :=
  (undisturbed_iff_harmless [.request "INVITE" "a" 1] []
    (.response 180 "INVITE" "a" 2) (.response 180 "INVITE" "a" 3) 3 0
    (by decide) (by decide) (by decide) (by decide)).mpr trivial
    [.response 200 "INVITE" "a" 4, .request "BYE" "a" 5] (by decide)

/-- A REGISTER seen twice: the session that received it is dropped. -/
theorem second_register_disturbs :
    ¬ ∀ (pre mid post : List Call) (m dup : Call) (t : Int) (r : SessionRef),
      Timed (pre ++ m :: mid ++ dup :: post) →
      dup.message = m.message.setTime t →
      (run (pre ++ [m])).getSession m.message.callID = some r →
      (run (pre ++ m :: mid)).getSession m.message.callID = some r →
      Undisturbed m.message.callID r (run (pre ++ m :: mid ++ post))
        (run (pre ++ m :: mid ++ dup :: post)) := by
  intro h
  have hnow := h [] [] [] (.request "REGISTER" "a" 1)
    (.request "REGISTER" "a" 2) 2 0 (by decide) (by decide) (by decide)
    (by decide)
  exact absurd hnow.live (by decide)

end SIPHandler

end Sipana
