import Sipana.Agent.Runs

/-!
# Accountability of sessions

Every session the handler opens should stay in the table until it is handed to
the sender, and be handed over once. The ledger below shows that the only way
out of the table that misses the sender is the unguarded `addSession` of
`processRequest`: a request that is none of INVITE, ACK, BYE and CANCEL
replaces a live session with the same Call-ID, and a replaced session is lost
for good.
-/

namespace Sipana

namespace SIPHandler

variable {σ : SIPHandler}

/-- How often the object `r` was passed to `messageSender.send`. -/
def sentCount (σ : SIPHandler) (r : SessionRef) : Nat :=
  σ.sentSessions.countP (·.1 = r)

/-- The object `r` was in the table at some moment of the run. -/
def EverListed (calls : List Call) (r : SessionRef) : Prop :=
  ∃ pre, pre <+: calls ∧ ∃ c, (run pre).getSession c = some r

/-- The object `r` is still filed under its Call-ID or was sent exactly once. -/
def Accounted (σ : SIPHandler) (r : SessionRef) : Prop :=
  σ.getSession (σ.heap r).callId = some r ∨ σ.sentCount r = 1

instance (σ : SIPHandler) (r : SessionRef) : Decidable (Accounted σ r) :=
  inferInstanceAs (Decidable (_ ∨ _))

/-- A request other than INVITE, ACK, BYE and CANCEL for a live session. -/
def Replaces (σ : SIPHandler) (call : Call) : Prop :=
  call.message.reopens = true ∧ ∃ r, σ.getSession call.message.callID = some r

/-- The object `r` has left the table without reaching the sender. -/
def Lost (σ : SIPHandler) (r : SessionRef) : Prop :=
  r < σ.next ∧ (∀ c, σ.getSession c ≠ some r) ∧ σ.sentCount r = 0

/-! ## Counting -/

@[simp] theorem sentCount_modify (r r' : SessionRef)
    (f : SIPSession → SIPSession) :
    (σ.modify r f).sentCount r' = σ.sentCount r' := rfl

@[simp] theorem sentCount_openSession (q : SIPRequest) (r : SessionRef) :
    (σ.openSession q).sentCount r = σ.sentCount r := rfl

@[simp] theorem sentCount_send_message (m : SIPMessage) (r : SessionRef) :
    (σ.send (.message m)).sentCount r = σ.sentCount r := by
  simp [sentCount, sentSessions, send]

theorem sentCount_finish (r r' : SessionRef) :
    (σ.finish r).sentCount r' = σ.sentCount r' + if r' = r then 1 else 0 := by
  simp [sentCount, sentSessions, finish_sent, List.countP_singleton, eq_comm]

/-! ## The ledger -/

structure Ledger (σ : SIPHandler) : Prop where
  fresh : ∀ r, σ.next ≤ r → σ.sentCount r = 0
  live : ∀ c r, σ.getSession c = some r → σ.sentCount r = 0
  once : ∀ r, σ.sentCount r ≤ 1

theorem ledger_process (hwf : Wf σ) (hl : Ledger σ) (call : Call) :
    Ledger (σ.process call) := by
  have heff := process_effect hwf call
  generalize call.message = m, σ.process call = τ at heff ⊢
  cases heff with
  | ignored => exact hl
  | standalone =>
    refine ⟨?_, ?_, ?_⟩
    · intro r hr
      rw [sentCount_send_message]
      exact hl.fresh r hr
    · intro c r h
      rw [sentCount_send_message]
      exact hl.live c r h
    · intro r
      rw [sentCount_send_message]
      exact hl.once r
  | @opened q _ =>
    refine ⟨fun r hr => hl.fresh r (Nat.le_of_succ_le hr), ?_, hl.once⟩
    intro c r h
    by_cases hc : c = q.callID
    · rw [hc, getSession_openSession_self, Option.some.injEq] at h
      exact hl.fresh r (Nat.le_of_eq h)
    · rw [getSession_openSession_ne _ _ hc] at h
      exact hl.live c r h
  | absorbed => exact ⟨hl.fresh, hl.live, hl.once⟩
  | @closed _ r₀ hs _ =>
    refine ⟨?_, ?_, ?_⟩
    · intro r hr
      have hne : r ≠ r₀ := Nat.ne_of_gt
        (Nat.lt_of_lt_of_le (hwf.allocated _ _ hs) hr)
      rw [sentCount_finish, if_neg hne, sentCount_modify]
      exact hl.fresh r hr
    · intro c r h
      have hne : r ≠ r₀ := by
        intro heq
        subst heq
        exact getSession_closed_ne hwf hs c h
      rw [getSession_closed hwf hs] at h
      split at h
      · cases h
      · rw [sentCount_finish, if_neg hne, sentCount_modify]
        exact hl.live c r h
    · intro r
      rw [sentCount_finish, sentCount_modify]
      split
      · rename_i hr
        rw [hr, hl.live _ _ hs]
      · exact hl.once r

/-- Nothing is sent before it is opened, while it is live, or twice. -/
theorem ledger_run (calls : List Call) : Ledger (run calls) := by
  have hboth : Wf (run calls) ∧ Ledger (run calls) :=
    machine.run_invariant (I := fun σ => Wf σ ∧ Ledger σ)
      ⟨wf_new, by constructor <;> intros <;> simp [machine, new, sentCount,
        sentSessions]⟩
      (fun σ call h => ⟨wf_process h.1 call, ledger_process h.1 h.2 call⟩) calls
  exact hboth.2

/-! ## Losing a session -/

/-- What is lost stays lost: the table only takes up fresh objects. -/
theorem lost_process (hwf : Wf σ) {r : SessionRef} (h : Lost σ r)
    (call : Call) : Lost (σ.process call) r := by
  obtain ⟨hr, hdead, hcount⟩ := h
  refine ⟨Nat.lt_of_lt_of_le hr (next_le_process hwf call),
    fun c hc => hdead c (getSession_of_process hwf hr hc), ?_⟩
  have heff := process_effect hwf call
  generalize call.message = m, σ.process call = τ at heff ⊢
  cases heff with
  | ignored => exact hcount
  | standalone => rwa [sentCount_send_message]
  | opened => exact hcount
  | absorbed => exact hcount
  | @closed m r₀ hs _ =>
    have hne : r ≠ r₀ := by
      intro heq
      subst heq
      exact hdead m.callID hs
    rw [sentCount_finish, if_neg hne, sentCount_modify]
    exact hcount

/-- A replaced session is lost. -/
theorem lost_of_replaces (hwf : Wf σ) (hl : Ledger σ) {call : Call}
    {r : SessionRef} (hre : call.message.reopens = true)
    (hs : σ.getSession call.message.callID = some r) :
    Lost (σ.process call) r := by
  have heff := process_effect hwf call
  generalize call.message = m, σ.process call = τ at heff hre hs ⊢
  cases heff with
  | ignored hnone => exact absurd (hnone.symm.trans hs) (by simp)
  | standalone => simp [SIPMessage.reopens] at hre
  | absorbed _ hkeep => simp [hkeep] at hre
  | closed _ hclose =>
    cases m with
    | request => simp [SIPMessage.closes] at hclose
    | response => simp [SIPMessage.reopens] at hre
  | @opened q _ =>
    have hr := hwf.allocated _ _ hs
    refine ⟨Nat.lt_succ_of_lt hr, ?_, hl.live _ _ hs⟩
    intro c hc
    by_cases hcq : c = q.callID
    · rw [hcq, getSession_openSession_self, Option.some.injEq] at hc
      exact Nat.ne_of_gt hr hc
    · rw [getSession_openSession_ne _ _ hcq] at hc
      exact hcq (hwf.injective hc hs)

theorem Lost.not_accounted {r : SessionRef} (h : Lost σ r) :
    ¬ Accounted σ r := by
  obtain ⟨-, hdead, hcount⟩ := h
  intro haccounted
  rcases haccounted with hlive | hsent
  · exact hdead _ hlive
  · omega

/-- Without a replacement every call keeps the books balanced. -/
theorem accounted_process (hwf : Wf σ) (hl : Ledger σ) {call : Call}
    (hrep : ¬ Replaces σ call) (h : ∀ r < σ.next, Accounted σ r) :
    ∀ r < (σ.process call).next, Accounted (σ.process call) r := by
  have heff := process_effect hwf call
  unfold Replaces at hrep
  generalize call.message = m, σ.process call = τ at heff hrep ⊢
  cases heff with
  | ignored => exact h
  | standalone =>
    intro r hr
    rw [Accounted, sentCount_send_message]
    exact h r hr
  | @opened q hq =>
    intro r hr
    by_cases hnew : r = σ.next
    · subst hnew
      exact Or.inl (by simp [SIPSession.ofRequest])
    · have hold : r < σ.next :=
        Nat.lt_of_le_of_ne (Nat.le_of_lt_succ hr) hnew
      rw [Accounted, heap_openSession_ne σ q hnew, sentCount_openSession]
      refine (h r hold).imp_left fun hlive => ?_
      -- the new session takes a free place
      have hfree : σ.getSession q.callID = none := by
        rcases hq with hother | ⟨-, hnone⟩
        · by_contra hsome
          exact hrep ⟨by simp [SIPMessage.reopens, hother],
            Option.ne_none_iff_exists'.mp hsome⟩
        · exact hnone
      have hne : (σ.heap r).callId ≠ q.callID := by
        intro e
        rw [e, hfree] at hlive
        cases hlive
      rwa [getSession_openSession_ne σ q hne]
  | @absorbed m r₀ hs _ _ =>
    intro r hr
    have hkey : ((σ.modify r₀ (·.absorb m)).heap r).callId =
        (σ.heap r).callId := by
      by_cases hr₀ : r = r₀
      · subst hr₀
        simp
      · rw [heap_modify_ne σ hr₀]
    rw [Accounted, hkey]
    exact h r hr
  | @closed m r₀ hs _ =>
    intro r hr
    by_cases hr₀ : r = r₀
    · subst hr₀
      apply Or.inr
      rw [sentCount_finish, if_pos rfl, sentCount_modify, hl.live _ _ hs]
    · rw [Accounted, finish_heap, heap_modify_ne σ hr₀, sentCount_finish,
        if_neg hr₀, sentCount_modify, getSession_closed hwf hs]
      refine (h r hr).imp_left fun hlive => ?_
      have hne : (σ.heap r).callId ≠ m.callID := by
        intro e
        rw [e, hs, Option.some.injEq] at hlive
        exact hr₀ hlive.symm
      rwa [if_neg hne]

/-! ## Runs -/

theorem next_le_exec (hwf : Wf σ) (calls : List Call) :
    σ.next ≤ (machine.exec σ calls).next :=
  (machine.exec_invariant (I := fun τ => Wf τ ∧ σ.next ≤ τ.next)
    (fun _ call h => ⟨wf_process h.1 call,
      Nat.le_trans h.2 (next_le_process h.1 call)⟩)
    ⟨hwf, Nat.le_refl _⟩ calls).2

/-- Every allocated object is entered into the table by the call that
allocates it. -/
theorem everListed_iff (calls : List Call) (r : SessionRef) :
    EverListed calls r ↔ r < (run calls).next := by
  refine ⟨?_, ?_⟩
  · intro hlisted
    obtain ⟨pre, ⟨post, rfl⟩, c, hc⟩ := hlisted
    have hlater : (run pre).next ≤ (run (pre ++ post)).next := by
      rw [run, run, machine.run_append]
      exact next_le_exec (wf_run pre) post
    exact Nat.lt_of_lt_of_le ((wf_run pre).allocated c r hc) hlater
  · induction calls using List.reverseRecOn with
    | nil => exact fun h => absurd h (Nat.not_lt_zero r)
    | append_singleton calls call ih =>
      intro hr
      by_cases hold : r < (run calls).next
      · obtain ⟨pre, hpre, c, hc⟩ := ih hold
        exact ⟨pre, hpre.trans (List.prefix_append _ _), c, hc⟩
      · refine ⟨calls ++ [call], List.prefix_refl _, ?_⟩
        rw [run_snoc] at hr ⊢
        have heff := process_effect (wf_run calls) call
        generalize call.message = m, (run calls).process call = τ
          at heff hr ⊢
        cases heff with
        | @opened q _ =>
          have hnew : r = (run calls).next :=
            Nat.le_antisymm (Nat.le_of_lt_succ hr) (Nat.le_of_not_lt hold)
          exact ⟨q.callID, by rw [hnew, getSession_openSession_self]⟩
        | _ => exact absurd hr hold

theorem accounted_of_along (calls : List Call)
    (h : machine.Along (fun σ call => ¬ Replaces σ call) calls) :
    ∀ r < (run calls).next, Accounted (run calls) r := by
  induction calls using List.reverseRecOn with
  | nil => exact fun r hr => absurd hr (Nat.not_lt_zero r)
  | append_singleton calls call ih =>
    rw [machine.along_snoc] at h
    rw [run_snoc]
    exact accounted_process (wf_run calls) (ledger_run calls) h.2 (ih h.1)

/-- Every session ever listed is accounted for at the end of a run exactly when
no request replaced a live session on the way. -/
theorem accounted_iff_no_replacement (calls : List Call) :
    (∀ r, EverListed calls r → Accounted (run calls) r) ↔
      machine.Along (fun σ call => ¬ Replaces σ call) calls := by
  refine ⟨?_, ?_⟩
  · intro h pre call post heq hrep
    subst heq
    obtain ⟨hre, r, hs⟩ := hrep
    have hwf := wf_run pre
    have hlost : Lost (run (pre ++ call :: post)) r := by
      rw [run, machine.run_append_cons]
      exact (machine.exec_invariant (I := fun τ => Wf τ ∧ Lost τ r)
        (fun _ a hτ => ⟨wf_process hτ.1 a, lost_process hτ.1 hτ.2 a⟩)
        ⟨wf_process hwf call, lost_of_replaces hwf (ledger_run pre) hre hs⟩
        post).2
    exact hlost.not_accounted
      (h r ⟨pre, List.prefix_append _ _, call.message.callID, hs⟩)
  · intro h r hr
    exact accounted_of_along calls h r ((everListed_iff calls r).mp hr)

/-- An INFO inside a dialog drops the session of the INVITE. -/
theorem info_drops_the_invite_session :
    ¬ ∀ calls r, EverListed calls r → Accounted (run calls) r := by
  intro h
  have hlisted : EverListed
      [.request "INVITE" "a" 1, .request "INFO" "a" 2] 0 :=
    ⟨[.request "INVITE" "a" 1], ⟨_, rfl⟩, "a", by decide⟩
  exact absurd (h _ 0 hlisted) (by decide)

end SIPHandler

end Sipana
