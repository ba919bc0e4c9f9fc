import Sipana.Agent.Accountability

/-!
# The lifetime of a session object

The sender keeps the reference it is given, and the object behind it is the one
the handler worked on. What keeps the buffered session as it was handed over is
that nothing but the session table leads from a message to an object
(`heap_process`), and that the entry of a session is gone when it is sent
(`Retired`). Up to then its state only moves up.
-/

namespace Sipana

/-! ## The order of the states -/

namespace SIPSessionState

/-- INITIATED < PROVISIONED < ESTABLISHED < DISCONNECTING < {COMPLETED,
CANCELED, FAILED}. -/
def Below (a b : SIPSessionState) : Prop := a.rank < b.rank ∧ b ≠ .timeout

/-- Below the end the states are told apart by their rank. -/
theorem eq_of_rank {a b : SIPSessionState} (h : a.rank = b.rank)
    (ha : a.rank < 4) : a = b := by
  cases a <;> cases b <;> simp_all [rank]

end SIPSessionState

namespace SIPSession

variable {s : SIPSession}

theorem IsOpen.ne_timeout (h : s.IsOpen) : s.state ≠ .timeout := by
  intro hs
  simp [IsOpen, hs, SIPSessionState.rank] at h

theorem settle_ne_timeout (h : s.state ≠ .timeout) (k : ResponseKind)
    (t : Int) : (s.settle k t).state ≠ .timeout := by
  cases k with
  | ringing | inviteOK =>
    unfold settle
    simp only
    split <;> simp_all
  | passive => exact h
  | cancelOK | byeOK | otherOK | failure => simp [settle]

/-- No message leads to TIMEOUT. -/
theorem absorb_ne_timeout (h : s.state ≠ .timeout) (m : SIPMessage) :
    (s.absorb m).state ≠ .timeout := by
  cases m with
  | request q =>
    by_cases hkind : q.kind = .disconnect
    · rw [s.absorb_disconnect hkind]
      simp
    · rw [s.absorb_request hkind]
      exact h
  | response p =>
    rw [s.absorb_response]
    apply settle_ne_timeout
    rwa [noteResponse_state]

/-- An open session that absorbs a message stays where it is or moves up. -/
theorem absorb_upwards (h : s.IsOpen) (m : SIPMessage) :
    (s.absorb m).state = s.state ∨ s.state.Below (s.absorb m).state := by
  rcases Nat.eq_or_lt_of_le (absorb_rank_le h m) with heq | hlt
  · exact Or.inl (SIPSessionState.eq_of_rank heq h).symm
  · exact Or.inr ⟨hlt, absorb_ne_timeout h.ne_timeout m⟩

end SIPSession

namespace SIPHandler

variable {σ : SIPHandler}

/-! ## What one call does to the objects -/

theorem heap_modify_absorb {m : SIPMessage} {r' : SessionRef}
    (hs : σ.getSession m.callID = some r') (r : SessionRef) :
    (σ.modify r' (·.absorb m)).heap r = σ.heap r ∨
      (σ.getSession m.callID = some r ∧
        (σ.modify r' (·.absorb m)).heap r = (σ.heap r).absorb m) := by
  by_cases hr : r = r'
  · subst hr
    exact Or.inr ⟨hs, heap_modify_self σ r _⟩
  · exact Or.inl (heap_modify_ne σ hr _)

/-- A call changes no object but the live session of its Call-ID, and changes
that one by letting it absorb the message. -/
theorem heap_process (hwf : Wf σ) (call : Call) {r : SessionRef}
    (hr : r < σ.next) :
    (σ.process call).heap r = σ.heap r ∨
      (σ.getSession call.message.callID = some r ∧
        (σ.process call).heap r = (σ.heap r).absorb call.message) := by
  have heff := process_effect hwf call
  generalize call.message = m, σ.process call = τ at heff ⊢
  cases heff with
  | ignored => exact Or.inl rfl
  | standalone => exact Or.inl rfl
  | opened => exact Or.inl (heap_openSession_ne σ _ (Nat.ne_of_lt hr))
  | absorbed hs => exact heap_modify_absorb hs r
  | closed hs => exact heap_modify_absorb hs r

/-- The objects a call creates are INITIATED. -/
theorem state_of_created (hwf : Wf σ) (call : Call) {r : SessionRef}
    (hr : σ.next ≤ r) (hr' : r < (σ.process call).next) :
    ((σ.process call).heap r).state = .initiated := by
  have heff := process_effect hwf call
  generalize call.message = m, σ.process call = τ at heff hr' ⊢
  cases heff with
  | @opened q _ =>
    obtain rfl : r = σ.next := Nat.le_antisymm (Nat.le_of_lt_succ hr') hr
    rw [heap_openSession_self]
    rfl
  | _ => exact absurd hr' (Nat.not_lt_of_le hr)

theorem state_upwards (hwf : Wf σ) (call : Call) {r : SessionRef}
    (hr : r < σ.next) :
    ((σ.process call).heap r).state = (σ.heap r).state ∨
      (σ.heap r).state.Below ((σ.process call).heap r).state := by
  rcases heap_process hwf call hr with heq | ⟨hs, heq⟩
  · exact Or.inl (by rw [heq])
  · rw [heq]
    exact SIPSession.absorb_upwards (hwf.isOpen _ _ hs) _

/-! ## Retired objects -/

/-- The object `r` has left the table with content `s`. -/
structure Retired (σ : SIPHandler) (r : SessionRef) (s : SIPSession) :
    Prop where
  allocated : r < σ.next
  unlisted : ∀ c, σ.getSession c ≠ some r
  content : σ.heap r = s

/-- A retired object is out of reach. -/
theorem retired_process (hwf : Wf σ) {r : SessionRef} {s : SIPSession}
    (h : Retired σ r s) (call : Call) : Retired (σ.process call) r s := by
  refine ⟨Nat.lt_of_lt_of_le h.allocated (next_le_process hwf call), ?_, ?_⟩
  · intro c hc
    exact h.unlisted c (getSession_of_process hwf h.allocated hc)
  · rcases heap_process hwf call h.allocated with heq | ⟨hs, -⟩
    · exact heq.trans h.content
    · exact absurd hs (h.unlisted _)

theorem retired_exec (hwf : Wf σ) {r : SessionRef} {s : SIPSession}
    (h : Retired σ r s) (calls : List Call) :
    Retired (machine.exec σ calls) r s :=
  (machine.exec_invariant (I := fun τ => Wf τ ∧ Retired τ r s)
    (fun _ call hτ => ⟨wf_process hτ.1 call, retired_process hτ.1 hτ.2 call⟩)
    ⟨hwf, h⟩ calls).2

/-- The call that hands a session over retires it. -/
theorem retired_of_handOver (hwf : Wf σ) {call : Call} {r : SessionRef}
    {s : SIPSession} (h : .session r s ∈ σ.handOver call.message) :
    Retired (σ.process call) r s := by
  obtain ⟨hs, hclose, rfl⟩ := session_mem_handOver.mp h
  have heff := process_effect hwf call
  generalize call.message = m, σ.process call = τ at heff hs hclose ⊢
  cases heff with
  | ignored hnone => exact absurd (hnone.symm.trans hs) nofun
  | standalone hnone => exact absurd (hnone.symm.trans hs) nofun
  | opened => simp [SIPMessage.closes] at hclose
  | absorbed _ _ hkeep => simp [hkeep] at hclose
  | @closed _ r' hs' _ =>
    obtain rfl : r' = r := Option.some.inj (hs'.symm.trans hs)
    refine ⟨hwf.allocated _ _ hs, getSession_closed_ne hwf hs, ?_⟩
    rw [finish_heap, heap_modify_self]

/-- Whatever comes later, a session that was handed over is what it was then. -/
theorem retired_of_sent {calls : List Call} {r : SessionRef} {s : SIPSession}
    (h : .session r s ∈ (run calls).sent) (more : List Call) :
    Retired (run (calls ++ more)) r s := by
  obtain ⟨pre, call, post, rfl, hmem⟩ := (mem_sent_iff calls _).mp h
  have hretired := retired_of_handOver (wf_run pre) hmem
  have hrun : run ((pre ++ call :: post) ++ more) =
      machine.exec ((run pre).process call) (post ++ more) := by
    rw [List.append_assoc, List.cons_append]
    exact machine.run_append_cons pre call (post ++ more)
  rw [hrun]
  exact retired_exec (wf_process (wf_run pre) call) hretired _

/-- Every session object is sent at most once, starts as INITIATED and only
moves up, and is never changed after the call that sends it. -/
theorem one_way_lifecycle (calls : List Call) :
    (∀ r, (run calls).sentCount r ≤ 1) ∧
    (∀ call r, (run calls).next ≤ r → r < (run (calls ++ [call])).next →
      ((run (calls ++ [call])).heap r).state = .initiated) ∧
    (∀ call r, r < (run calls).next →
      ((run (calls ++ [call])).heap r).state = ((run calls).heap r).state ∨
      ((run calls).heap r).state.Below
        ((run (calls ++ [call])).heap r).state) ∧
    (∀ r s, .session r s ∈ (run calls).sent →
      ∀ more, (run (calls ++ more)).heap r = s) := by
  have hwf := wf_run calls
  refine ⟨(ledger_run calls).once, ?_, ?_, ?_⟩
  · intro call r hr hr'
    rw [run_snoc] at hr' ⊢
    exact state_of_created hwf call hr hr'
  · intro call r hr
    rw [run_snoc]
    exact state_upwards hwf call hr
  · intro r s h more
    exact (retired_of_sent h more).content

end SIPHandler

end Sipana
